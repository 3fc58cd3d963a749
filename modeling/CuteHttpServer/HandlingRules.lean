/-
What holds of the response of `HandleRequest`, by what the middlewares and the
handlers keep: also where they throw, and where the server fills in for them.
-/
import CuteHttpServer.RequestHandling
import CuteHttpServer.StateTriple

namespace CuteHttpServer

open StateTriple Registration

variable {σ α β : Type}

/-- The code keeps `P` of the response and returns a value with `Q`; a response
that it throws has `P`, and an exception has `E`. -/
def Handling.Keeps (P : HttpResponse → Prop) (E : StdException → Prop) (Q : α → Prop)
    (code : Handling σ α) : Prop :=
  Triple (fun memory => P memory.response) code
    (fun a memory => Q a ∧ P memory.response)
    fun thrown memory =>
      match thrown with
      | .exception e => E e ∧ P memory.response
      | .response response => P response

variable {P : HttpResponse → Prop} {E : StdException → Prop} {Q : HttpRequest → Prop}

namespace Handling

theorem Keeps.pure {Q : α → Prop} {a : α} (ha : Q a) :
    Keeps P E Q (pure a : Handling σ α) :=
  Triple.pure fun _ hresponse => ⟨ha, hresponse⟩

theorem Keeps.bind {Q : α → Prop} {R : β → Prop} {code : Handling σ α}
    {next : α → Handling σ β} (hcode : Keeps P E Q code)
    (hnext : ∀ a, Q a → Keeps P E R (next a)) : Keeps P E R (code >>= next) := by
  apply Triple.bind hcode
  exact fun a memory hmemory => hnext a hmemory.1 memory hmemory.2

theorem Keeps.changeResponse {change : HttpResponse → HttpResponse}
    (hchange : ∀ response, P response → P (change response)) :
    Keeps P E (fun _ => True) (changeResponse change : Handling σ Unit) :=
  Triple.modify fun memory hresponse => ⟨trivial, hchange memory.response hresponse⟩

theorem Keeps.throwResponse {Q : α → Prop} {response : HttpResponse} (hresponse : P response) :
    Keeps P E Q (throw (.response response) : Handling σ α) :=
  Triple.throw fun _ _ => hresponse

end Handling

/-- Both functions of the middleware keep `P`, for requests with `Q`. -/
structure Middleware.Keeps (P : HttpResponse → Prop) (E : StdException → Prop)
    (Q : HttpRequest → Prop) (middleware : Middleware σ) : Prop where
  handleRequest : ∀ request, Q request →
    Handling.Keeps P E Q (middleware.handleRequest request)
  handleResponse : Handling.Keeps P E (fun _ => True) middleware.handleResponse

namespace MiddlewareChain

variable {middlewares : List (Middleware σ)}

theorem processRequest_keeps (h : ∀ middleware ∈ middlewares, middleware.Keeps P E Q)
    {request : HttpRequest} (hrequest : Q request) :
    Handling.Keeps P E Q (processRequest middlewares request) := by
  induction middlewares generalizing request with
  | nil => exact Handling.Keeps.pure hrequest
  | cons middleware rest ih =>
      obtain ⟨hfirst, hrest⟩ := List.forall_mem_cons.mp h
      apply (hfirst.handleRequest request hrequest).bind
      exact fun request hrequest => ih hrest hrequest

theorem handleResponses_keeps (h : ∀ middleware ∈ middlewares, middleware.Keeps P E Q) :
    Handling.Keeps P E (fun _ => True) (handleResponses middlewares) := by
  induction middlewares with
  | nil => exact Handling.Keeps.pure trivial
  | cons middleware rest ih =>
      obtain ⟨hfirst, hrest⟩ := List.forall_mem_cons.mp h
      exact hfirst.handleResponse.bind fun _ _ => ih hrest

/-- The exceptions of a `HandleResponse` are not passed on. -/
theorem processResponse_keeps (h : ∀ middleware ∈ middlewares, middleware.Keeps P E Q) :
    Handling.Keeps P E (fun _ => True) (processResponse middlewares) := by
  intro memory hmemory
  have hreverse : ∀ middleware ∈ middlewares.reverse, middleware.Keeps P E Q :=
    fun middleware hmiddleware => h middleware (List.mem_reverse.mp hmiddleware)
  have hloop := handleResponses_keeps hreverse memory hmemory
  unfold processResponse
  cases hresult : handleResponses middlewares.reverse memory with
  | ok _ after =>
      rw [hresult] at hloop
      exact hloop
  | error thrown after =>
      rw [hresult] at hloop
      cases thrown with
      | exception e => exact ⟨trivial, hloop.2⟩
      | response response => exact hloop

end MiddlewareChain

namespace HttpServer

variable {middlewares : List (Middleware σ)}
  {registrations : List (Registration (RequestHandler σ))}

/-- Whichever handler the router picks. -/
theorem route_keeps {request : HttpRequest}
    (h : ∀ registration ∈ registrations, Handling.Keeps P E (fun _ => True)
      (registration.handler.handle (registration.requestFor request))) :
    Handling.Keeps P E (fun _ => True)
      ((Router.ofRegistrations registrations).route RequestHandler.handle request) := by
  rw [Router.route_ofRegistrations]
  cases hchosen : chosen registrations request with
  | none => exact Handling.Keeps.pure trivial
  | some registration =>
      apply (h registration (of_chosen hchosen).1).bind
      exact fun _ _ => Handling.Keeps.pure trivial

/-- What the middlewares, the handlers and the two error responses keep, the
response of `HandleRequest` has. -/
theorem handleRequest_keeps
    (hmiddlewares : ∀ middleware ∈ middlewares, middleware.Keeps P E Q)
    (hhandlers : ∀ registration ∈ registrations, ∀ request, Q request →
      Handling.Keeps P E (fun _ => True)
        (registration.handler.handle (registration.requestFor request)))
    (hnotFound : ∀ response, P response → P (notFoundResponse response))
    (hserverError : ∀ response e, P response → E e → P (serverErrorResponse response e))
    {request : HttpRequest} (hrequest : Q request) (handlers : σ) {response : HttpResponse}
    (hresponse : P response) :
    P (handleRequest middlewares (Router.ofRegistrations registrations) handlers request
      response).response := by
  have htry : Handling.Keeps P E (fun _ => True)
      (tryHandleRequest middlewares (Router.ofRegistrations registrations) request) := by
    apply (MiddlewareChain.processRequest_keeps hmiddlewares hrequest).bind
    intro request' hrequest'
    apply (route_keeps fun registration hmem =>
      hhandlers registration hmem request' hrequest').bind
    intro found _
    cases found with
    | true => exact MiddlewareChain.processResponse_keeps hmiddlewares
    | false =>
        apply (Handling.Keeps.changeResponse hnotFound).bind
        exact fun _ _ => MiddlewareChain.processResponse_keeps hmiddlewares
  have hresult := htry ⟨handlers, response⟩ hresponse
  unfold handleRequest
  cases htried : tryHandleRequest middlewares (Router.ofRegistrations registrations) request
      ⟨handlers, response⟩ with
  | ok _ memory =>
      rw [htried] at hresult
      exact hresult.2
  | error thrown memory =>
      rw [htried] at hresult
      cases thrown with
      | exception e => exact hserverError memory.response e hresult.2 hresult.1
      | response response => exact hresult

end HttpServer

end CuteHttpServer
