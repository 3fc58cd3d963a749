/-
Which middlewares see the response that `HandleRequest` returns.  They are
watched from outside: each notes its number when its `HandleResponse` is
called, in a journal that no other code can reach.
-/
import CuteHttpServer.RequestHandling

namespace CuteHttpServer

open ByteString KeyedMap Registration

/-- The handlers' state, and the numbers of the middlewares whose
`HandleResponse` has been called so far. -/
abbrev Journal (σ : Type) := σ × List Nat

variable {σ α β : Type}

def HandlerMemory.withJournal (memory : HandlerMemory σ) (journal : List Nat) :
    HandlerMemory (Journal σ) :=
  ⟨(memory.handlers, journal), memory.response⟩

/-- The same code beside a journal, which it does not touch. -/
def besideJournal (code : Handling σ α) : Handling (Journal σ) α := fun memory =>
  match code ⟨memory.handlers.1, memory.response⟩ with
  | .ok a after => .ok a (after.withJournal memory.handlers.2)
  | .error thrown after => .error thrown (after.withJournal memory.handlers.2)

def noteCall (number : Nat) : Handling (Journal σ) Unit :=
  modify fun memory =>
    { memory with handlers := (memory.handlers.1, memory.handlers.2 ++ [number]) }

/-- The middleware with this number, watched. -/
def Middleware.watched (numbered : Middleware σ × Nat) : Middleware (Journal σ) where
  handleRequest request := besideJournal (numbered.1.handleRequest request)
  handleResponse := do
    noteCall numbered.2
    besideJournal numbered.1.handleResponse

/-- A chain of middlewares, numbered from zero in order of registration. -/
def watchedChain (middlewares : List (Middleware σ)) : List (Middleware (Journal σ)) :=
  middlewares.zipIdx.map Middleware.watched

/-- The routes with handlers that do not know of the journal. -/
def watchedRoutes (registrations : List (Registration (RequestHandler σ))) :
    List (Registration (RequestHandler (Journal σ))) :=
  registrations.map (mapHandler fun handler request => besideJournal (handler.handle request))

theorem besideJournal_apply (code : Handling σ α) (memory : HandlerMemory σ)
    (journal : List Nat) :
    besideJournal code (memory.withJournal journal) =
      match code memory with
      | .ok a after => .ok a (after.withJournal journal)
      | .error thrown after => .error thrown (after.withJournal journal) := rfl

theorem besideJournal_bind (code : Handling σ α) (next : α → Handling σ β) :
    besideJournal (code >>= next) = besideJournal code >>= fun a => besideJournal (next a) := by
  funext memory
  simp only [besideJournal, bind, EStateM.bind]
  cases code ⟨memory.handlers.1, memory.response⟩ with
  | ok a after => rfl
  | error thrown after => rfl

namespace HttpServer

/-- `HandleRequest` up to the call of `ProcessResponse`. -/
def reachResponse (middlewares : List (Middleware σ)) (router : Router (RequestHandler σ))
    (request : HttpRequest) : Handling σ Unit := do
  let mutableRequest ← MiddlewareChain.processRequest middlewares request
  let found ← router.route RequestHandler.handle mutableRequest
  if !found then changeResponse notFoundResponse

theorem tryHandleRequest_eq (middlewares : List (Middleware σ))
    (router : Router (RequestHandler σ)) (request : HttpRequest) :
    tryHandleRequest middlewares router request =
      reachResponse middlewares router request >>= fun _ =>
        MiddlewareChain.processResponse middlewares := by
  funext memory
  simp only [tryHandleRequest, reachResponse, bind, EStateM.bind]
  cases MiddlewareChain.processRequest middlewares request memory with
  | error thrown after => rfl
  | ok request after =>
      simp only
      cases router.route RequestHandler.handle request after with
      | error thrown after => rfl
      | ok found after => cases found <;> rfl

theorem processRequest_watched (numbered : List (Middleware σ × Nat))
    (request : HttpRequest) :
    MiddlewareChain.processRequest (numbered.map Middleware.watched) request =
      besideJournal (MiddlewareChain.processRequest (numbered.map Prod.fst) request) := by
  induction numbered generalizing request with
  | nil => rfl
  | cons first rest ih =>
      rw [List.map_cons, List.map_cons, MiddlewareChain.processRequest,
        MiddlewareChain.processRequest, besideJournal_bind, ← funext ih]
      rfl

theorem route_watched (registrations : List (Registration (RequestHandler σ)))
    (request : HttpRequest) :
    (Router.ofRegistrations (watchedRoutes registrations)).route RequestHandler.handle
        request =
      besideJournal ((Router.ofRegistrations registrations).route RequestHandler.handle
        request) := by
  rw [Router.route_ofRegistrations, Router.route_ofRegistrations, watchedRoutes, chosen_map]
  cases chosen registrations request with
  | none => rfl
  | some registration =>
      rw [Router.invoke, besideJournal_bind]
      rfl

/-- The journal is not touched before the responses are processed. -/
theorem reachResponse_watched (middlewares : List (Middleware σ))
    (registrations : List (Registration (RequestHandler σ))) (request : HttpRequest) :
    reachResponse (watchedChain middlewares)
        (Router.ofRegistrations (watchedRoutes registrations)) request =
      besideJournal (reachResponse middlewares (Router.ofRegistrations registrations)
        request) := by
  have hchain := processRequest_watched middlewares.zipIdx request
  rw [List.zipIdx_map_fst] at hchain
  rw [reachResponse, watchedChain, hchain, reachResponse, besideJournal_bind]
  congr 1
  funext request'
  rw [besideJournal_bind, route_watched]
  congr 1
  funext found
  cases found <;> rfl

end HttpServer

namespace MiddlewareChain

/-- How many middlewares let the request pass: their `HandleRequest` has
completed normally. -/
def completed : List (Middleware σ) → HttpRequest → HandlerMemory σ → Nat
  | [], _, _ => 0
  | middleware :: rest, request, memory =>
      match middleware.handleRequest request memory with
      | .ok request after => completed rest request after + 1
      | .error _ _ => 0

/-- The numbers of the middlewares whose `HandleResponse` is called by the loop:
the first one that throws is the last. -/
def called : List (Middleware σ × Nat) → HandlerMemory σ → List Nat
  | [], _ => []
  | first :: rest, memory =>
      first.2 ::
        match first.1.handleResponse memory with
        | .ok _ after => called rest after
        | .error _ _ => []

/-- Every `HandleResponse` returns, except that the last one may throw an
exception that is no response. -/
def AllReturn : List (Middleware σ) → HandlerMemory σ → Prop
  | [], _ => True
  | middleware :: rest, memory =>
      match middleware.handleResponse memory with
      | .ok _ after => AllReturn rest after
      | .error (.exception _) _ => rest = []
      | .error (.response _) _ => False

/-- The loop ends by throwing a response. -/
def ThrowsResponse (middlewares : List (Middleware σ)) (memory : HandlerMemory σ) : Prop :=
  ∃ thrown after, handleResponses middlewares memory = .error (.response thrown) after

theorem completed_of_ok {middlewares : List (Middleware σ)} {request request' : HttpRequest}
    {memory after : HandlerMemory σ}
    (h : processRequest middlewares request memory = .ok request' after) :
    completed middlewares request memory = middlewares.length := by
  induction middlewares generalizing request memory with
  | nil => rfl
  | cons middleware rest ih =>
      simp only [processRequest, bind, EStateM.bind] at h
      unfold completed
      cases hfirst : middleware.handleRequest request memory with
      | error thrown after => simp [hfirst] at h
      | ok request'' after' =>
          simp only [hfirst] at h
          simp only [ih h, List.length_cons]

theorem allReturn_iff (numbered : List (Middleware σ × Nat)) (memory : HandlerMemory σ) :
    AllReturn (numbered.map Prod.fst) memory ↔
      called numbered memory = numbered.map Prod.snd ∧
        ¬ ThrowsResponse (numbered.map Prod.fst) memory := by
  induction numbered generalizing memory with
  | nil => exact iff_of_true trivial ⟨rfl, fun ⟨_, _, hloop⟩ => nomatch hloop⟩
  | cons first rest ih =>
      simp only [List.map_cons, AllReturn, called, List.cons.injEq, true_and, ThrowsResponse,
        handleResponses, bind, EStateM.bind]
      cases first.1.handleResponse memory with
      | ok _ after => exact ih after
      | error thrown after =>
          cases thrown with
          | exception e =>
              rw [List.nil_eq, List.map_eq_nil_iff, List.map_eq_nil_iff]
              simp
          | response response => simp

/-- The journal of the loop. -/
theorem handleResponses_watched (numbered : List (Middleware σ × Nat))
    (memory : HandlerMemory σ) (journal : List Nat) :
    handleResponses (numbered.map Middleware.watched) (memory.withJournal journal) =
      match handleResponses (numbered.map Prod.fst) memory with
      | .ok _ after => .ok () (after.withJournal (journal ++ called numbered memory))
      | .error thrown after =>
          .error thrown (after.withJournal (journal ++ called numbered memory)) := by
  induction numbered generalizing memory journal with
  | nil => simp [handleResponses, called, pure, EStateM.pure]
  | cons first rest ih =>
      have hnoted : (Middleware.watched first).handleResponse (memory.withJournal journal) =
          besideJournal first.1.handleResponse
            (memory.withJournal (journal ++ [first.2])) := rfl
      rw [besideJournal_apply] at hnoted
      simp only [List.map_cons, handleResponses, bind, EStateM.bind, called, hnoted]
      cases first.1.handleResponse memory with
      | error thrown after => rfl
      | ok _ after =>
          simp only [ih, List.append_assoc, List.singleton_append]

theorem handleResponses_watchedChain (middlewares : List (Middleware σ))
    (memory : HandlerMemory σ) :
    handleResponses (watchedChain middlewares).reverse (memory.withJournal []) =
      match handleResponses middlewares.reverse memory with
      | .ok _ after => .ok () (after.withJournal (called middlewares.zipIdx.reverse memory))
      | .error thrown after =>
          .error thrown (after.withJournal (called middlewares.zipIdx.reverse memory)) := by
  have hloop := handleResponses_watched middlewares.zipIdx.reverse memory []
  rwa [List.map_reverse, List.map_reverse, List.zipIdx_map_fst, List.nil_append] at hloop

end MiddlewareChain

namespace HttpServer

open MiddlewareChain

variable (middlewares : List (Middleware σ))
  (registrations : List (Registration (RequestHandler σ)))

/-- The middlewares whose `HandleResponse` has been called on the response that
`HandleRequest` returns, in the order of the calls.  A thrown response replaces
the one under way, and no call has seen it. -/
def responseCalls (handlers : σ) (request : HttpRequest) (response : HttpResponse) :
    List Nat :=
  match tryHandleRequest (watchedChain middlewares)
      (Router.ofRegistrations (watchedRoutes registrations)) request
      ⟨(handlers, []), response⟩ with
  | .ok _ after => after.handlers.2
  | .error (.exception _) after => after.handlers.2
  | .error (.response _) _ => []

/-- `HandleResponse` is called once for each middleware that let the request
pass, in reverse order, and for no other. -/
def Brackets (handlers : σ) (request : HttpRequest) (response : HttpResponse) : Prop :=
  responseCalls middlewares registrations handlers request response =
    (List.range (completed middlewares request ⟨handlers, response⟩)).reverse

/-- The response is reached without an exception, and no `HandleResponse` then
throws, except that the one called last may throw an exception that is no
response. -/
def ReturnsNormally (handlers : σ) (request : HttpRequest) (response : HttpResponse) :
    Prop :=
  ∃ after, reachResponse middlewares (Router.ofRegistrations registrations) request
      ⟨handlers, response⟩ = .ok () after ∧
    AllReturn middlewares.reverse after

variable {middlewares registrations} {request : HttpRequest} {response : HttpResponse}
  {handlers : σ}

theorem tryHandleRequest_watched :
    tryHandleRequest (watchedChain middlewares)
        (Router.ofRegistrations (watchedRoutes registrations)) request
        ⟨(handlers, []), response⟩ =
      match reachResponse middlewares (Router.ofRegistrations registrations) request
        ⟨handlers, response⟩ with
      | .ok _ after => processResponse (watchedChain middlewares) (after.withJournal [])
      | .error thrown after => .error thrown (after.withJournal []) := by
  have hstart : (⟨(handlers, []), response⟩ : HandlerMemory (Journal σ)) =
      HandlerMemory.withJournal ⟨handlers, response⟩ [] := rfl
  rw [tryHandleRequest_eq, hstart]
  simp only [bind, EStateM.bind, reachResponse_watched, besideJournal_apply]
  cases reachResponse middlewares (Router.ofRegistrations registrations) request
      ⟨handlers, response⟩ with
  | ok _ after => rfl
  | error thrown after => rfl

/-- Once the response is reached, every middleware has let the request pass. -/
theorem completed_of_reachResponse {after : HandlerMemory σ}
    {router : Router (RequestHandler σ)}
    (h : reachResponse middlewares router request ⟨handlers, response⟩ = .ok () after) :
    completed middlewares request ⟨handlers, response⟩ = middlewares.length := by
  cases hpassed : processRequest middlewares request ⟨handlers, response⟩ with
  | ok request' after' => exact completed_of_ok hpassed
  | error thrown after' => simp [reachResponse, bind, EStateM.bind, hpassed] at h

theorem responseCalls_of_error {thrown : Thrown} {after : HandlerMemory σ}
    (hreach : reachResponse middlewares (Router.ofRegistrations registrations) request
      ⟨handlers, response⟩ = .error thrown after) :
    responseCalls middlewares registrations handlers request response = [] := by
  simp only [responseCalls, tryHandleRequest_watched, hreach]
  cases thrown <;> rfl

theorem responseCalls_of_throwsResponse {after : HandlerMemory σ}
    (hreach : reachResponse middlewares (Router.ofRegistrations registrations) request
      ⟨handlers, response⟩ = .ok () after)
    (hthrows : ThrowsResponse middlewares.reverse after) :
    responseCalls middlewares registrations handlers request response = [] := by
  obtain ⟨thrown, after', hloop⟩ := hthrows
  simp only [responseCalls, tryHandleRequest_watched, hreach, processResponse,
    handleResponses_watchedChain, hloop]

theorem responseCalls_of_not_throwsResponse {after : HandlerMemory σ}
    (hreach : reachResponse middlewares (Router.ofRegistrations registrations) request
      ⟨handlers, response⟩ = .ok () after)
    (hthrows : ¬ ThrowsResponse middlewares.reverse after) :
    responseCalls middlewares registrations handlers request response =
      called middlewares.zipIdx.reverse after := by
  simp only [responseCalls, tryHandleRequest_watched, hreach, processResponse,
    handleResponses_watchedChain]
  cases hloop : handleResponses middlewares.reverse after with
  | ok _ after' => rfl
  | error thrown after' =>
      cases thrown with
      | exception e => rfl
      | response thrown => exact absurd ⟨thrown, after', hloop⟩ hthrows

/-- The middlewares bracket the request exactly if none has let it pass, or if
everything returns normally. -/
theorem brackets_iff :
    Brackets middlewares registrations handlers request response ↔
      completed middlewares request ⟨handlers, response⟩ = 0 ∨
        ReturnsNormally middlewares registrations handlers request response := by
  unfold Brackets ReturnsNormally
  cases hreach : reachResponse middlewares (Router.ofRegistrations registrations) request
      ⟨handlers, response⟩ with
  | error thrown after =>
      rw [responseCalls_of_error hreach, eq_comm, List.reverse_eq_nil_iff,
        List.range_eq_nil]
      simp
  | ok _ after =>
      have hreturn := allReturn_iff middlewares.zipIdx.reverse after
      rw [List.map_reverse, List.map_reverse, List.zipIdx_map_fst, List.zipIdx_map_snd,
        ← List.range_eq_range'] at hreturn
      simp only [EStateM.Result.ok.injEq, true_and, exists_eq_left']
      rw [completed_of_reachResponse hreach, hreturn]
      by_cases hthrows : ThrowsResponse middlewares.reverse after
      · rw [responseCalls_of_throwsResponse hreach hthrows,
          or_iff_left fun h => h.2 hthrows, eq_comm, List.reverse_eq_nil_iff,
          List.range_eq_nil]
      · have hempty : middlewares.length = 0 →
            called middlewares.zipIdx.reverse after =
              (List.range middlewares.length).reverse := by
          intro hlength
          rw [List.length_eq_zero_iff.mp hlength]
          rfl
        rw [responseCalls_of_not_throwsResponse hreach hthrows, and_iff_left hthrows,
          or_iff_right_of_imp hempty]

/-- A route whose handler fails. -/
def throwingRoute : Registration (RequestHandler Unit) :=
  ⟨.handlers, .kGet, ascii "/fail", fun _ => throw (.exception ⟨ascii "no"⟩)⟩

/-- The middleware has let the request pass and does not see the response. -/
theorem not_brackets_throwing :
    ¬ Brackets [CorsMiddleware.new CorsConfig.defaultConfig] [throwingRoute] ()
      (plainRequest .kGet (ascii "/fail")) (HttpResponse.new false) := by
  unfold Brackets
  decide +kernel

end HttpServer

end CuteHttpServer
