/-
What a handler that fails leaves in the error response.  The `catch` block sets
the status code, the body and its length, and nothing else.
-/
import CuteHttpServer.RequestHandling
import CuteHttpServer.ResponseLength

namespace CuteHttpServer

open ByteString KeyedMap Registration

namespace HttpResponse

/-- The response after a handler has made these calls on it. -/
def after (response : HttpResponse) (calls : List PublicCall) : HttpResponse :=
  calls.foldl PublicCall.apply response

/-- Equal responses, in whatever order their headers came into the map. -/
structure Same (response response' : HttpResponse) : Prop where
  version : response.httpVersion = response'.httpVersion
  code : response.statusCode = response'.statusCode
  message : response.statusMessage = response'.statusMessage
  close : response.closeConnection = response'.closeConnection
  headers : ∀ name, response.responseHeaders.lookup name =
    response'.responseHeaders.lookup name
  body : response.responseBody = response'.responseBody

/-- Version, reason phrase, close flag and all headers but `Content-Length` are
as they were. -/
structure Keeps (left response : HttpResponse) : Prop where
  version : left.httpVersion = response.httpVersion
  message : left.statusMessage = response.statusMessage
  close : left.closeConnection = response.closeConnection
  headers : ∀ name, name ≠ contentLengthName →
    left.responseHeaders.lookup name = response.responseHeaders.lookup name

theorem lookup_setResponseBody (response : HttpResponse) (body name : Bytes) :
    (response.setResponseBody body).responseHeaders.lookup name =
      if name = contentLengthName then some (decimal (UInt64.ofNat body.length).toNat)
      else response.responseHeaders.lookup name :=
  lookup_assign _ _ _ _

/-- What the `catch` block writes over does not show. -/
theorem serverErrorResponse_same_iff (left response : HttpResponse) (e : StdException) :
    (serverErrorResponse left e).Same (serverErrorResponse response e) ↔
      left.Keeps response := by
  constructor
  · intro h
    refine ⟨h.version, h.message, h.close, ?_⟩
    intro name hname
    have hheaders := h.headers name
    unfold serverErrorResponse at hheaders
    rwa [lookup_setResponseBody, lookup_setResponseBody, if_neg hname, if_neg hname]
      at hheaders
  · intro h
    refine ⟨h.version, rfl, h.message, h.close, ?_, rfl⟩
    intro name
    unfold serverErrorResponse
    rw [lookup_setResponseBody, lookup_setResponseBody]
    by_cases hname : name = contentLengthName
    · rw [if_pos hname, if_pos hname]
    · rw [if_neg hname, if_neg hname]
      exact h.headers name hname

end HttpResponse

/-- The answer to a request whose handler has thrown. -/
structure HttpResponse.Reports (response : HttpResponse) (e : StdException) : Prop where
  code : response.statusCode = .k500InternalServerError
  body : response.responseBody = e.what
  length : response.responseHeaders.lookup contentLengthName =
    some (decimal (UInt64.ofNat e.what.length).toNat)

theorem reports_serverErrorResponse (response : HttpResponse) (e : StdException) :
    (serverErrorResponse response e).Reports e where
  code := rfl
  body := rfl
  length := by
    unfold serverErrorResponse
    rw [HttpResponse.lookup_setResponseBody, if_pos rfl]

/-- The handler makes these calls on its response and then throws. -/
def RequestHandler.FailsAfter {σ : Type} (handler : RequestHandler σ)
    (calls : List PublicCall) (e : StdException) (request : HttpRequest)
    (memory : HandlerMemory σ) : Prop :=
  ∃ handlers, handler.handle request memory =
    .error (.exception e) ⟨handlers, memory.response.after calls⟩

namespace HttpServer

variable {σ : Type}

/-- A table of routes in which some handlers are left open. -/
abbrev OpenRoutes (σ : Type) := List (Registration (Option (RequestHandler σ)))

/-- The same table with a handler in the open places. -/
def OpenRoutes.fill (routes : OpenRoutes σ) (handler : RequestHandler σ) :
    List (Registration (RequestHandler σ)) :=
  routes.map (mapHandler (·.getD handler))

/-- The response that `HandleRequest` makes with these routes. -/
def responseOf (middlewares : List (Middleware σ))
    (registrations : List (Registration (RequestHandler σ))) (handlers : σ)
    (request : HttpRequest) (response : HttpResponse) : HttpResponse :=
  (handleRequest middlewares (Router.ofRegistrations registrations) handlers request
    response).response

section Failing

variable {middlewares : List (Middleware σ)} {routes : OpenRoutes σ}
  {route : Registration (Option (RequestHandler σ))} {request request' : HttpRequest}
  {handlers handlers' : σ} {response start : HttpResponse} {calls : List PublicCall}
  {e : StdException}

theorem responseOf_failing
    (hpassed : MiddlewareChain.processRequest middlewares request ⟨handlers, response⟩ =
      .ok request' ⟨handlers', start⟩)
    (hchosen : chosen routes request' = some route) (hopen : route.handler = none)
    {handler : RequestHandler σ}
    (hfails : handler.FailsAfter calls e (route.requestFor request') ⟨handlers', start⟩) :
    responseOf middlewares (routes.fill handler) handlers request response =
      serverErrorResponse (start.after calls) e := by
  obtain ⟨handlers'', hthrown⟩ := hfails
  have hfilled : chosen (routes.fill handler) request' =
      some (mapHandler (·.getD handler) route) := by
    rw [OpenRoutes.fill, chosen_map, hchosen]
    rfl
  have hroute := route_chosen hfilled ⟨handlers', start⟩
  have hhandler : (mapHandler (·.getD handler) route).handler = handler := by
    simp [mapHandler, hopen]
  rw [hhandler] at hroute
  have hsame : (mapHandler (·.getD handler) route).requestFor request' =
      route.requestFor request' := rfl
  rw [hsame, hthrown] at hroute
  rw [responseOf, handleRequest, tryHandleRequest_threw hpassed hroute]

/-- A handler that fails leaves no trace in the error response exactly if the
calls it made have changed nothing but the status code, the body and the
announced length.  `start` is the response that the handler was given. -/
theorem failure_leavesNoTrace_iff
    (hpassed : MiddlewareChain.processRequest middlewares request ⟨handlers, response⟩ =
      .ok request' ⟨handlers', start⟩)
    (hchosen : chosen routes request' = some route) (hopen : route.handler = none)
    {handler atOnce : RequestHandler σ}
    (hfails : handler.FailsAfter calls e (route.requestFor request') ⟨handlers', start⟩)
    (hatOnce : atOnce.FailsAfter [] e (route.requestFor request') ⟨handlers', start⟩) :
    ((responseOf middlewares (routes.fill handler) handlers request response).Same
        (responseOf middlewares (routes.fill atOnce) handlers request response) ∧
      (responseOf middlewares (routes.fill handler) handlers request response).Reports e) ↔
      (start.after calls).Keeps start := by
  rw [responseOf_failing hpassed hchosen hopen hfails,
    responseOf_failing hpassed hchosen hopen hatOnce,
    and_iff_left (reports_serverErrorResponse _ e)]
  exact HttpResponse.serverErrorResponse_same_iff (start.after calls) start e

end Failing

/-- A handler that makes some calls and fails. -/
def failingAfter (calls : List PublicCall) : RequestHandler Unit := fun _ => do
  changeResponse fun response => response.after calls
  throw (.exception ⟨ascii "no"⟩)

abbrev getA : HttpRequest := plainRequest .kGet (ascii "/a")

def openRoute : Registration (Option (RequestHandler Unit)) :=
  ⟨.callbacks, .kGet, ascii "/a", none⟩

/-- The answer to a request for it, behind the default middleware. -/
def failedAnswer (calls : List PublicCall) : HttpResponse :=
  responseOf [CorsMiddleware.new CorsConfig.defaultConfig]
    (OpenRoutes.fill [openRoute] (failingAfter calls)) () getA
    (HttpResponse.new false)

theorem failure_leavesNoTrace_partial :
    (failedAnswer [.setter (.setStatusCode .k200Ok),
      .setter (.setResponseBody (ascii "part"))]).Same (failedAnswer []) := by
  have hpassed : MiddlewareChain.processRequest [CorsMiddleware.new CorsConfig.defaultConfig]
      getA ⟨(), HttpResponse.new false⟩ = .ok getA ⟨(), HttpResponse.new false⟩ := rfl
  have hchosen : chosen [openRoute] getA = some openRoute := rfl
  refine ((failure_leavesNoTrace_iff hpassed hchosen rfl ⟨(), rfl⟩ ⟨(), rfl⟩).mpr
    ⟨rfl, rfl, rfl, ?_⟩).1
  intro name hname
  exact (HttpResponse.lookup_setResponseBody _ _ name).trans (if_neg hname)

/-- A cookie that the handler has set goes out with the error. -/
theorem not_leavesNoTrace_cookie :
    ¬ (failedAnswer [.setter (.addHeader (ascii "Set-Cookie") (ascii "a=b"))]).Same
      (failedAnswer []) := by
  intro h
  have hcookie := h.headers (ascii "Set-Cookie")
  exact absurd hcookie (by decide +kernel)

end HttpServer

end CuteHttpServer
