/-
`HandleRequest`, the callback that a server uses by default: the middlewares,
the router, and the three ways in which a request can miss its handler.
-/
import CuteHttpServer.HttpServer
import CuteHttpServer.Middleware
import CuteHttpServer.RouteResolution

namespace CuteHttpServer

open ByteString KeyedMap

/-- A registered handler object or callback. -/
abbrev RequestHandler (σ : Type) := HttpRequest → Handling σ Unit

/-- `Handle`, or the call of the callback. -/
def RequestHandler.handle {σ : Type} (handler : RequestHandler σ) : HttpRequest → Handling σ Unit :=
  handler

/-- What is left of the response where no route takes the request. -/
def notFoundResponse (response : HttpResponse) : HttpResponse :=
  ((response.setStatusCode .k404NotFound).setResponseBody
    (ascii "404 Not Found")).setCloseConnection true

/-- And where an exception has ended the work on it. -/
def serverErrorResponse (response : HttpResponse) (e : StdException) : HttpResponse :=
  (response.setStatusCode .k500InternalServerError).setResponseBody e.what

namespace HttpServer

variable {σ : Type} (middlewareChain : List (Middleware σ))
  (router : Router (RequestHandler σ))

/-- What `HandleRequest` does inside its `try` block. -/
def tryHandleRequest (request : HttpRequest) : Handling σ Unit := do
  let mutableRequest ← MiddlewareChain.processRequest middlewareChain request
  let found ← router.route RequestHandler.handle mutableRequest
  if !found then changeResponse notFoundResponse
  MiddlewareChain.processResponse middlewareChain

/-- `HandleRequest`: a response that is thrown replaces the one under way, an
exception makes it an error. -/
def handleRequest : HttpCallback σ := fun handlers request response =>
  match tryHandleRequest middlewareChain router request ⟨handlers, response⟩ with
  | .ok () memory => ⟨memory.handlers, memory.response, none⟩
  | .error (.response response) memory => ⟨memory.handlers, response, none⟩
  | .error (.exception e) memory =>
      ⟨memory.handlers, serverErrorResponse memory.response e, none⟩

/-- A server with its default callback. -/
def withDefaultCallback (headerOrder : IterationOrder Bytes Bytes) : HttpServer σ where
  httpCallback := handleRequest middlewareChain router
  headerOrder := headerOrder

section Steps

variable {middlewareChain router} {request request' : HttpRequest}
  {memory memory' memory'' : HandlerMemory σ}

/-- A middleware has thrown. -/
theorem tryHandleRequest_stopped {thrown : Thrown}
    (h : MiddlewareChain.processRequest middlewareChain request memory =
      .error thrown memory') :
    tryHandleRequest middlewareChain router request memory = .error thrown memory' := by
  simp only [tryHandleRequest, bind, EStateM.bind, h]

/-- A handler has thrown: what comes after it is left out. -/
theorem tryHandleRequest_threw {thrown : Thrown}
    (h : MiddlewareChain.processRequest middlewareChain request memory =
      .ok request' memory')
    (hroute : router.route RequestHandler.handle request' memory' =
      .error thrown memory'') :
    tryHandleRequest middlewareChain router request memory = .error thrown memory'' := by
  simp only [tryHandleRequest, bind, EStateM.bind, h, hroute]

theorem tryHandleRequest_handled
    (h : MiddlewareChain.processRequest middlewareChain request memory =
      .ok request' memory')
    (hroute : router.route RequestHandler.handle request' memory' =
      .ok true memory'') :
    tryHandleRequest middlewareChain router request memory =
      MiddlewareChain.processResponse middlewareChain memory'' := by
  simp only [tryHandleRequest, bind, EStateM.bind, h, hroute]
  rfl

theorem tryHandleRequest_notFound
    (h : MiddlewareChain.processRequest middlewareChain request memory =
      .ok request' memory')
    (hroute : router.route RequestHandler.handle request' memory' =
      .ok false memory'') :
    tryHandleRequest middlewareChain router request memory =
      MiddlewareChain.processResponse middlewareChain
        ⟨memory''.handlers, notFoundResponse memory''.response⟩ := by
  simp only [tryHandleRequest, bind, EStateM.bind, h, hroute]
  rfl

end Steps

section Routes

open Registration

variable {registrations : List (Registration (RequestHandler σ))} {request : HttpRequest}

/-- The router passes the request to the handler of the chosen route. -/
theorem route_chosen {registration : Registration (RequestHandler σ)}
    (h : chosen registrations request = some registration) (memory : HandlerMemory σ) :
    (Router.ofRegistrations registrations).route RequestHandler.handle request memory =
      match registration.handler.handle (registration.requestFor request) memory with
      | .ok _ memory => .ok true memory
      | .error thrown memory => .error thrown memory := by
  rw [Router.route_ofRegistrations, h]
  simp only [Router.invoke, bind, EStateM.bind]
  cases registration.handler.handle (registration.requestFor request) memory with
  | ok _ memory => rfl
  | error thrown memory => rfl

theorem route_notChosen (h : chosen registrations request = none)
    (memory : HandlerMemory σ) :
    (Router.ofRegistrations registrations).route RequestHandler.handle request memory =
      .ok false memory := by
  rw [Router.route_ofRegistrations, h]
  rfl

end Routes

theorem handleRequest_thrown (handlers : σ) (request : HttpRequest)
    (response : HttpResponse) :
    (handleRequest middlewareChain router handlers request response).thrown = none := by
  unfold handleRequest
  split
  · rfl
  · rfl
  · rfl

/-- A request as the parser completes it. -/
def plainRequest (method : HttpRequestMethod) (path : Bytes) : HttpRequest :=
  { HttpRequest.new 0 with method := method, path := path, version := ascii "HTTP/1.1" }

end HttpServer

end CuteHttpServer
