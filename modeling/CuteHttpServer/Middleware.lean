/-
Middlewares: what runs before and after the handlers, the chain that calls
them, and the one that answers for cross-origin requests.
-/
import CuteHttpServer.HttpResponse

namespace CuteHttpServer

open ByteString KeyedMap

/-- What can be thrown and is caught again: an exception, or a response that
takes the place of the one under way. -/
inductive Thrown
  | exception (e : StdException)
  | response (response : HttpResponse)
deriving DecidableEq

/-- What code that runs for a request can change: the handlers' own state and
the response behind the pointer it is given. -/
structure HandlerMemory (σ : Type) where
  handlers : σ
  response : HttpResponse

/-- Such code: what it changed before it threw stays changed. -/
abbrev Handling (σ : Type) := EStateM Thrown (HandlerMemory σ)

/-- A change to the response alone. -/
def changeResponse {σ : Type} (change : HttpResponse → HttpResponse) : Handling σ Unit :=
  modify fun memory => { memory with response := change memory.response }

/-- The two virtual functions of a middleware.  The first is given the request
by reference, so it hands on the request as it leaves it. -/
structure Middleware (σ : Type) where
  handleRequest : HttpRequest → Handling σ HttpRequest
  handleResponse : Handling σ Unit

namespace MiddlewareChain

variable {σ : Type}

/-- `ProcessRequest`: in order of registration, until one throws. -/
def processRequest : List (Middleware σ) → HttpRequest → Handling σ HttpRequest
  | [], request => pure request
  | middleware :: rest, request => do
      let request ← middleware.handleRequest request
      processRequest rest request

/-- The loop of `ProcessResponse`. -/
def handleResponses : List (Middleware σ) → Handling σ Unit
  | [] => pure ()
  | middleware :: rest => do
      middleware.handleResponse
      handleResponses rest

/-- `ProcessResponse`: from the last one registered to the first.  An
exception ends the loop and is logged. -/
def processResponse (middlewares : List (Middleware σ)) : Handling σ Unit :=
  fun memory =>
    match handleResponses middlewares.reverse memory with
    | .ok () memory => .ok () memory
    | .error (.exception _) memory => .ok () memory
    | .error (.response response) memory => .error (.response response) memory

end MiddlewareChain

structure CorsConfig where
  allowedOrigins : List Bytes
  allowedMethods : List Bytes
  allowedHeaders : List Bytes
  allowCredentials : Bool := false
  maxAge : Int := 3600
deriving DecidableEq, Repr

def CorsConfig.defaultConfig : CorsConfig where
  allowedOrigins := [ascii "*"]
  allowedMethods := [ascii "GET", ascii "POST", ascii "PUT", ascii "DELETE", ascii "OPTIONS"]
  allowedHeaders := [ascii "Content-Type", ascii "Authorization"]

namespace CorsMiddleware

/-- The origin that stands for all. -/
abbrev anyOrigin : Bytes := ascii "*"

abbrev allowOriginName : Bytes := ascii "Access-Control-Allow-Origin"

def isOriginAllowed (config : CorsConfig) (origin : Bytes) : Bool :=
  config.allowedOrigins.any fun allowedOrigin =>
    allowedOrigin = anyOrigin || allowedOrigin = origin

def join (strings : List Bytes) (delimiter : Bytes) : Bytes :=
  List.intercalate delimiter strings

def addCorsHeaders (config : CorsConfig) (response : HttpResponse) (origin : Bytes) :
    HttpResponse :=
  let response := response.addHeader allowOriginName origin
  let response :=
    if config.allowedMethods ≠ [] then
      response.addHeader (ascii "Access-Control-Allow-Methods")
        (join config.allowedMethods (ascii ", "))
    else response
  let response :=
    if config.allowedHeaders ≠ [] then
      response.addHeader (ascii "Access-Control-Allow-Headers")
        (join config.allowedHeaders (ascii ", "))
    else response
  let response :=
    if config.allowCredentials then
      response.addHeader (ascii "Access-Control-Allow-Credentials") (ascii "true")
    else response
  response.addHeader (ascii "Access-Control-Max-Age") (decimalInt config.maxAge)

def handlePreflightRequest (config : CorsConfig) (request : HttpRequest)
    (response : HttpResponse) : HttpResponse :=
  let origin := request.getHeader (ascii "Origin")
  if !isOriginAllowed config origin then response.setStatusCode .k403Forbidden
  else (addCorsHeaders config response origin).setStatusCode .k204NoContent

/-- The response that answers a preflight request.  It starts out empty, with
the constructor's default for its flag. -/
def preflightResponse (config : CorsConfig) (request : HttpRequest) : HttpResponse :=
  handlePreflightRequest config request (HttpResponse.new true)

variable {σ : Type}

/-- `HandleRequest`: a preflight request never gets past the middleware. -/
def handleRequest (config : CorsConfig) (request : HttpRequest) : Handling σ HttpRequest :=
  if request.getMethod = .kOptions then
    throw (.response (preflightResponse config request))
  else pure request

/-- What `HandleResponse` makes of a response: without knowing the request, it
adds headers for all origins or for the first of the list. -/
def corsResponse (config : CorsConfig) (response : HttpResponse) : HttpResponse :=
  match config.allowedOrigins with
  | [] => response
  | first :: _ =>
      if anyOrigin ∈ config.allowedOrigins then addCorsHeaders config response anyOrigin
      else addCorsHeaders config response first

def handleResponse (config : CorsConfig) : Handling σ Unit :=
  changeResponse (corsResponse config)

/-- The middleware with this configuration. -/
def new (config : CorsConfig) : Middleware σ where
  handleRequest := handleRequest config
  handleResponse := handleResponse config

end CorsMiddleware

end CuteHttpServer
