/-
The routing tables and `Route`.  Handlers run in any monad, so that what is
said of a route says which handlers it invokes, on what, and how often.
-/
import CuteHttpServer.EcmaScript
import CuteHttpServer.HttpRequest

namespace CuteHttpServer

open ByteString EcmaScript KeyedMap

structure RouteKey where
  method : HttpRequestMethod
  path : Bytes
deriving DecidableEq

/-- `RouteHandlerObj` and `RouteCallbackObj`. -/
structure DynamicRoute (H : Type) where
  method : HttpRequestMethod
  pathRegex : Pattern
  handler : H

/-- The four tables.  `H` are the handler objects and the callbacks, which are
called alike. -/
structure Router (H : Type) where
  handlers : Map RouteKey H
  callbacks : Map RouteKey H
  regexHandlers : List (DynamicRoute H)
  regexCallbacks : List (DynamicRoute H)

namespace Router

variable {H : Type}

def empty : Router H := ⟨∅, ∅, [], []⟩

/-- The expression for a path pattern: each `/:name` becomes a group, and the
rest of the pattern is taken over as it stands. -/
def convertToRegex (pathPattern : Bytes) : Except SyntaxError Pattern := do
  let placeholder ← compile (ascii "/:([^/]+)")
  let regexPattern :=
    ascii "^" ++ placeholder.regexReplace pathPattern (ascii "/([^/]+)") ++ ascii "$"
  compile regexPattern

/-- `"param" + std::to_string(i)`. -/
def paramName (i : Nat) : Bytes := ascii "param" ++ decimal i

/-- `ExtractPathParams`, from the group that counts as number `i` on.  A group
that took no part in the match is the empty string. -/
def extractPathParams : Nat → List (Option Bytes) → HttpRequest → HttpRequest
  | _, [], request => request
  | i, capture :: captures, request =>
      extractPathParams (i + 1) captures
        (request.setPathParams (paramName i) (capture.getD []))

def registerHandler (router : Router H) (method : HttpRequestMethod) (path : Bytes)
    (handler : H) : Router H :=
  { router with handlers := emplace router.handlers ⟨method, path⟩ handler }

def registerCallback (router : Router H) (method : HttpRequestMethod) (path : Bytes)
    (callback : H) : Router H :=
  { router with callbacks := emplace router.callbacks ⟨method, path⟩ callback }

/-- A pattern that does not compile is an exception of `std::regex`. -/
def registerRegexHandler (router : Router H) (method : HttpRequestMethod) (path : Bytes)
    (handler : H) : Except SyntaxError (Router H) := do
  let pathRegex ← convertToRegex path
  .ok { router with
    regexHandlers := router.regexHandlers ++ [⟨method, pathRegex, handler⟩] }

def registerRegexCallback (router : Router H) (method : HttpRequestMethod) (path : Bytes)
    (callback : H) : Except SyntaxError (Router H) := do
  let pathRegex ← convertToRegex path
  .ok { router with
    regexCallbacks := router.regexCallbacks ++ [⟨method, pathRegex, callback⟩] }

section Route

variable {m : Type → Type} [Monad m] (call : H → HttpRequest → m Unit)

/-- The search through a table of dynamic routes, and what comes after it. -/
def tryRoutes (request : HttpRequest) : List (DynamicRoute H) → m Bool → m Bool
  | [], otherwise => otherwise
  | route :: routes, otherwise =>
      if route.method = request.getMethod then
        match route.pathRegex.regexMatch request.getPath with
        | some captures => do
            call route.handler (extractPathParams 1 captures request)
            pure true
        | none => tryRoutes request routes otherwise
      else tryRoutes request routes otherwise

/-- `Route`: the static tables first, then the dynamic ones. -/
def route (router : Router H) (request : HttpRequest) : m Bool :=
  let routeKey : RouteKey := ⟨request.getMethod, request.getPath⟩
  match router.handlers.lookup routeKey with
  | some handler => do
      call handler request
      pure true
  | none =>
      match router.callbacks.lookup routeKey with
      | some callback => do
          call callback request
          pure true
      | none =>
          tryRoutes call request router.regexHandlers
            (tryRoutes call request router.regexCallbacks (pure false))

end Route

end Router

/-- The table that a registration goes to. -/
inductive RouteTable
  | handlers
  | callbacks
  | regexHandlers
  | regexCallbacks
deriving DecidableEq, Repr

/-- The tables in the order in which `Route` looks at them. -/
def RouteTable.all : List RouteTable := [handlers, callbacks, regexHandlers, regexCallbacks]

/-- Routes whose path is a pattern. -/
def RouteTable.isDynamic : RouteTable → Bool
  | handlers => false
  | callbacks => false
  | regexHandlers => true
  | regexCallbacks => true

/-- One call of a registration function. -/
structure Registration (H : Type) where
  table : RouteTable
  method : HttpRequestMethod
  path : Bytes
  handler : H

namespace Router

variable {H : Type}

/-- The router after one registration.  One that throws leaves it as it was. -/
def register (router : Router H) (registration : Registration H) : Router H :=
  match registration with
  | ⟨.handlers, method, path, handler⟩ => router.registerHandler method path handler
  | ⟨.callbacks, method, path, handler⟩ => router.registerCallback method path handler
  | ⟨.regexHandlers, method, path, handler⟩ =>
      match router.registerRegexHandler method path handler with
      | .ok router => router
      | .error _ => router
  | ⟨.regexCallbacks, method, path, handler⟩ =>
      match router.registerRegexCallback method path handler with
      | .ok router => router
      | .error _ => router

/-- The router after a history of registrations. -/
def ofRegistrations (registrations : List (Registration H)) : Router H :=
  registrations.foldl register empty

end Router

end CuteHttpServer
