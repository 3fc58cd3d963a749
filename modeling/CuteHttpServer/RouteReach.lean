/-
Whether a request can reach a static route: the method is written by one list
of names and read back by another.
-/
import CuteHttpServer.RequestLineForm
import CuteHttpServer.Router

namespace CuteHttpServer

open ByteString DelimitedText KeyedMap

/-- The name that `GetStringMethod` gives a method. -/
def methodName (method : HttpRequestMethod) : Bytes :=
  { HttpRequest.new 0 with method := method }.getStringMethod

theorem methodName_token (method : HttpRequestMethod) :
    methodName method ≠ [] ∧ ∀ c ∈ methodName method, isSpace c = false := by
  cases method <;> decide +kernel

/-- Only `HEAD` is written and not read. -/
theorem methodOf_methodName (method : HttpRequestMethod) :
    HttpRequest.methodOf (methodName method) =
      if method = .kHead then .kInvalid else method := by
  cases method <;> decide +kernel

/-- A request line for a route, with or without a query. -/
structure RouteLine where
  method : HttpRequestMethod
  path : Bytes
  query : Option Bytes
  version : Bytes
  method_valid : method ≠ .kInvalid
  path_ne : path ≠ []
  path_free : ∀ c ∈ path, isSpace c = false ∧ c ≠ 63
  query_free : ∀ text ∈ query, ∀ c ∈ text, isSpace c = false
  version_ne : version ≠ []
  version_free : ∀ c ∈ version, isSpace c = false

namespace RouteLine

def target (line : RouteLine) : Bytes :=
  match line.query with
  | some text => line.path ++ 63 :: text
  | none => line.path

def text (line : RouteLine) : Bytes :=
  methodName line.method ++ 32 :: (line.target ++ 32 :: line.version)

theorem target_token (line : RouteLine) :
    line.target ≠ [] ∧ ∀ c ∈ line.target, isSpace c = false := by
  unfold target
  cases hquery : line.query with
  | none => exact ⟨line.path_ne, fun c hc => (line.path_free c hc).1⟩
  | some text =>
      refine ⟨by simp, ?_⟩
      intro c hc
      rcases List.mem_append.mp hc with hc | hc
      · exact (line.path_free c hc).1
      · rcases List.mem_cons.mp hc with rfl | hc
        · rfl
        · exact line.query_free text hquery c hc

theorem splitTarget_target (line : RouteLine) : (splitTarget line.target).1 = line.path := by
  have hpath : 63 ∉ line.path := fun hmem => (line.path_free 63 hmem).2 rfl
  unfold splitTarget target
  cases line.query with
  | none =>
      have hnone : line.path.idxOf? 63 = none := List.idxOf?_eq_none_iff.mpr hpath
      rw [hnone]
  | some text =>
      rw [idxOf?_append_cons hpath]
      exact List.take_left

/-- What the parser makes of the line. -/
theorem parseRequestLine_text (line : RouteLine) (context : HttpContext) :
    context.parseRequestLine line.text =
      (true, { context with request := context.request.readRequestLine line.text }) := by
  have haccepts := acceptsRequestLine_line (methodName_token line.method) line.target_token
    ⟨line.version_ne, line.version_free⟩
  rw [HttpContext.parseRequestLine_eq, text, if_pos haccepts]

theorem getPath_text (line : RouteLine) (request : HttpRequest) :
    (request.readRequestLine line.text).getPath = line.path := by
  have htokens := requestTokens_line (methodName_token line.method) line.target_token
    ⟨line.version_ne, line.version_free⟩
  rw [← line.splitTarget_target, HttpRequest.getPath, HttpRequest.readRequestLine, text,
    htokens]

theorem getMethod_text (line : RouteLine) (request : HttpRequest) :
    (request.readRequestLine line.text).getMethod =
      if line.method = .kHead then .kInvalid else line.method := by
  have htokens := requestTokens_line (methodName_token line.method) line.target_token
    ⟨line.version_ne, line.version_free⟩
  rw [← methodOf_methodName, HttpRequest.getMethod, HttpRequest.readRequestLine, text, htokens]

end RouteLine

namespace Router

variable {H : Type}

/-- The router calls this handler on the request, once, and nothing else. -/
def Invokes (router : Router H) (request : HttpRequest) (handler : H) : Prop :=
  ∀ (m : Type → Type) [Monad m] (call : H → HttpRequest → m Unit),
    router.route call request = do
      call handler request
      pure true

/-- No static route has the key yet. -/
def Free (router : Router H) (key : RouteKey) : Prop :=
  router.handlers.lookup key = none ∧ router.callbacks.lookup key = none

/-- A new static route gets the requests with its key. -/
theorem invokes_registered (router : Router H) {table : RouteTable}
    (hstatic : table.isDynamic = false) (request : HttpRequest) (handler : H)
    (hfree : router.Free ⟨request.getMethod, request.getPath⟩) :
    (router.register ⟨table, request.getMethod, request.getPath, handler⟩).Invokes
      request handler := by
  intro m _ call
  obtain ⟨hhandlers, hcallbacks⟩ := hfree
  cases table with
  | handlers => simp [route, register, registerHandler, lookup_emplace, hhandlers]
  | callbacks => simp [route, register, registerCallback, lookup_emplace, hhandlers, hcallbacks]
  | regexHandlers => exact absurd hstatic Bool.false_ne_true.symm
  | regexCallbacks => exact absurd hstatic Bool.false_ne_true.symm

/-- For requests with another method the router is as it was. -/
theorem invokes_registered_other (router : Router H) {table : RouteTable}
    (hstatic : table.isDynamic = false) {request : HttpRequest} {method : HttpRequestMethod}
    (hother : request.getMethod ≠ method) (path : Bytes) (handler : H) :
    (router.register ⟨table, method, path, handler⟩).Invokes request handler ↔
      router.Invokes request handler := by
  have hsame : ∀ (m : Type → Type) [Monad m] (call : H → HttpRequest → m Unit),
      (router.register ⟨table, method, path, handler⟩).route call request =
        router.route call request := by
    intro m _ call
    cases table with
    | handlers => simp [route, register, registerHandler, lookup_emplace, hother]
    | callbacks => simp [route, register, registerCallback, lookup_emplace, hother]
    | regexHandlers => exact absurd hstatic Bool.false_ne_true.symm
    | regexCallbacks => exact absurd hstatic Bool.false_ne_true.symm
  constructor
  · intro h m _ call
    exact (hsame m call).symm.trans (h m call)
  · intro h m _ call
    exact (hsame m call).trans (h m call)

/-- A static route is reached by the request line for it exactly if its method
is not `HEAD`, or its handler gets such requests already. -/
theorem invokes_parsed_iff (router : Router H) (line : RouteLine) (context : HttpContext)
    {table : RouteTable} (hstatic : table.isDynamic = false) (handler : H)
    (hfree : router.Free ⟨line.method, line.path⟩) :
    ((context.parseRequestLine line.text).1 = true ∧
        (router.register ⟨table, line.method, line.path, handler⟩).Invokes
          (context.parseRequestLine line.text).2.request handler) ↔
      line.method ≠ .kHead ∨
        router.Invokes (context.parseRequestLine line.text).2.request handler := by
  rw [line.parseRequestLine_text]
  have hpath := line.getPath_text context.request
  have hmethod := line.getMethod_text context.request
  by_cases hhead : line.method = .kHead
  · rw [if_pos hhead] at hmethod
    have hother : (context.request.readRequestLine line.text).getMethod ≠ line.method := by
      rw [hmethod]
      exact line.method_valid.symm
    rw [invokes_registered_other router hstatic hother]
    simp [hhead]
  · rw [if_neg hhead] at hmethod
    have hfree' : router.Free ⟨(context.request.readRequestLine line.text).getMethod,
        (context.request.readRequestLine line.text).getPath⟩ := by
      rwa [hmethod, hpath]
    have hinvokes := router.invokes_registered hstatic _ handler hfree'
    rw [hmethod, hpath] at hinvokes
    exact iff_of_true ⟨rfl, hinvokes⟩ (Or.inl hhead)

/-- A request line without a query. -/
def plainLine (method : HttpRequestMethod) (hmethod : method ≠ .kInvalid) : RouteLine where
  method := method
  path := ascii "/a"
  query := none
  version := ascii "HTTP/1.0"
  method_valid := hmethod
  path_ne := by decide +kernel
  path_free := by decide +kernel
  query_free := fun _ htext => absurd htext (by simp)
  version_ne := by decide +kernel
  version_free := by decide +kernel

theorem invokes_parsed_get :
    let line := plainLine .kGet (by decide)
    ((HttpContext.new 0).parseRequestLine line.text).1 = true ∧
      ((empty : Router Nat).register ⟨.handlers, .kGet, ascii "/a", 7⟩).Invokes
        ((HttpContext.new 0).parseRequestLine line.text).2.request 7 := by
  intro line
  exact (invokes_parsed_iff empty line (HttpContext.new 0) rfl 7 ⟨rfl, rfl⟩).mpr
    (Or.inl (by decide))

/-- No request reaches a route for `HEAD`. -/
theorem not_invokes_parsed_head :
    let line := plainLine .kHead (by decide)
    ¬ ((empty : Router Nat).register ⟨.handlers, .kHead, ascii "/a", 7⟩).Invokes
      ((HttpContext.new 0).parseRequestLine line.text).2.request 7 := by
  intro line h
  have hfound := congrArg Id.run (h Id fun _ _ => pure ())
  exact absurd hfound (by decide +kernel)

end Router

end CuteHttpServer
