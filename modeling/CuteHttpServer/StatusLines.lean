/-
Whether what is sent for a request begins with a status line, on each of the
ways through the default callback.
-/
import CuteHttpServer.CorsPolicy
import CuteHttpServer.RequestHandling

namespace CuteHttpServer

open ByteString DelimitedText KeyedMap

/-- A version, a code of three digits and a reason, with a space between each
of them and a line end after the last. -/
def BeginsWithStatusLine (data : Bytes) : Prop :=
  ∃ version code reason rest, IsHttpVersion version ∧
    code.length = 3 ∧ (∀ c ∈ code, isDigit c = true) ∧ CrlfFree reason ∧
    data = version ++ 32 :: (code ++ 32 :: (reason ++ CR :: LF :: rest))

/-- A text up to its first line end. -/
def firstLine (text : Bytes) : Bytes :=
  match findPair CR LF text with
  | some length => text.take length
  | none => text

theorem firstLine_spec (text rest : Bytes) :
    CrlfFree (firstLine text) ∧
      ∃ rest', text ++ CR :: LF :: rest = firstLine text ++ CR :: LF :: rest' := by
  unfold firstLine
  cases hfind : findPair CR LF text with
  | none => exact ⟨hfind, rest, rfl⟩
  | some length =>
      obtain ⟨line, later, rfl, rfl, hline⟩ := eq_append_of_findPair hfind
      simp only [List.take_left]
      exact ⟨hline, later ++ CR :: LF :: rest, by simp⟩

namespace HttpResponse

theorem decimal_toInt {code : HttpStatusCode} (h : code ≠ .kUnknown) :
    (decimal code.toInt).length = 3 ∧ ∀ c ∈ decimal code.toInt, isDigit c = true := by
  refine ⟨?_, fun c hc => isDigit_of_mem_decimal hc⟩
  cases code with
  | kUnknown => exact absurd rfl h
  | _ => decide +kernel

theorem length_of_isHttpVersion {version : Bytes} (h : IsHttpVersion version) :
    version.length = 8 := by
  obtain ⟨major, minor, _, _, rfl⟩ := h
  rfl

theorem zero_not_mem_version {version : Bytes} (h : IsHttpVersion version) :
    0 ∉ version := by
  obtain ⟨major, minor, hmajor, hminor, rfl⟩ := h
  have hname : (0 : Byte) ∉ ascii "HTTP/" := by decide +kernel
  have hdigit : ∀ c, isDigit c = true → (0 : Byte) ≠ c := by
    rintro c hc rfl
    exact absurd hc (by decide)
  simp [hname, hdigit major hmajor, hdigit minor hminor]

/-- The text of a response up to its first line end, and what comes then. -/
theorem exists_getResponse_eq (order : IterationOrder Bytes Bytes)
    (response : HttpResponse) :
    ∃ rest, response.getResponse order =
      response.httpVersion ++ 32 :: (decimal response.statusCode.toInt ++
        32 :: (firstLine response.statusMessage ++ CR :: LF :: rest)) := by
  obtain ⟨rest, hrest⟩ := (firstLine_spec response.statusMessage
    (withCrlf ((response.writtenFields order).map fieldLine) ++
      CR :: LF :: response.responseBody)).2
  refine ⟨rest, ?_⟩
  rw [← hrest, getResponse_eq, headLines, withCrlf, joinLines_cons, statusLine]
  simp

/-- A line that is cut does not get to a line end. -/
theorem takeWhile_cut {line reason rest later : Bytes} (hline : CrlfFree line)
    (hreason : CrlfFree reason) (hzero : 0 ∈ line) :
    (line ++ rest).takeWhile (· ≠ 0) ≠ reason ++ CR :: LF :: later := by
  have hcut := takeWhile_ne_append_of_mem hzero rest
  intro hsame
  have hfree := pairFree_of_prefix
    (List.takeWhile_prefix fun c : Byte => decide (c ≠ 0)) hline
  rw [← hcut, hsame, PairFree, findPair_append_pair CR_ne_LF hreason] at hfree
  exact absurd hfree (Option.some_ne_none _)

/-- With a version and a code, what arrives begins with a status line exactly if
the reason is not cut off at a zero byte. -/
theorem beginsWithStatusLine_iff (order : IterationOrder Bytes Bytes)
    {response : HttpResponse} (hversion : IsHttpVersion response.httpVersion)
    (hcode : response.statusCode ≠ .kUnknown) :
    BeginsWithStatusLine ((response.getResponse order).takeWhile (· ≠ 0)) ↔
      0 ∉ firstLine response.statusMessage := by
  obtain ⟨rest, htext⟩ := exists_getResponse_eq order response
  obtain ⟨hlength, hdigits⟩ := decimal_toInt hcode
  have hdecimal : 0 ∉ decimal response.statusCode.toInt :=
    fun hzero => absurd (hdigits 0 hzero) (by decide)
  have hline := (firstLine_spec response.statusMessage []).1
  rw [htext, takeWhile_ne_append_of_not_mem (zero_not_mem_version hversion),
    List.takeWhile_cons_of_pos (by decide), takeWhile_ne_append_of_not_mem hdecimal,
    List.takeWhile_cons_of_pos (by decide)]
  constructor
  · rintro ⟨version, code, reason, later, hversion', hcode', _, hreason, hdata⟩ hzero
    have hsame := (length_of_isHttpVersion hversion).trans
      (length_of_isHttpVersion hversion').symm
    obtain ⟨_, hdata⟩ := List.append_inj hdata hsame
    obtain ⟨_, hdata⟩ := List.append_inj (List.cons.inj hdata).2 (hlength.trans hcode'.symm)
    exact takeWhile_cut hline hreason hzero (List.cons.inj hdata).2
  · intro hzero
    refine ⟨_, _, firstLine response.statusMessage, rest.takeWhile (· ≠ 0), hversion,
      hlength, hdigits, hline, ?_⟩
    rw [takeWhile_ne_append_of_not_mem hzero, List.takeWhile_cons_of_pos (by decide),
      List.takeWhile_cons_of_pos (by decide)]

/-- Without a version nothing of the kind arrives. -/
theorem not_beginsWithStatusLine (order : IterationOrder Bytes Bytes)
    {response : HttpResponse} (h : response.httpVersion = []) :
    ¬ BeginsWithStatusLine ((response.getResponse order).takeWhile (· ≠ 0)) := by
  obtain ⟨rest, htext⟩ := exists_getResponse_eq order response
  rintro ⟨version, code, reason, later, ⟨major, minor, _, _, rfl⟩, _, _, _, hdata⟩
  rw [htext, h, List.nil_append, List.takeWhile_cons_of_pos (by decide)] at hdata
  exact absurd (List.cons.inj hdata).1 (by decide)

end HttpResponse

/-- The response that a handler leaves behind; one that it throws takes the
place of the one it was given. -/
def RequestHandler.leaves {σ : Type} (handler : RequestHandler σ) (request : HttpRequest)
    (memory : HandlerMemory σ) : HttpResponse :=
  match handler.handle request memory with
  | .ok _ memory => memory.response
  | .error (.exception _) memory => memory.response
  | .error (.response response) _ => response

/-- Whenever the handler returns or throws, it has set a version and a code. -/
def RequestHandler.SetsStatus {σ : Type} (handler : RequestHandler σ) : Prop :=
  ∀ request memory, IsHttpVersion (handler.leaves request memory).httpVersion ∧
    (handler.leaves request memory).statusCode ≠ .kUnknown

/-- All bytes that a dispatch sends. -/
def Dispatch.sentBytes {σ : Type} (dispatch : Dispatch σ) : Bytes :=
  dispatch.events.flatMap fun event =>
    match event with
    | .sent data => data
    | _ => []

namespace CorsMiddleware

variable {σ : Type}

/-- A request that is no preflight passes through the chain. -/
theorem processRequest_passes {configs : List CorsConfig} {request : HttpRequest}
    (h : configs = [] ∨ request.getMethod ≠ .kOptions) (memory : HandlerMemory σ) :
    MiddlewareChain.processRequest (configs.map new) request memory = .ok request memory := by
  induction configs with
  | nil => rfl
  | cons config configs ih =>
      have hmethod : request.getMethod ≠ .kOptions := by simpa using h
      have hfirst : (new config : Middleware σ).handleRequest request memory =
          .ok request memory := by
        have hpassed : handleRequest config request = (pure request : Handling σ HttpRequest) :=
          if_neg hmethod
        exact congrFun hpassed memory
      rw [List.map_cons, MiddlewareChain.processRequest]
      simp only [bind, EStateM.bind, hfirst]
      exact ih (Or.inr hmethod)

/-- A preflight is answered by the first middleware. -/
theorem processRequest_preflight (config : CorsConfig) (configs : List CorsConfig)
    {request : HttpRequest} (h : request.getMethod = .kOptions) (memory : HandlerMemory σ) :
    MiddlewareChain.processRequest ((config :: configs).map new) request memory =
      .error (.response (preflightResponse config request)) memory := by
  have hfirst : (new config : Middleware σ).handleRequest request memory =
      .error (.response (preflightResponse config request)) memory := by
    have hthrown : handleRequest config request =
        (throw (.response (preflightResponse config request)) : Handling σ HttpRequest) :=
      if_pos h
    exact congrFun hthrown memory
  rw [List.map_cons, MiddlewareChain.processRequest]
  simp only [bind, EStateM.bind, hfirst]

theorem corsResponse_eq (config : CorsConfig) (response : HttpResponse) :
    ∃ headers, corsResponse config response =
      { response with responseHeaders := headers } := by
  unfold corsResponse
  cases config.allowedOrigins with
  | nil => exact ⟨response.responseHeaders, rfl⟩
  | cons first rest =>
      simp only [addCorsHeaders_eq]
      split
      · exact ⟨_, rfl⟩
      · exact ⟨_, rfl⟩

/-- After the handlers the chain changes headers only. -/
theorem handleResponses_cors (configs : List CorsConfig) (memory : HandlerMemory σ) :
    ∃ headers, MiddlewareChain.handleResponses (configs.map new) memory =
      .ok () ⟨memory.handlers, { memory.response with responseHeaders := headers }⟩ := by
  induction configs generalizing memory with
  | nil => exact ⟨memory.response.responseHeaders, rfl⟩
  | cons config configs ih =>
      obtain ⟨headers, hfirst⟩ := corsResponse_eq config memory.response
      obtain ⟨headers', hlater⟩ :=
        ih ⟨memory.handlers, { memory.response with responseHeaders := headers }⟩
      refine ⟨headers', ?_⟩
      have hchange : (new config : Middleware σ).handleResponse memory =
          .ok () ⟨memory.handlers, { memory.response with responseHeaders := headers }⟩ := by
        rw [← hfirst]
        rfl
      rw [List.map_cons, MiddlewareChain.handleResponses]
      simp only [bind, EStateM.bind, hchange]
      exact hlater

theorem processResponse_cors (configs : List CorsConfig) (memory : HandlerMemory σ) :
    ∃ headers, MiddlewareChain.processResponse (configs.map new) memory =
      .ok () ⟨memory.handlers, { memory.response with responseHeaders := headers }⟩ := by
  obtain ⟨headers, hchain⟩ := handleResponses_cors configs.reverse memory
  refine ⟨headers, ?_⟩
  rw [MiddlewareChain.processResponse, ← List.map_reverse, hchain]

end CorsMiddleware

namespace HttpServer

open CorsMiddleware Registration

variable {σ : Type} (configs : List CorsConfig)
  (registrations : List (Registration (RequestHandler σ)))

/-- The response that `HandleRequest` makes behind a chain of cross-origin
middlewares. -/
def answer (handlers : σ) (request : HttpRequest) (response : HttpResponse) :
    HttpResponse :=
  (handleRequest (configs.map CorsMiddleware.new) (Router.ofRegistrations registrations)
    handlers request response).response

theorem answer_preflight (config : CorsConfig) {request : HttpRequest}
    (h : request.getMethod = .kOptions) (handlers : σ) (response : HttpResponse) :
    answer (config :: configs) registrations handlers request response =
      preflightResponse config request := by
  have hstopped := processRequest_preflight config configs h ⟨handlers, response⟩
  rw [answer, handleRequest, tryHandleRequest_stopped hstopped]

/-- The response is all that is sent, as far as `c_str()` shows it. -/
theorem sentBytes_onRequest {B : Type} [Buffer B] (order : IterationOrder Bytes Bytes)
    (handlers : σ) (request : HttpRequest) :
    ((withDefaultCallback (configs.map CorsMiddleware.new)
      (Router.ofRegistrations registrations) order).onRequest B handlers
        request).sentBytes =
      ((answer configs registrations handlers request
        (HttpResponse.new (closesByDefault request))).getResponse order).takeWhile (· ≠ 0) := by
  rw [onRequest_returned _ (handleRequest_thrown _ _ _ _ _), Dispatch.sentBytes]
  simp only [List.flatMap_cons, List.nil_append]
  split
  · exact List.append_nil _
  · exact List.append_nil _

section Passes

variable {configs registrations} {request : HttpRequest}
  (hpasses : configs = [] ∨ request.getMethod ≠ .kOptions) (handlers : σ)
  (response : HttpResponse)
include hpasses

/-- No route takes the request: there is still no version. -/
theorem answer_notFound (hnone : chosen registrations request = none) :
    (answer configs registrations handlers request response).httpVersion =
      response.httpVersion := by
  have htried := tryHandleRequest_notFound (processRequest_passes hpasses ⟨handlers, response⟩)
    (route_notChosen hnone ⟨handlers, response⟩)
  obtain ⟨headers, hchain⟩ :=
    processResponse_cors configs ⟨handlers, notFoundResponse response⟩
  rw [answer, handleRequest, htried, hchain]
  rfl

/-- Version, message and code are the handler's, unless an exception has put
another code there. -/
theorem answer_handled {registration : Registration (RequestHandler σ)}
    (hchosen : chosen registrations request = some registration) :
    let left := registration.handler.leaves (registration.requestFor request)
      ⟨handlers, response⟩
    let final := answer configs registrations handlers request response
    final.httpVersion = left.httpVersion ∧ final.statusMessage = left.statusMessage ∧
      (final.statusCode = left.statusCode ∨ final.statusCode = .k500InternalServerError) := by
  intro left final
  have hroute := route_chosen hchosen ⟨handlers, response⟩
  have hpassed := processRequest_passes hpasses ⟨handlers, response⟩
  cases hresult : registration.handler.handle (registration.requestFor request)
      ⟨handlers, response⟩ with
  | ok _ memory =>
      rw [hresult] at hroute
      have htried := tryHandleRequest_handled hpassed hroute
      obtain ⟨headers, hchain⟩ := processResponse_cors configs memory
      have hleft : left = memory.response := by
        simp only [left, RequestHandler.leaves, hresult]
      have hfinal : final = { memory.response with responseHeaders := headers } := by
        simp only [final, answer, handleRequest, htried, hchain]
      rw [hfinal, hleft]
      exact ⟨rfl, rfl, Or.inl rfl⟩
  | error thrown memory =>
      rw [hresult] at hroute
      have htried := tryHandleRequest_threw hpassed hroute
      cases thrown with
      | exception e =>
          have hleft : left = memory.response := by
            simp only [left, RequestHandler.leaves, hresult]
          have hfinal : final = serverErrorResponse memory.response e := by
            simp only [final, answer, handleRequest, htried]
          rw [hfinal, hleft]
          exact ⟨rfl, rfl, Or.inr rfl⟩
      | response thrown =>
          have hleft : left = thrown := by
            simp only [left, RequestHandler.leaves, hresult]
          have hfinal : final = thrown := by
            simp only [final, answer, handleRequest, htried]
          rw [hfinal, hleft]
          exact ⟨rfl, rfl, Or.inl rfl⟩

end Passes

/-- What is sent begins with a status line exactly for a request that gets to a
handler whose reason is not cut off. -/
theorem onRequest_statusLine_iff {B : Type} [Buffer B]
    (hsets : ∀ registration ∈ registrations, registration.handler.SetsStatus)
    (order : IterationOrder Bytes Bytes) (handlers : σ) (request : HttpRequest) :
    BeginsWithStatusLine ((withDefaultCallback (configs.map CorsMiddleware.new)
        (Router.ofRegistrations registrations) order).onRequest B handlers
          request).sentBytes ↔
      (configs = [] ∨ request.getMethod ≠ .kOptions) ∧
        ∃ registration, chosen registrations request = some registration ∧
          0 ∉ firstLine (registration.handler.leaves (registration.requestFor request)
            ⟨handlers, HttpResponse.new (closesByDefault request)⟩).statusMessage := by
  rw [sentBytes_onRequest]
  by_cases hpasses : configs = [] ∨ request.getMethod ≠ .kOptions
  · cases hchosen : chosen registrations request with
    | none =>
        have hversion := answer_notFound hpasses handlers
          (HttpResponse.new (closesByDefault request)) hchosen
        refine iff_of_false (HttpResponse.not_beginsWithStatusLine order hversion) ?_
        rintro ⟨_, registration, hsome, _⟩
        exact absurd hsome.symm (Option.some_ne_none registration)
    | some registration =>
        obtain ⟨hversion, hmessage, hcode⟩ := answer_handled hpasses handlers
          (HttpResponse.new (closesByDefault request)) hchosen
        obtain ⟨hsetVersion, hsetCode⟩ := hsets registration (of_chosen hchosen).1
          (registration.requestFor request)
          ⟨handlers, HttpResponse.new (closesByDefault request)⟩
        have hknown : (answer configs registrations handlers request
            (HttpResponse.new (closesByDefault request))).statusCode ≠ .kUnknown := by
          rcases hcode with hcode | hcode
          · exact hcode ▸ hsetCode
          · exact hcode ▸ by decide
        rw [HttpResponse.beginsWithStatusLine_iff order (hversion ▸ hsetVersion) hknown,
          hmessage]
        constructor
        · exact fun hzero => ⟨hpasses, registration, rfl, hzero⟩
        · rintro ⟨_, other, hsame, hzero⟩
          rwa [← Option.some.inj hsame] at hzero
  · refine iff_of_false ?_ fun h => hpasses h.1
    cases configs with
    | nil => exact absurd (Or.inl rfl) hpasses
    | cons config configs =>
        have hmethod : request.getMethod = .kOptions := by simpa using hpasses
        rw [answer_preflight configs registrations config hmethod]
        apply HttpResponse.not_beginsWithStatusLine
        obtain ⟨code, hresponse⟩ := preflightResponse_eq config request
        rw [hresponse]
        rfl

/-- A handler that answers with a version, a code and a reason. -/
def helloHandler : RequestHandler Unit := fun _ =>
  changeResponse fun response =>
    ((response.setVersion (ascii "HTTP/1.1")).setStatusCode .k200Ok).setStatusMessage
      (ascii "OK")

/-- One that does so and then fails. -/
def failingHandler : RequestHandler Unit := fun request => do
  helloHandler request
  throw (.exception ⟨ascii "no"⟩)

def helloRoutes : List (Registration (RequestHandler Unit)) :=
  [⟨.handlers, .kGet, ascii "/hello", helloHandler⟩,
    ⟨.callbacks, .kPost, ascii "/fail", failingHandler⟩]

theorem setsStatus_helloRoutes :
    ∀ registration ∈ helloRoutes, registration.handler.SetsStatus := by
  have hversion : IsHttpVersion (ascii "HTTP/1.1") :=
    ⟨49, 49, by decide, by decide, by decide +kernel⟩
  have hcode : HttpStatusCode.k200Ok ≠ .kUnknown := by decide
  refine List.forall_mem_cons.mpr ⟨?_, List.forall_mem_singleton.mpr ?_⟩
  · exact fun request memory => ⟨hversion, hcode⟩
  · exact fun request memory => ⟨hversion, hcode⟩

theorem onRequest_statusLine_failing :
    BeginsWithStatusLine ((withDefaultCallback
      ([CorsConfig.defaultConfig].map CorsMiddleware.new)
      (Router.ofRegistrations helloRoutes) .byEntry).onRequest Bytes ()
        (plainRequest .kPost (ascii "/fail"))).sentBytes :=
  (onRequest_statusLine_iff [CorsConfig.defaultConfig] helloRoutes setsStatus_helloRoutes
    .byEntry () (plainRequest .kPost (ascii "/fail"))).mpr
    ⟨by decide, ⟨.callbacks, .kPost, ascii "/fail", failingHandler⟩, rfl,
      by decide +kernel⟩

/-- A request for a path that is not registered is answered without a version. -/
theorem not_onRequest_statusLine_notFound :
    ¬ ∀ (configs : List CorsConfig) (registrations : List (Registration (RequestHandler Unit))),
      (∀ registration ∈ registrations, registration.handler.SetsStatus) →
        ∀ request : HttpRequest, BeginsWithStatusLine ((withDefaultCallback
          (configs.map CorsMiddleware.new) (Router.ofRegistrations registrations)
            .byEntry).onRequest Bytes () request).sentBytes := by
  intro h
  obtain ⟨version, code, reason, rest, ⟨major, minor, _, _, rfl⟩, _, _, _, hdata⟩ :=
    h [] [] (by simp) (plainRequest .kGet (ascii "/missing"))
  have hhead : ((withDefaultCallback (([] : List CorsConfig).map CorsMiddleware.new)
      (Router.ofRegistrations []) .byEntry).onRequest Bytes ()
        (plainRequest .kGet (ascii "/missing"))).sentBytes.head? = some 32 := by
    decide +kernel
  rw [hdata] at hhead
  exact absurd (Option.some.inj hhead) (by decide)

end HttpServer

end CuteHttpServer
