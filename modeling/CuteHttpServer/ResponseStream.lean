/-
The responses of one connection as a client reads them: one behind the other,
each as long as its `Content-Length` says.
-/
import CuteHttpServer.RequestOrder
import CuteHttpServer.ResponseSetters
import CuteHttpServer.HandlingRules
import CuteHttpServer.CorsPolicy

namespace CuteHttpServer

open ByteString DelimitedText KeyedMap StepRun

/-- The head of the next response of a stream, and what is behind it. -/
def decodeHead (text : Bytes) : Option (DecodedResponse × Bytes) :=
  match splitHead CR LF true text with
  | some (first :: rest, after) =>
      match decodeStatusLine first, rest.mapM decodeField with
      | some (version, code, message), some fields =>
          some (⟨version, code, message, fields, []⟩, after)
      | _, _ => none
  | _ => none

/-- A head with a body of so many bytes. -/
def decodeBody (head : DecodedResponse) (length : Nat) (after : Bytes) :
    Option (DecodedResponse × Bytes) :=
  if length ≤ after.length then some ({ head with body := after.take length }, after.drop length)
  else none

/-- The next response of a stream; where no length is announced, it has no body. -/
def decodeNext (text : Bytes) : Option (DecodedResponse × Bytes) :=
  (decodeHead text).bind fun (head, after) =>
    decodeBody head (digitsValue ((fieldValue head.fields contentLengthName).getD [])) after

theorem decodeBody_append (head : DecodedResponse) (body rest : Bytes) :
    decodeBody head body.length (body ++ rest) = some ({ head with body := body }, rest) := by
  rw [decodeBody, List.length_append, if_pos (Nat.le_add_right _ _), List.take_left,
    List.drop_left]

namespace HttpResponse

/-- A response that can be told from what follows it: its head can be read, its
body is sent whole, and its length is announced if it has one. -/
structure Framed (response : HttpResponse) : Prop extends response.Decodable where
  whole : 0 ∉ response.responseBody
  announced : response.responseHeaders.lookup contentLengthName =
      some (decimal response.responseBody.length) ∨
    response.responseHeaders.lookup contentLengthName = none ∧ response.responseBody = []

def decoded (order : IterationOrder Bytes Bytes) (response : HttpResponse) :
    DecodedResponse where
  version := response.httpVersion
  statusCode := response.statusCode.toInt
  statusMessage := response.statusMessage
  fields := response.writtenFields order
  body := response.responseBody

/-- What is sent of it, as a head and a body. -/
theorem Framed.decodeHead_sent (order : IterationOrder Bytes Bytes) {response : HttpResponse}
    (h : response.Framed) (rest : Bytes) :
    decodeHead (response.sent order ++ rest) =
      some ({ response.decoded order with body := [] }, response.responseBody ++ rest) := by
  have hbody : response.responseBody.takeWhile (· ≠ 0) = response.responseBody :=
    takeWhile_ne_self h.whole
  have hhead := splitHead_joinLines CR_ne_LF (headLines_free order h.toHeadClean.headFree)
    (response.responseBody ++ rest)
  rw [h.toHeadClean.sent_eq order, hbody, List.append_assoc, List.cons_append, List.cons_append,
    decodeHead, withCrlf, hhead]
  simp only [headLines, decodeStatusLine_statusLine h.version_noSpace,
    mapM_decodeField (h.toDecodable.colonFree order)]
  rfl

theorem fieldValue_contentLength (order : IterationOrder Bytes Bytes) (response : HttpResponse) :
    fieldValue (response.writtenFields order) contentLengthName =
      response.responseHeaders.lookup contentLengthName := by
  have hother : contentLengthName ≠ connectionName := by decide +kernel
  rw [fieldValue_written, if_neg hother, Option.or_none]

theorem Framed.decodeNext_sent (order : IterationOrder Bytes Bytes) {response : HttpResponse}
    (h : response.Framed) (rest : Bytes) :
    decodeNext (response.sent order ++ rest) = some (response.decoded order, rest) := by
  have hlength : digitsValue
      ((fieldValue (response.writtenFields order) contentLengthName).getD []) =
        response.responseBody.length := by
    rw [fieldValue_contentLength]
    rcases h.announced with hlength | ⟨hnone, hempty⟩
    · rw [hlength, Option.getD_some, digitsValue_decimal]
    · rw [hnone, hempty]
      rfl
  rw [decodeNext, h.decodeHead_sent order rest, Option.bind_some]
  exact (congrArg (decodeBody _ · _) hlength).trans (decodeBody_append _ _ rest)

theorem Framed.new (close : Bool) : (new close).Framed where
  toDecodable := decodable_new close
  whole := List.not_mem_nil
  announced := Or.inr ⟨rfl, rfl⟩

theorem Framed.setStatusCode {response : HttpResponse} (h : response.Framed)
    (code : HttpStatusCode) : (response.setStatusCode code).Framed :=
  { h with }

theorem Framed.setCloseConnection {response : HttpResponse} (h : response.Framed)
    (close : Bool) : (response.setCloseConnection close).Framed :=
  { h with }

theorem Framed.addHeader {response : HttpResponse} (h : response.Framed)
    {key value : Bytes} (hlength : key ≠ contentLengthName) (hkey : HeadText key)
    (hvalue : HeadText value) (hcolon : 58 ∉ key) : (response.addHeader key value).Framed where
  toDecodable := h.toDecodable.addHeader hkey hvalue hcolon
  whole := h.whole
  announced := by
    have hsame : (response.addHeader key value).responseHeaders.lookup contentLengthName =
        response.responseHeaders.lookup contentLengthName := by
      rw [HttpResponse.addHeader, lookup_emplace, if_neg hlength.symm, Option.or_none]
    rw [hsame]
    exact h.announced

theorem Framed.addHeaders {fields : List (Bytes × Bytes)} {response : HttpResponse}
    (h : response.Framed) (hfields : ∀ field ∈ fields, field.1 ≠ contentLengthName ∧
      HeadText field.1 ∧ HeadText field.2 ∧ 58 ∉ field.1) :
    Framed { response with
      responseHeaders := emplaceAll response.responseHeaders fields } := by
  induction fields generalizing response with
  | nil => exact h
  | cons field rest ih =>
      obtain ⟨⟨hlength, hkey, hvalue, hcolon⟩, hrest⟩ := List.forall_mem_cons.mp hfields
      exact ih (h.addHeader hlength hkey hvalue hcolon) hrest

theorem Framed.setContentType {response : HttpResponse} (h : response.Framed)
    {type : Bytes} (htype : HeadText type) : (response.setContentType type).Framed where
  toDecodable := h.toDecodable.assign (by decide +kernel) htype (by decide +kernel)
  whole := h.whole
  announced := by
    have hother : contentLengthName ≠ ascii "Content-Type" := by decide +kernel
    have hsame : (response.setContentType type).responseHeaders.lookup contentLengthName =
        response.responseHeaders.lookup contentLengthName := by
      rw [HttpResponse.setContentType, lookup_assign, if_neg hother]
    rw [hsame]
    exact h.announced

/-- The length is announced with the body, whatever was announced before. -/
theorem Decodable.setResponseBody {response : HttpResponse} (h : response.Decodable)
    {body : Bytes} (hzero : 0 ∉ body) (hbody : body.length < UInt64.size) :
    (response.setResponseBody body).Framed where
  toDecodable := @Decodable.apply _ h (.setter (.setResponseBody body)) hbody
  whole := hzero
  announced := Or.inl (announces_setResponseBody response hbody).2

end HttpResponse

/-- The setter calls that keep a response so: its length is left to
`SetResponseBody`, and the body has no zero byte. -/
def SetterCall.Framing : SetterCall → Prop
  | addHeader key value =>
      key ≠ contentLengthName ∧ (PublicCall.setter (addHeader key value)).Decodable
  | setResponseBody body => 0 ∉ body ∧ body.length < UInt64.size
  | call => (PublicCall.setter call).Decodable

theorem HttpResponse.Framed.apply {response : HttpResponse} (h : response.Framed)
    {call : SetterCall} (hcall : call.Framing) : (call.apply response).Framed := by
  cases call with
  | addHeader key value =>
      obtain ⟨hlength, ⟨hkey, hvalue⟩, hcolon⟩ := hcall
      exact h.addHeader hlength hkey hvalue hcolon
  | setContentType type => exact h.setContentType hcall
  | setStatusCode code => exact h.setStatusCode code
  | setStatusMessage message => exact { h with message := hcall }
  | setVersion version => exact { h with version := hcall.1, version_noSpace := hcall.2 }
  | setCloseConnection close => exact h.setCloseConnection close
  | setResponseBody body => exact h.toDecodable.setResponseBody hcall.1 hcall.2

theorem HttpResponse.Framed.calls {response : HttpResponse} (h : response.Framed)
    {calls : List SetterCall} (hcalls : ∀ call ∈ calls, call.Framing) :
    (calls.foldl SetterCall.apply response).Framed := by
  apply List.foldlRecOn calls SetterCall.apply h
  exact fun _ hresponse call hcall => hresponse.apply (hcalls call hcall)

/-- What a client reads of a refusal. -/
def refusedAnswer : DecodedResponse where
  version := ascii "HTTP/1.1"
  statusCode := 400
  statusMessage := ascii "Bad Request"
  fields := []
  body := []

theorem decodeHead_badRequest (rest : Bytes) :
    decodeHead (badRequest ++ rest) = some (refusedAnswer, rest) := by
  let line := ascii "HTTP/1.1 400 Bad Request"
  have htext : badRequest ++ rest = withCrlf [line] ++ CR :: LF :: rest := by
    have hbad : badRequest = withCrlf [line] ++ [CR, LF] := by decide +kernel
    rw [hbad, List.append_assoc]
    rfl
  have hline : ∀ other ∈ [line], other ≠ [] ∧ PairFree CR LF other := by
    refine List.forall_mem_singleton.mpr ⟨by decide +kernel, ?_⟩
    exact pairFree_of_not_mem (by decide +kernel)
  have hhead := splitHead_joinLines CR_ne_LF hline rest
  have hstatus : decodeStatusLine line =
      some (ascii "HTTP/1.1", 400, ascii "Bad Request") := by decide +kernel
  rw [htext, withCrlf, decodeHead, hhead]
  simp [hstatus, refusedAnswer]

theorem decodeNext_badRequest (rest : Bytes) :
    decodeNext (badRequest ++ rest) = some (refusedAnswer, rest) := by
  rw [decodeNext, decodeHead_badRequest, Option.bind_some]
  exact decodeBody_append refusedAnswer [] rest

def Event.sentText : Event → Option Bytes
  | .sent text => some text
  | _ => none

/-- The texts that are sent, in order. -/
def sentTexts (events : List Event) : List Bytes :=
  events.filterMap Event.sentText

/-- A call sends one text, and the client reads it, whatever comes behind. -/
def ReadsAs (call : List Event) (answer : DecodedResponse) : Prop :=
  ∃ text, sentTexts call = [text] ∧ ∀ rest, decodeNext (text ++ rest) = some (answer, rest)

theorem sentTexts_append (events more : List Event) :
    sentTexts (events ++ more) = sentTexts events ++ sentTexts more :=
  List.filterMap_append

/-- Calls that the client reads send one text each. -/
theorem exists_texts {calls : List (List Event)} {answers : List DecodedResponse}
    (h : List.Forall₂ ReadsAs calls answers) :
    ∃ texts, sentTexts calls.flatten = texts ∧ texts.length = calls.length ∧
      List.Forall₂ (fun text answer => ∀ rest, decodeNext (text ++ rest) = some (answer, rest))
        texts answers := by
  induction h with
  | nil => exact ⟨[], rfl, rfl, .nil⟩
  | cons hfirst _ ih =>
      obtain ⟨text, htext, hread⟩ := hfirst
      obtain ⟨texts, htexts, hlength, hreads⟩ := ih
      refine ⟨text :: texts, ?_, congrArg (· + 1) hlength, .cons hread hreads⟩
      rw [List.flatten_cons, sentTexts_append, htext, htexts, List.singleton_append]

theorem readMany_sentTexts {calls : List (List Event)} {answers : List DecodedResponse}
    (h : List.Forall₂ ReadsAs calls answers) :
    readMany decodeNext calls.length (sentTexts calls.flatten).flatten = some (answers, []) := by
  obtain ⟨texts, htexts, hlength, hreads⟩ := exists_texts h
  have hall := readMany_flatten hreads []
  rwa [hlength, ← htexts, List.append_nil] at hall

namespace HttpServer

variable {σ B : Type} [Buffer B] (server : HttpServer σ)

/-- Where the callback returns on this request, its response can be told from
what follows. -/
def AnswersFramed (handlers : σ) (request : HttpRequest) : Prop :=
  let called := server.httpCallback handlers request
    (HttpResponse.new (closesByDefault request))
  called.thrown = none → called.response.Framed

/-- What the client is to read for one call of `OnMessage`: the response of the
callback, if it has been called and has returned. -/
def answered (state : ServerState σ B) (arrival : Arrival) : DecodedResponse :=
  let parsed := state.connection.parse arrival
  if parsed.2 = .returned true then
    let request := parsed.1.context.getRequest
    let called := server.httpCallback state.handlers request
      (HttpResponse.new (closesByDefault request))
    if called.thrown = none then called.response.decoded server.headerOrder else refusedAnswer
  else refusedAnswer

/-- The server with what the client is to read in place of what is seen of it. -/
def answering (state : ServerState σ B) (arrival : Arrival) :
    ServerState σ B × DecodedResponse :=
  ((server.onMessage state arrival).1, server.answered state arrival)

variable {server} {state : ServerState σ B} {arrival : Arrival}

theorem answered_not_true (h : (state.connection.parse arrival).2 ≠ .returned true) :
    server.answered state arrival = refusedAnswer :=
  if_neg h

theorem answered_true (h : (state.connection.parse arrival).2 = .returned true) :
    let request := (state.connection.parse arrival).1.context.getRequest
    let called := server.httpCallback state.handlers request
      (HttpResponse.new (closesByDefault request))
    server.answered state arrival =
      if called.thrown = none then called.response.decoded server.headerOrder
      else refusedAnswer :=
  if_pos h

omit [Buffer B] in
theorem sentTexts_completedIn (request : HttpRequest) (events : List Event) :
    sentTexts (completedIn state request ++ events) = sentTexts events := by
  unfold completedIn
  split
  · rfl
  · rfl

/-- What a call sends, where the parser does not return `true`. -/
theorem sentTexts_not_true (h : (state.connection.parse arrival).2 ≠ .returned true) :
    sentTexts (server.onMessage state arrival).2 = [badRequest] := by
  cases houtcome : (state.connection.parse arrival).2 with
  | threw e =>
      rw [server.onMessage_threw houtcome]
      rfl
  | returned ok =>
      cases ok with
      | true => exact absurd houtcome h
      | false =>
          rw [server.onMessage_false houtcome]
          rfl

/-- What it sends where it does. -/
theorem sentTexts_true (h : (state.connection.parse arrival).2 = .returned true) :
    let request := (state.connection.parse arrival).1.context.getRequest
    let called := server.httpCallback state.handlers request
      (HttpResponse.new (closesByDefault request))
    sentTexts (server.onMessage state arrival).2 =
      if called.thrown = none then [called.response.sent server.headerOrder]
      else [badRequest] := by
  intro request called
  cases hthrown : called.thrown with
  | some e =>
      have hdispatch := server.onRequest_threw (B := B) hthrown
      have hmessage := server.onMessage_true_threw h (by rw [hdispatch])
      rw [hmessage, hdispatch, List.append_assoc, sentTexts_completedIn,
        if_neg (Option.some_ne_none e)]
      rfl
  | none =>
      have hdispatch := server.onRequest_returned (B := B) hthrown
      have hmessage := server.onMessage_true_returned h (by rw [hdispatch])
      rw [hmessage, hdispatch, sentTexts_completedIn, if_pos rfl]
      show sentTexts (_ :: _ :: if called.response.isCloseConnection then _ else _) = _
      split
      · rfl
      · rfl

/-- Each call sends what the client is to read. -/
theorem onMessage_reads
    (hframed : ∀ request ∈ invocations (server.onMessage state arrival).2,
      server.AnswersFramed state.handlers request) :
    ReadsAs (server.onMessage state arrival).2 (server.answered state arrival) := by
  by_cases htrue : (state.connection.parse arrival).2 = .returned true
  · rw [server.invocations_onMessage state arrival htrue, List.forall_mem_singleton] at hframed
    rw [ReadsAs, sentTexts_true htrue, answered_true htrue]
    split
    · rename_i hthrown
      exact ⟨_, rfl, (hframed hthrown).decodeNext_sent server.headerOrder⟩
    · exact ⟨_, rfl, decodeNext_badRequest⟩
  · rw [ReadsAs, sentTexts_not_true htrue, answered_not_true htrue]
    exact ⟨_, rfl, decodeNext_badRequest⟩

theorem run_reads (server : HttpServer σ) (arrivals : List Arrival) :
    ∀ state : ServerState σ B,
      (∀ request ∈ invocations (runFrom server.onMessage state arrivals).2.flatten,
        ∀ handlers, server.AnswersFramed handlers request) →
      List.Forall₂ ReadsAs (runFrom server.onMessage state arrivals).2
        (runFrom server.answering state arrivals).2 := by
  induction arrivals with
  | nil => exact fun state _ => .nil
  | cons arrival rest ih =>
      intro state hframed
      rw [runFrom_cons, List.flatten_cons, invocations_append] at hframed
      have hfirst := onMessage_reads fun request hrequest =>
        hframed request (List.mem_append_left _ hrequest) state.handlers
      have hrest := ih (server.onMessage state arrival).1
        fun request hrequest => hframed request (List.mem_append_right _ hrequest)
      exact .cons hfirst hrest

def greetingCalls : List SetterCall :=
  [.setVersion (ascii "HTTP/1.1"), .setStatusCode .k200Ok, .setStatusMessage (ascii "OK"),
    .setResponseBody (ascii "hello")]

theorem framing_greetingCalls : ∀ call ∈ greetingCalls, call.Framing := by
  have hversion : HeadText (ascii "HTTP/1.1") ∧ 32 ∉ ascii "HTTP/1.1" := by decide +kernel
  have hmessage : HeadText (ascii "OK") := by decide +kernel
  have hbody : 0 ∉ ascii "hello" ∧ (ascii "hello").length < UInt64.size := by decide +kernel
  simp only [greetingCalls, List.forall_mem_cons, List.not_mem_nil, false_implies,
    implies_true, and_true]
  exact ⟨hversion, trivial, hmessage, hbody⟩

end HttpServer

/-- An exception's text as `what()` gives it. -/
def Reportable (e : StdException) : Prop :=
  0 ∉ e.what ∧ e.what.length < UInt64.size

theorem framed_notFoundResponse {response : HttpResponse} (h : response.Framed) :
    (notFoundResponse response).Framed := by
  apply HttpResponse.Framed.setCloseConnection
  apply (h.setStatusCode .k404NotFound).toDecodable.setResponseBody
  · decide +kernel
  · decide +kernel

theorem framed_serverErrorResponse {response : HttpResponse} (h : response.Framed)
    {e : StdException} (he : Reportable e) : (serverErrorResponse response e).Framed :=
  (h.setStatusCode .k500InternalServerError).toDecodable.setResponseBody he.1 he.2

/-- The configuration's own strings may stand in a head. -/
def CorsConfig.HeadClean (config : CorsConfig) : Prop :=
  ∀ text ∈ config.allowedOrigins ++ config.allowedMethods ++ config.allowedHeaders,
    HeadText text

instance (config : CorsConfig) : Decidable config.HeadClean :=
  inferInstanceAs (Decidable (∀ text ∈ config.allowedOrigins ++ config.allowedMethods ++
    config.allowedHeaders, HeadText text))

namespace CorsMiddleware

theorem headText_join {strings : List Bytes} (h : ∀ text ∈ strings, HeadText text) :
    HeadText (join strings (ascii ", ")) := by
  have hchar : ∀ c, c ∉ ascii ", " → (∀ text ∈ strings, c ∉ text) →
      c ∉ join strings (ascii ", ") := by
    intro c hseparator htexts hmem
    rcases mem_intercalate hmem with hc | ⟨text, htext, hc⟩
    · exact hseparator hc
    · exact htexts text htext hc
  refine ⟨hchar CR (by decide +kernel) fun text htext => (h text htext).1,
    hchar LF (by decide +kernel) fun text htext => (h text htext).2.1,
    hchar 0 (by decide +kernel) fun text htext => (h text htext).2.2⟩

theorem headText_decimalInt (n : Int) : HeadText (decimalInt n) := by
  cases n with
  | ofNat n => exact HttpResponse.headText_decimal n
  | negSucc n =>
      obtain ⟨hcr, hlf, hzero⟩ := HttpResponse.headText_decimal (n + 1)
      refine ⟨?_, ?_, ?_⟩
      · exact List.not_mem_cons_of_ne_of_not_mem (by decide) hcr
      · exact List.not_mem_cons_of_ne_of_not_mem (by decide) hlf
      · exact List.not_mem_cons_of_ne_of_not_mem (by decide) hzero

/-- The added headers may stand in a head when the origin may, and none of them
is the announced length. -/
theorem headText_corsFields {config : CorsConfig} (hconfig : config.HeadClean)
    {origin : Bytes} (horigin : HeadText origin) :
    ∀ field ∈ corsFields config origin, field.1 ≠ contentLengthName ∧
      HeadText field.1 ∧ HeadText field.2 ∧ 58 ∉ field.1 := by
  have hmethods : ∀ text ∈ config.allowedMethods, HeadText text :=
    fun text htext => hconfig text (by simp [htext])
  have hheaders : ∀ text ∈ config.allowedHeaders, HeadText text :=
    fun text htext => hconfig text (by simp [htext])
  have hnames : ∀ name ∈ corsNames,
      name ≠ contentLengthName ∧ HeadText name ∧ 58 ∉ name := by decide +kernel
  intro field hfield
  obtain ⟨hlength, htext, hcolon⟩ := hnames field.1
    ((corsFields_names config origin).subset (List.mem_map_of_mem hfield))
  refine ⟨hlength, htext, ?_, hcolon⟩
  simp only [corsFields, List.mem_cons, List.mem_append, List.mem_ite_nil_right,
    List.not_mem_nil, or_false] at hfield
  rcases hfield with rfl | ((⟨_, rfl⟩ | ⟨_, rfl⟩) | ⟨_, rfl⟩) | rfl
  · exact horigin
  · exact headText_join hmethods
  · exact headText_join hheaders
  · have htrue : HeadText (ascii "true") := by decide +kernel
    exact htrue
  · exact headText_decimalInt _

theorem framed_addCorsHeaders {config : CorsConfig} (hconfig : config.HeadClean)
    {response : HttpResponse} (h : response.Framed) {origin : Bytes}
    (horigin : HeadText origin) : (addCorsHeaders config response origin).Framed := by
  rw [addCorsHeaders_eq]
  exact h.addHeaders (headText_corsFields hconfig horigin)

theorem framed_preflightResponse {config : CorsConfig} (hconfig : config.HeadClean)
    {request : HttpRequest}
    (horigin : isOriginAllowed config (request.getHeader (ascii "Origin")) = true →
      HeadText (request.getHeader (ascii "Origin"))) :
    (preflightResponse config request).Framed := by
  have hnew := HttpResponse.Framed.new true
  cases hallowed : isOriginAllowed config (request.getHeader (ascii "Origin")) with
  | false =>
      rw [preflightResponse_refused hallowed]
      exact hnew.setStatusCode _
  | true =>
      rw [preflightResponse_allowed hallowed]
      exact (framed_addCorsHeaders hconfig hnew (horigin hallowed)).setStatusCode _

theorem framed_corsResponse {config : CorsConfig} (hconfig : config.HeadClean)
    {response : HttpResponse} (h : response.Framed) :
    (corsResponse config response).Framed := by
  unfold corsResponse
  cases horigins : config.allowedOrigins with
  | nil => exact h
  | cons first rest =>
      simp only
      split
      · exact framed_addCorsHeaders hconfig h (show HeadText anyOrigin by decide +kernel)
      · have hfirst : HeadText first := hconfig first (by simp [horigins])
        exact framed_addCorsHeaders hconfig h hfirst

/-- For requests with a clean origin, which is what the middleware copies. -/
theorem new_keeps {σ : Type} {config : CorsConfig} (hconfig : config.HeadClean) :
    (new config : Middleware σ).Keeps HttpResponse.Framed Reportable
      fun request => HeadText (request.getHeader (ascii "Origin")) where
  handleRequest request hrequest := by
    show Handling.Keeps _ _ _ (handleRequest config request)
    unfold handleRequest
    split
    · exact Handling.Keeps.throwResponse (framed_preflightResponse hconfig fun _ => hrequest)
    · exact Handling.Keeps.pure hrequest
  handleResponse := Handling.Keeps.changeResponse fun _ => framed_corsResponse hconfig

end CorsMiddleware

/-- Whatever the handler is given, it keeps its response readable: its own
exceptions can be reported, and a response that it throws is readable, too. -/
def RequestHandler.Framed {σ : Type} (handler : RequestHandler σ) : Prop :=
  ∀ request, Handling.Keeps HttpResponse.Framed Reportable (fun _ => True)
    (handler.handle request)

namespace HttpServer

variable {σ B : Type} [Buffer B] {configs : List CorsConfig}
  {registrations : List (Registration (RequestHandler σ))}

theorem withDefaultCallback_framed (hconfigs : ∀ config ∈ configs, config.HeadClean)
    (hhandlers : ∀ registration ∈ registrations, registration.handler.Framed)
    (order : IterationOrder Bytes Bytes) (handlers : σ) {request : HttpRequest}
    (horigin : HeadText (request.getHeader (ascii "Origin"))) :
    (withDefaultCallback (configs.map CorsMiddleware.new)
      (Router.ofRegistrations registrations) order).AnswersFramed handlers request := by
  intro _
  apply handleRequest_keeps (E := Reportable)
    (Q := fun request => HeadText (request.getHeader (ascii "Origin")))
  · intro middleware hmiddleware
    obtain ⟨config, hconfig, rfl⟩ := List.mem_map.mp hmiddleware
    exact CorsMiddleware.new_keeps (hconfigs config hconfig)
  · exact fun registration hmem request _ => hhandlers registration hmem _
  · exact fun _ => framed_notFoundResponse
  · exact fun _ _ h he => framed_serverErrorResponse h he
  · exact horigin
  · exact HttpResponse.Framed.new _

/-- With the default callback this needs handlers that keep their responses
readable, and no request with an origin that may not stand in a head. -/
theorem defaultCallback_responses_read
    (hconfigs : ∀ config ∈ configs, config.HeadClean)
    (hhandlers : ∀ registration ∈ registrations, registration.handler.Framed)
    (order : IterationOrder Bytes Bytes) (state : ServerState σ B) (arrivals : List Arrival) :
    let server := withDefaultCallback (configs.map CorsMiddleware.new)
      (Router.ofRegistrations registrations) order
    let events := (runFrom server.onMessage state arrivals).2.flatten
    (∀ request ∈ invocations events, HeadText (request.getHeader (ascii "Origin"))) →
      readMany decodeNext arrivals.length (sentTexts events).flatten =
        some ((runFrom server.answering state arrivals).2, []) := by
  intro server events horigins
  have hreads := run_reads server arrivals state fun request hrequest handlers =>
    withDefaultCallback_framed hconfigs hhandlers order handlers (horigins request hrequest)
  have hall := readMany_sentTexts hreads
  rwa [length_runFrom] at hall

def greetingHandler : RequestHandler Unit := fun _ =>
  changeResponse fun response => greetingCalls.foldl SetterCall.apply response

theorem framed_greetingHandler : greetingHandler.Framed := by
  intro request
  have hkeeps : ∀ response : HttpResponse, response.Framed →
      (greetingCalls.foldl SetterCall.apply response).Framed :=
    fun response hresponse => hresponse.calls framing_greetingCalls
  exact Handling.Keeps.changeResponse hkeeps

/-- One request that is answered, one for another path, and one that is none. -/
theorem defaultCallback_responses_read_greeting :
    let server := withDefaultCallback ([CorsConfig.defaultConfig].map CorsMiddleware.new)
      (Router.ofRegistrations [⟨.callbacks, .kGet, ascii "/hello", greetingHandler⟩]) .byEntry
    let arrivals : List Arrival := [⟨ascii "GET /hello HTTP/1.1\r\n\r\n", 1⟩,
      ⟨ascii "GET /other HTTP/1.1\r\n\r\n", 2⟩, ⟨ascii "hello\r\n", 3⟩]
    let events := (runFrom server.onMessage
      (⟨(), .fresh 0⟩ : ServerState Unit Bytes) arrivals).2.flatten
    ∃ answers, readMany decodeNext 3 (sentTexts events).flatten = some (answers, []) ∧
      answers.map (fun answer => (answer.statusCode, answer.body)) =
        [(200, ascii "hello"), (404, ascii "404 Not Found"), (400, [])] := by
  intro server arrivals events
  have hconfigs : ∀ config ∈ [CorsConfig.defaultConfig], config.HeadClean := by decide +kernel
  refine ⟨_, defaultCallback_responses_read hconfigs ?_ .byEntry ⟨(), .fresh 0⟩ arrivals ?_, ?_⟩
  · exact List.forall_mem_singleton.mpr framed_greetingHandler
  · decide +kernel
  · decide +kernel

end HttpServer

end CuteHttpServer
