/-
What the cross-origin middleware lets through: the origins it grants on a
preflight request and on the actual one, and what its answer looks like on the
wire whatever the client sent.
-/
import CuteHttpServer.Middleware
import CuteHttpServer.ParseCalls
import CuteHttpServer.ResponseText

namespace CuteHttpServer

open ByteString DelimitedText KeyedMap StepRun

namespace CorsMiddleware

/-- The headers that `AddCorsHeaders` adds, in its order. -/
def corsFields (config : CorsConfig) (origin : Bytes) : List (Bytes × Bytes) :=
  (allowOriginName, origin) ::
    ((if config.allowedMethods ≠ [] then
      [(ascii "Access-Control-Allow-Methods", join config.allowedMethods (ascii ", "))]
      else []) ++
    (if config.allowedHeaders ≠ [] then
      [(ascii "Access-Control-Allow-Headers", join config.allowedHeaders (ascii ", "))]
      else []) ++
    (if config.allowCredentials then
      [(ascii "Access-Control-Allow-Credentials", ascii "true")] else []) ++
    [(ascii "Access-Control-Max-Age", decimalInt config.maxAge)])

theorem addHeader_if (p : Prop) [Decidable p] (response : HttpResponse) (key value : Bytes) :
    (if p then response.addHeader key value else response) =
      { response with
        responseHeaders :=
          emplaceAll response.responseHeaders (if p then [(key, value)] else []) } := by
  split
  · rfl
  · rfl

theorem addCorsHeaders_eq (config : CorsConfig) (response : HttpResponse) (origin : Bytes) :
    addCorsHeaders config response origin =
      { response with
        responseHeaders :=
          emplaceAll response.responseHeaders (corsFields config origin) } := by
  simp only [addCorsHeaders, addHeader_if, corsFields, ← List.cons_append,
    emplaceAll_append]
  rfl

/-- The allowed origin is the one that was there before, or else the given
one. -/
theorem lookup_allowOrigin (config : CorsConfig) (response : HttpResponse)
    (origin : Bytes) :
    (addCorsHeaders config response origin).responseHeaders.lookup allowOriginName =
      (response.responseHeaders.lookup allowOriginName).or (some origin) := by
  rw [addCorsHeaders_eq, lookup_emplaceAll, corsFields, fieldValue_cons, if_pos rfl,
    Option.some_or]

/-- The allowed origin of a response covers this one. -/
def Grants (response : HttpResponse) (origin : Bytes) : Prop :=
  ∃ allowed, response.responseHeaders.lookup allowOriginName = some allowed ∧
    (allowed = origin ∨ allowed = anyOrigin)

theorem isOriginAllowed_iff (config : CorsConfig) (origin : Bytes) :
    isOriginAllowed config origin = true ↔
      anyOrigin ∈ config.allowedOrigins ∨ origin ∈ config.allowedOrigins := by
  simp only [isOriginAllowed, List.any_eq_true, Bool.or_eq_true, decide_eq_true_eq]
  constructor
  · rintro ⟨allowed, hmem, rfl | rfl⟩
    · exact Or.inl hmem
    · exact Or.inr hmem
  · rintro (hmem | hmem)
    · exact ⟨_, hmem, Or.inl rfl⟩
    · exact ⟨_, hmem, Or.inr rfl⟩

/-- The answer to a preflight request is a grant. -/
def PreflightGranted (config : CorsConfig) (request : HttpRequest) (origin : Bytes) : Prop :=
  (preflightResponse config request).getStatusCode = .k204NoContent ∧
    Grants (preflightResponse config request) origin

theorem preflightResponse_allowed {config : CorsConfig} {request : HttpRequest}
    (h : isOriginAllowed config (request.getHeader (ascii "Origin")) = true) :
    preflightResponse config request =
      (addCorsHeaders config (HttpResponse.new true)
        (request.getHeader (ascii "Origin"))).setStatusCode .k204NoContent := by
  simp [preflightResponse, handlePreflightRequest, h]

theorem preflightResponse_refused {config : CorsConfig} {request : HttpRequest}
    (h : isOriginAllowed config (request.getHeader (ascii "Origin")) = false) :
    preflightResponse config request =
      (HttpResponse.new true).setStatusCode .k403Forbidden := by
  simp [preflightResponse, handlePreflightRequest, h]

theorem preflightGranted_iff (config : CorsConfig) (request : HttpRequest) :
    PreflightGranted config request (request.getHeader (ascii "Origin")) ↔
      isOriginAllowed config (request.getHeader (ascii "Origin")) = true := by
  unfold PreflightGranted
  cases hallowed : isOriginAllowed config (request.getHeader (ascii "Origin")) with
  | false =>
      rw [preflightResponse_refused hallowed]
      refine iff_of_false ?_ Bool.false_ne_true
      rintro ⟨hcode, _⟩
      exact absurd hcode (by decide)
  | true =>
      rw [preflightResponse_allowed hallowed]
      have hlookup := lookup_allowOrigin config (HttpResponse.new true)
        (request.getHeader (ascii "Origin"))
      exact iff_of_true ⟨rfl, _, hlookup, Or.inl rfl⟩ rfl

/-- The actual response grants the origin exactly if the list allows all of
them or begins with it. -/
theorem grants_corsResponse_iff (config : CorsConfig) {response : HttpResponse}
    (hnone : allowOriginName ∉ response.responseHeaders) (origin : Bytes) :
    Grants (corsResponse config response) origin ↔
      anyOrigin ∈ config.allowedOrigins ∨ config.allowedOrigins.head? = some origin := by
  have hlookup := AList.lookup_eq_none.mpr hnone
  unfold Grants corsResponse
  cases horigins : config.allowedOrigins with
  | nil => simp [hlookup]
  | cons first rest =>
      by_cases hany : anyOrigin ∈ first :: rest
      · simp only [hany, if_true, lookup_allowOrigin, hlookup, Option.none_or, true_or,
          iff_true]
        exact ⟨anyOrigin, rfl, Or.inr rfl⟩
      · have hfirst : first ≠ anyOrigin := fun hsame => hany (hsame ▸ List.mem_cons_self)
        simp [hany, lookup_allowOrigin, hlookup, hfirst]

/-- Preflight and actual response agree exactly for origins that are covered
by `*`, not listed, or listed first. -/
theorem preflight_agrees_iff (config : CorsConfig) (origin : Bytes) (request : HttpRequest)
    (horigin : request.getHeader (ascii "Origin") = origin) (response : HttpResponse)
    (hnone : allowOriginName ∉ response.responseHeaders) :
    (PreflightGranted config request origin ↔ Grants (corsResponse config response) origin) ↔
      anyOrigin ∈ config.allowedOrigins ∨ origin ∉ config.allowedOrigins ∨
        config.allowedOrigins.head? = some origin := by
  subst horigin
  rw [preflightGranted_iff, isOriginAllowed_iff, grants_corsResponse_iff config hnone]
  have hhead : config.allowedOrigins.head? = some (request.getHeader (ascii "Origin")) →
      request.getHeader (ascii "Origin") ∈ config.allowedOrigins := List.mem_of_mem_head?
  tauto

/-- Two origins, and a preflight request from one of them. -/
def twoOrigins : CorsConfig :=
  { CorsConfig.defaultConfig with
    allowedOrigins := [ascii "http://a.example", ascii "http://b.example"] }

def preflightFrom (origin : Bytes) : HttpRequest :=
  ((HttpRequest.new 0).setMethod (ascii "OPTIONS")).2.addHeader (ascii "Origin") origin

theorem preflight_agrees_first :
    PreflightGranted twoOrigins (preflightFrom (ascii "http://a.example"))
        (ascii "http://a.example") ↔
      Grants (corsResponse twoOrigins (HttpResponse.new true)) (ascii "http://a.example") :=
  (preflight_agrees_iff twoOrigins (ascii "http://a.example")
    (preflightFrom (ascii "http://a.example")) (by decide +kernel) (HttpResponse.new true)
    (by decide +kernel)).mpr (by decide +kernel)

/-- The second origin of the list is granted on preflight only. -/
theorem not_preflight_agrees_second :
    ¬ (PreflightGranted twoOrigins (preflightFrom (ascii "http://b.example"))
        (ascii "http://b.example") ↔
      Grants (corsResponse twoOrigins (HttpResponse.new true))
        (ascii "http://b.example")) := by
  intro hagree
  have hgranted := (preflightGranted_iff twoOrigins
    (preflightFrom (ascii "http://b.example"))).mpr (by decide +kernel)
  have hactual := (grants_corsResponse_iff twoOrigins (by decide +kernel) _).mp
    (hagree.mp hgranted)
  exact absurd hactual (by decide +kernel)

end CorsMiddleware

/-- The configuration's own strings have no line ends in them. -/
def CorsConfig.LineFree (config : CorsConfig) : Prop :=
  ∀ text ∈ config.allowedOrigins ++ config.allowedMethods ++ config.allowedHeaders,
    CR ∉ text ∧ LF ∉ text

instance (config : CorsConfig) : Decidable config.LineFree :=
  inferInstanceAs (Decidable (∀ text ∈ config.allowedOrigins ++ config.allowedMethods ++
    config.allowedHeaders, CR ∉ text ∧ LF ∉ text))

/-- The value of a header line is the end of it. -/
theorem crlfFree_headerField {line key value : Bytes} (hline : CrlfFree line)
    (h : headerField line = some (key, value)) : CrlfFree value := by
  unfold headerField at h
  cases hcolon : line.idxOf? 58 with
  | none => simp [hcolon] at h
  | some position =>
      simp only [hcolon, Option.some.injEq, Prod.mk.injEq] at h
      rw [← h.2]
      apply pairFree_of_suffix _ hline
      exact (List.dropWhile_suffix isBlank).trans (List.drop_suffix _ _)

/-- No value of a request that the parser has completed has a line end in it,
however its bytes came in. -/
theorem crlfFree_getHeader_parsed {start : HttpContext} (hstart : start.Idle)
    (buffer : Bytes) (arrivals : List Arrival)
    (hgot : (runFrom Connection.parse ⟨start, buffer⟩ arrivals).1.context.gotAll = true)
    (name : Bytes) :
    CrlfFree ((runFrom Connection.parse ⟨start, buffer⟩
      arrivals).1.context.getRequest.getHeader name) := by
  obtain ⟨head, body, _, _, hrequest⟩ := Connection.parse_finish hstart buffer arrivals hgot
  rw [HttpContext.getRequest, hrequest, HttpRequest.getHeader_readBody, RequestHead.read,
    HttpRequest.getHeader_readHeaderLines]
  have hempty : ((start.request.readRequestLine head.requestLine).setReceiveTime
      head.receiveTime).requestHeaders = ∅ := hstart.2
  rw [hempty, AList.lookup_empty, Option.none_or]
  cases hvalue : fieldValue (headerFields head.headerLines) name with
  | none => exact pairFree_nil CR LF
  | some value =>
      obtain ⟨line, hline, hfield⟩ := List.mem_filterMap.mp (mem_of_fieldValue hvalue)
      exact crlfFree_headerField (head.headerLines_text line hline).2 hfield

namespace CorsMiddleware

theorem crlfFree_join {strings : List Bytes} (h : ∀ text ∈ strings, CR ∉ text) :
    CrlfFree (join strings (ascii ", ")) := by
  apply pairFree_of_not_mem
  intro hmem
  rcases mem_intercalate hmem with hseparator | ⟨text, htext, hc⟩
  · exact absurd hseparator (by decide +kernel)
  · exact h text htext hc

theorem crlfFree_decimalInt (n : Int) : CrlfFree (decimalInt n) := by
  apply pairFree_of_not_mem
  intro hmem
  cases n with
  | ofNat n => exact absurd (isDigit_of_mem_decimal hmem) (by decide)
  | negSucc n =>
      rcases List.mem_cons.mp hmem with hsign | hmem
      · exact absurd hsign (by decide)
      · exact absurd (isDigit_of_mem_decimal hmem) (by decide)

/-- The names of all headers that can be added. -/
def corsNames : List Bytes :=
  [allowOriginName, ascii "Access-Control-Allow-Methods",
    ascii "Access-Control-Allow-Headers", ascii "Access-Control-Allow-Credentials",
    ascii "Access-Control-Max-Age"]

theorem corsFields_names (config : CorsConfig) (origin : Bytes) :
    ((corsFields config origin).map Prod.fst).Sublist corsNames := by
  have hoption : ∀ (p : Prop) [Decidable p] (field : Bytes × Bytes),
      ((if p then [field] else []).map Prod.fst).Sublist [field.1] := by
    intro p _ field
    split
    · exact List.Sublist.refl _
    · exact List.nil_sublist _
  have hmethods := hoption (config.allowedMethods ≠ [])
    (ascii "Access-Control-Allow-Methods", join config.allowedMethods (ascii ", "))
  have hheaders := hoption (config.allowedHeaders ≠ [])
    (ascii "Access-Control-Allow-Headers", join config.allowedHeaders (ascii ", "))
  have hcredentials := hoption (config.allowCredentials = true)
    (ascii "Access-Control-Allow-Credentials", ascii "true")
  simp only [corsFields, List.map_cons, List.map_append]
  apply List.Sublist.cons_cons
  exact ((hmethods.append hheaders).append hcredentials).append (List.Sublist.refl _)

theorem corsFields_nodup (config : CorsConfig) (origin : Bytes) :
    ((corsFields config origin).map Prod.fst).Nodup := by
  have hnames : corsNames.Nodup := by decide +kernel
  exact hnames.sublist (corsFields_names config origin)

/-- The added headers have no line ends in them when the origin has none. -/
theorem corsFields_free {config : CorsConfig} (hconfig : config.LineFree) {origin : Bytes}
    (horigin : CrlfFree origin) :
    ∀ field ∈ corsFields config origin, CrlfFree field.1 ∧ CrlfFree field.2 := by
  have hmethods : ∀ text ∈ config.allowedMethods, CR ∉ text :=
    fun text htext => (hconfig text (by simp [htext])).1
  have hheaders : ∀ text ∈ config.allowedHeaders, CR ∉ text :=
    fun text htext => (hconfig text (by simp [htext])).1
  have hnames : ∀ name ∈ corsNames, CrlfFree name := by decide +kernel
  intro field hfield
  have hname := (corsFields_names config origin).subset (List.mem_map_of_mem hfield)
  refine ⟨hnames field.1 hname, ?_⟩
  simp only [corsFields, List.mem_cons, List.mem_append, List.mem_ite_nil_right,
    List.not_mem_nil, or_false] at hfield
  rcases hfield with rfl | ((⟨_, rfl⟩ | ⟨_, rfl⟩) | ⟨_, rfl⟩) | rfl
  · exact horigin
  · exact crlfFree_join hmethods
  · exact crlfFree_join hheaders
  · have htrue : CrlfFree (ascii "true") := by decide +kernel
    exact htrue
  · exact crlfFree_decimalInt _

/-- The headers of the answer to a preflight request: none for an origin that
is refused. -/
def preflightFields (config : CorsConfig) (origin : Bytes) : List (Bytes × Bytes) :=
  if isOriginAllowed config origin then corsFields config origin else []

theorem preflightFields_nodup (config : CorsConfig) (origin : Bytes) :
    ((preflightFields config origin).map Prod.fst).Nodup := by
  unfold preflightFields
  split
  · exact corsFields_nodup config origin
  · exact List.nodup_nil

/-- The answer is empty apart from its status code and headers, and closes the
connection. -/
theorem preflightResponse_eq (config : CorsConfig) (request : HttpRequest) :
    ∃ code, preflightResponse config request =
      { HttpResponse.new true with
        statusCode := code
        responseHeaders :=
          emplaceAll ∅ (preflightFields config (request.getHeader (ascii "Origin"))) } := by
  unfold preflightFields
  cases hallowed : isOriginAllowed config (request.getHeader (ascii "Origin")) with
  | false => exact ⟨.k403Forbidden, preflightResponse_refused hallowed⟩
  | true =>
      refine ⟨.k204NoContent, ?_⟩
      rw [preflightResponse_allowed hallowed, addCorsHeaders_eq]
      rfl

/-- What a middleware answers is its status line, the headers it added and one
`Connection` line. -/
theorem preflightResponse_lines {config : CorsConfig} (hconfig : config.LineFree)
    {request : HttpRequest} (horigin : CrlfFree (request.getHeader (ascii "Origin")))
    (order : IterationOrder Bytes Bytes) :
    ∃ written : List (Bytes × Bytes),
      written.Perm (preflightFields config (request.getHeader (ascii "Origin"))) ∧
      splitHead CR LF true ((preflightResponse config request).getResponse order) =
        some ((preflightResponse config request).statusLine ::
          (written.map HttpResponse.fieldLine ++ [ascii "Connection: close"]), []) := by
  obtain ⟨code, hresponse⟩ := preflightResponse_eq config request
  have hperm := fields_emplaceAll_perm
    (preflightFields_nodup config (request.getHeader (ascii "Origin")))
  have hfree : (preflightResponse config request).HeadFree := by
    rw [hresponse]
    refine ⟨pairFree_nil CR LF, pairFree_nil CR LF, ?_⟩
    intro field hfield
    have hmem := hperm.mem_iff.mp hfield
    rw [preflightFields, List.mem_ite_nil_right] at hmem
    exact corsFields_free hconfig horigin field hmem.2
  have hsplit := HttpResponse.splitHead_getResponse order hfree
  refine ⟨order.visit (preflightResponse config request).responseHeaders, ?_, ?_⟩
  · rw [hresponse]
    exact (order.visit_perm _).trans hperm
  · have hconnection : HttpResponse.fieldLine
        (preflightResponse config request).connectionField = ascii "Connection: close" := by
      rw [hresponse]
      rfl
    have hbody : (preflightResponse config request).responseBody = [] := by rw [hresponse]; rfl
    rw [hsplit, HttpResponse.headLines, HttpResponse.writtenFields, List.map_append,
      List.map_singleton, hconnection, hbody]

/-- Whatever a client sends, the answer to its preflight request has no lines
but those of the server: the status line, the added headers, with the client's
origin as the allowed one, and the `Connection` line. -/
theorem preflight_injects_nothing {B σ : Type} [Buffer B] (start : HttpContext)
    (hstart : start.Idle) (buffer : B) (arrivals : List Arrival)
    (hgot : (runFrom Connection.parse ⟨start, buffer⟩ arrivals).1.context.gotAll = true)
    (hmethod : (runFrom Connection.parse ⟨start, buffer⟩
      arrivals).1.context.getRequest.getMethod = .kOptions)
    (config : CorsConfig) (hconfig : config.LineFree)
    (order : IterationOrder Bytes Bytes) (memory : HandlerMemory σ) :
    let request := (runFrom Connection.parse ⟨start, buffer⟩ arrivals).1.context.getRequest
    let origin := request.getHeader (ascii "Origin")
    ∃ (response : HttpResponse) (written : List (Bytes × Bytes)),
      handleRequest config request memory = .error (.response response) memory ∧
      written.Perm
        (if isOriginAllowed config origin then corsFields config origin else []) ∧
      splitHead CR LF true (response.getResponse order) =
        some (response.statusLine ::
          (written.map HttpResponse.fieldLine ++ [ascii "Connection: close"]), []) := by
  intro request origin
  have hview : runFrom Connection.parse ⟨start, Buffer.readable buffer⟩ arrivals = _ :=
    Connection.runFrom_parse_view ⟨start, buffer⟩ arrivals
  have hfree : CrlfFree origin := by
    have hparsed := crlfFree_getHeader_parsed hstart (Buffer.readable buffer) arrivals
    rw [hview] at hparsed
    exact hparsed hgot (ascii "Origin")
  obtain ⟨written, hwritten, hlines⟩ := preflightResponse_lines hconfig hfree order
  refine ⟨preflightResponse config request, written, ?_, hwritten, hlines⟩
  rw [handleRequest, if_pos hmethod]
  rfl

/-- A preflight request whose origin tries to begin a line of its own. -/
def injection : Arrival :=
  ⟨ascii "OPTIONS / HTTP/1.1\r\nOrigin: a\nX-Admin: 1\r\n\r\n", 0⟩

theorem preflight_injects_nothing_injection :
    ∃ (response : HttpResponse) (written : List (Bytes × Bytes)),
      written.Perm (corsFields .defaultConfig (ascii "a\nX-Admin: 1")) ∧
      splitHead CR LF true (response.getResponse .byEntry) =
        some (response.statusLine ::
          (written.map HttpResponse.fieldLine ++ [ascii "Connection: close"]), []) := by
  have horigin : (runFrom Connection.parse (⟨HttpContext.new 0, []⟩ : Connection Bytes)
      [injection]).1.context.getRequest.getHeader (ascii "Origin") =
        ascii "a\nX-Admin: 1" := by decide +kernel
  obtain ⟨response, written, _, hwritten, hlines⟩ :=
    preflight_injects_nothing (σ := Unit) (HttpContext.new 0) (HttpContext.idle_new 0)
      ([] : Bytes) [injection] (by decide +kernel) (by decide +kernel) .defaultConfig
      (by decide +kernel) .byEntry ⟨(), HttpResponse.new true⟩
  have hallowed : isOriginAllowed .defaultConfig (ascii "a\nX-Admin: 1") = true := by
    decide +kernel
  rw [horigin, hallowed, if_pos rfl] at hwritten
  exact ⟨response, written, hwritten, hlines⟩

end CorsMiddleware

end CuteHttpServer
