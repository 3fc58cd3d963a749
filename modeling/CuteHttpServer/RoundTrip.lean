/-
Parsing undoes writing: a request is written from its parts, and one call of
the parser on the text, whatever follows it, gives the parts back.
-/
import CuteHttpServer.ParseSpec

namespace CuteHttpServer

open ByteString DelimitedText KeyedMap

/-- The method tokens the server knows. -/
def methodTokens : List Bytes :=
  [ascii "GET", ascii "POST", ascii "PUT", ascii "DELETE", ascii "OPTIONS"]

theorem methodTokens_token {token : Bytes} (h : token ∈ methodTokens) :
    token ≠ [] ∧ ∀ c ∈ token, isSpace c = false := by
  have hall : ∀ token ∈ methodTokens,
      token ≠ [] ∧ ∀ c ∈ token, isSpace c = false := by decide +kernel
  exact hall token h

/-- No other token names a method. -/
theorem mem_methodTokens {token : Bytes} (h : HttpRequest.methodOf token ≠ .kInvalid) :
    token ∈ methodTokens := by
  by_contra hnot
  simp only [methodTokens, List.mem_cons, List.not_mem_nil, or_false, not_or] at hnot
  apply h
  simp [HttpRequest.methodOf, hnot]

/-- Three tokens with one space between them are read as they are. -/
theorem requestTokens_line {method target version : Bytes}
    (hmethod : method ≠ [] ∧ ∀ c ∈ method, isSpace c = false)
    (htarget : target ≠ [] ∧ ∀ c ∈ target, isSpace c = false)
    (hversion : version ≠ [] ∧ ∀ c ∈ version, isSpace c = false) :
    requestTokens (method ++ 32 :: (target ++ 32 :: version)) = (method, target, version) := by
  have hblank : ∀ c ∈ [(32 : Byte)], isSpace c = true := by decide +kernel
  have hnext : ∀ rest : Bytes, ∀ c ∈ (32 :: rest).head?, isSpace c = true := by
    intro rest c hc
    exact hblank c (by simpa [eq_comm] using hc)
  have hfirst : extractToken ([] ++ (method ++ 32 :: (target ++ 32 :: version))) = _ :=
    extractToken_append (by simp) hmethod.2 hmethod.1 (hnext _)
  have hsecond : extractToken ([32] ++ (target ++ 32 :: version)) = _ :=
    extractToken_append hblank htarget.2 htarget.1 (hnext _)
  have hthird : extractToken ([32] ++ (version ++ [])) = _ :=
    extractToken_append hblank hversion.2 hversion.1 (by simp)
  rw [List.nil_append] at hfirst
  rw [List.singleton_append] at hsecond hthird
  rw [List.append_nil] at hthird
  simp only [requestTokens, hfirst, hsecond, hthird]

theorem acceptsRequestLine_line {method target version : Bytes}
    (hmethod : method ≠ [] ∧ ∀ c ∈ method, isSpace c = false)
    (htarget : target ≠ [] ∧ ∀ c ∈ target, isSpace c = false)
    (hversion : version ≠ [] ∧ ∀ c ∈ version, isSpace c = false) :
    acceptsRequestLine (method ++ 32 :: (target ++ 32 :: version)) = true := by
  simp [acceptsRequestLine, requestTokens_line hmethod htarget hversion, hmethod.1,
    htarget.1, hversion.1]

/-- The parts of a request, as a client holds them before it writes them. -/
structure RequestParts where
  method : Bytes
  path : Bytes
  query : List (Bytes × Bytes)
  version : Bytes
  headers : List (Bytes × Bytes)
  body : Bytes
  method_known : method ∈ methodTokens
  path_free : ∀ c ∈ path, isSpace c = false ∧ c ≠ 63
  query_keys : ∀ pair ∈ query, ∀ c ∈ pair.1, isSpace c = false ∧ c ≠ 38 ∧ c ≠ 61
  query_values : ∀ pair ∈ query, ∀ c ∈ pair.2, isSpace c = false ∧ c ≠ 38
  version_ne : version ≠ []
  version_free : ∀ c ∈ version, isSpace c = false
  headers_distinct : (headers.map Prod.fst).Nodup
  headers_names : ∀ field ∈ headers, 58 ∉ field.1 ∧ CrlfFree field.1 ∧
    ∀ c ∈ field.1.getLast?, isBlank c = false
  headers_values : ∀ field ∈ headers, CrlfFree field.2 ∧
    ∀ c ∈ field.2.head?, isBlank c = false
  body_announced : body ≠ [] →
    (contentLengthName, decimal body.length) ∈ headers
  body_unannounced : body = [] → contentLengthName ∉ headers.map Prod.fst
  body_fits : body.length < UInt64.size

namespace RequestParts

def queryText (parts : RequestParts) : Bytes :=
  List.intercalate [38] (parts.query.map fun pair => pair.1 ++ 61 :: pair.2)

/-- Path and query as they stand in the request line. -/
def target (parts : RequestParts) : Bytes :=
  if parts.query = [] then parts.path else parts.path ++ 63 :: parts.queryText

def requestLine (parts : RequestParts) : Bytes :=
  parts.method ++ 32 :: (parts.target ++ 32 :: parts.version)

def headerLine (field : Bytes × Bytes) : Bytes := field.1 ++ 58 :: 32 :: field.2

/-- The request as it is written. -/
def render (parts : RequestParts) : Bytes :=
  withCrlf (parts.requestLine :: parts.headers.map headerLine ++ [[]]) ++ parts.body

theorem method_token (parts : RequestParts) :
    parts.method ≠ [] ∧ ∀ c ∈ parts.method, isSpace c = false :=
  methodTokens_token parts.method_known

theorem queryText_free (parts : RequestParts) :
    ∀ c ∈ parts.queryText, isSpace c = false := by
  have hpairs : ∀ pairs : List (Bytes × Bytes),
      (∀ pair ∈ pairs, ∀ c ∈ pair.1 ++ 61 :: pair.2, isSpace c = false) →
      ∀ c ∈ List.intercalate [38] (pairs.map fun pair => pair.1 ++ 61 :: pair.2),
        isSpace c = false := by
    intro pairs
    induction pairs with
    | nil => simp [List.intercalate]
    | cons pair pairs ih =>
        intro hfree c hc
        cases pairs with
        | nil =>
            exact hfree pair List.mem_cons_self c (by simpa [List.intercalate] using hc)
        | cons next pairs =>
            rw [List.map_cons, List.map_cons, List.intercalate_cons_cons,
              List.append_assoc, List.singleton_append] at hc
            rcases List.mem_append.mp hc with hc | hc
            · exact hfree pair List.mem_cons_self c hc
            rcases List.mem_cons.mp hc with rfl | hc
            · rfl
            · exact ih (fun other hother => hfree other (List.mem_cons_of_mem _ hother))
                c hc
  apply hpairs
  intro pair hpair c hc
  rcases List.mem_append.mp hc with hc | hc
  · exact (parts.query_keys pair hpair c hc).1
  · rcases List.mem_cons.mp hc with rfl | hc
    · rfl
    · exact (parts.query_values pair hpair c hc).1

theorem target_free (parts : RequestParts) :
    ∀ c ∈ parts.target, isSpace c = false := by
  intro c hc
  unfold target at hc
  by_cases hquery : parts.query = []
  · rw [if_pos hquery] at hc
    exact (parts.path_free c hc).1
  · rw [if_neg hquery, List.mem_append, List.mem_cons] at hc
    rcases hc with hc | rfl | hc
    · exact (parts.path_free c hc).1
    · rfl
    · exact parts.queryText_free c hc

theorem target_ne_nil {parts : RequestParts}
    (h : parts.path ≠ [] ∨ parts.query ≠ []) : parts.target ≠ [] := by
  unfold target
  by_cases hquery : parts.query = []
  · rw [if_pos hquery]
    exact h.resolve_right (not_not_intro hquery)
  · rw [if_neg hquery]
    simp

/-- The three tokens come back from the request line. -/
theorem requestTokens_requestLine (parts : RequestParts)
    (htarget : parts.target ≠ []) :
    requestTokens parts.requestLine =
      (parts.method, parts.target, parts.version) :=
  requestTokens_line parts.method_token ⟨htarget, parts.target_free⟩
    ⟨parts.version_ne, parts.version_free⟩

theorem queryPair_append {key value : Bytes} (hkey : 61 ∉ key) :
    queryPair (key ++ 61 :: value) = some (key, value) := by
  simp [queryPair, idxOf?_append_cons hkey]

/-- Path and query pairs come back from the target. -/
theorem splitTarget_target (parts : RequestParts) :
    (splitTarget parts.target).1 = parts.path ∧
      (splitTarget parts.target).2.filterMap queryPair = parts.query := by
  have hpath : 63 ∉ parts.path := fun hmem => (parts.path_free 63 hmem).2 rfl
  unfold splitTarget target
  by_cases hquery : parts.query = []
  · have hnone : parts.path.idxOf? 63 = none := by
      rw [List.idxOf?_eq_none_iff]
      exact hpath
    simp [hquery, hnone]
  · rw [if_neg hquery, idxOf?_append_cons hpath]
    have hpieces : pieces 38 parts.queryText =
        parts.query.map fun pair => pair.1 ++ 61 :: pair.2 := by
      apply pieces_intercalate
      · intro text htext hmem
        obtain ⟨pair, hpair, rfl⟩ := List.mem_map.mp htext
        rcases List.mem_append.mp hmem with hmem | hmem
        · exact (parts.query_keys pair hpair 38 hmem).2.1 rfl
        · rcases List.mem_cons.mp hmem with heq | hmem
          · exact absurd heq (by decide)
          · exact (parts.query_values pair hpair 38 hmem).2 rfl
      · intro text htext
        obtain ⟨pair, _, rfl⟩ := List.mem_map.mp htext
        simp
    have hpairs : ∀ pair ∈ parts.query,
        queryPair (pair.1 ++ 61 :: pair.2) = some pair := by
      intro pair hpair
      exact queryPair_append fun hmem => (parts.query_keys pair hpair 61 hmem).2.2 rfl
    refine ⟨by simp, ?_⟩
    simp only [drop_append_cons, hpieces, List.filterMap_map]
    refine (List.filterMap_congr (g := some) hpairs).trans List.filterMap_some

/-- Name and value come back from a header line. -/
theorem headerField_headerLine {parts : RequestParts} {field : Bytes × Bytes}
    (hfield : field ∈ parts.headers) : headerField (headerLine field) = some field := by
  obtain ⟨hcolon, _, hlast⟩ := parts.headers_names field hfield
  obtain ⟨_, hfirst⟩ := parts.headers_values field hfield
  have hname : field.1.rdropWhile isBlank = field.1 := by
    rw [List.rdropWhile_eq_self_iff]
    intro hne hblank
    have hnot := hlast _ (List.getLast?_eq_getLast_of_ne_nil hne)
    exact absurd hblank (by simp [hnot])
  have hvalue : field.2.dropWhile isBlank = field.2 := by
    cases hhead : field.2 with
    | nil => rfl
    | cons c rest => simp [hfirst c (by simp [hhead])]
  have hblank : isBlank 32 = true := by decide
  simp [headerField, headerLine, idxOf?_append_cons hcolon, drop_append_cons, hname,
    hvalue, hblank]

theorem headerFields_headerLines (parts : RequestParts) :
    headerFields (parts.headers.map headerLine) = parts.headers := by
  rw [headerFields, List.filterMap_map]
  refine (List.filterMap_congr (g := some) ?_).trans List.filterMap_some
  intro field hfield
  exact headerField_headerLine hfield

theorem headerLine_text {parts : RequestParts} {field : Bytes × Bytes}
    (hfield : field ∈ parts.headers) : HeaderLineText (headerLine field) := by
  obtain ⟨_, hname, _⟩ := parts.headers_names field hfield
  obtain ⟨hvalue, _⟩ := parts.headers_values field hfield
  refine ⟨by simp [headerLine], ?_⟩
  have hblank : CrlfFree (32 :: field.2) :=
    pairFree_append_cons (by decide) (by decide) (pairFree_nil _ _) hvalue
  exact pairFree_append_cons (by decide) (by decide) hname hblank

theorem requestLine_text (parts : RequestParts) : CrlfFree parts.requestLine := by
  have hfree : ∀ {text : Bytes}, (∀ c ∈ text, isSpace c = false) → CrlfFree text := by
    intro text hspace
    apply pairFree_of_not_mem
    intro hmem
    exact absurd (hspace CR hmem) (by decide)
  have hrest : CrlfFree (parts.target ++ 32 :: parts.version) :=
    pairFree_append_cons (by decide) (by decide) (hfree parts.target_free)
      (hfree parts.version_free)
  exact pairFree_append_cons (by decide) (by decide) (hfree parts.method_token.2) hrest

theorem contentLengthField_headerLines (parts : RequestParts) :
    contentLengthField (parts.headers.map headerLine) =
      if parts.body = [] then [] else decimal parts.body.length := by
  unfold contentLengthField
  rw [parts.headerFields_headerLines]
  by_cases hbody : parts.body = []
  · rw [if_pos hbody, fieldValue_of_not_mem (parts.body_unannounced hbody)]
    rfl
  · rw [if_neg hbody,
      fieldValue_of_mem parts.headers_distinct (parts.body_announced hbody)]
    rfl

theorem body_matches (parts : RequestParts) :
    BodyMatches (contentLengthField (parts.headers.map headerLine)) parts.body := by
  unfold BodyMatches
  rw [contentLengthField_headerLines]
  by_cases hbody : parts.body = []
  · simp [hbody]
  · rw [if_neg hbody, if_neg (decimal_ne_nil _)]
    refine ⟨_, stoul_decimal parts.body_fits, ?_⟩
    rw [UInt64.toNat_ofNat', Nat.mod_eq_of_lt parts.body_fits]

/-- The written request as a text the parser accepts. -/
def toText (parts : RequestParts) (htarget : parts.target ≠ []) : RequestText where
  requestLine := parts.requestLine
  headerLines := parts.headers.map headerLine
  body := parts.body
  requestLine_free := parts.requestLine_text
  requestLine_accepted := by
    simp [acceptsRequestLine, parts.requestTokens_requestLine htarget,
      parts.method_token.1, htarget, parts.version_ne]
  headerLines_text := by
    intro line hline
    obtain ⟨field, hfield, rfl⟩ := List.mem_map.mp hline
    exact headerLine_text hfield
  headerLines_accepted := by
    intro line hline
    obtain ⟨field, hfield, rfl⟩ := List.mem_map.mp hline
    rw [acceptsHeaderLine, headerField_headerLine hfield]
    rfl
  body_matches := parts.body_matches

theorem render_toText (parts : RequestParts) (htarget : parts.target ≠ []) :
    (parts.toText htarget).render = parts.render := rfl

theorem getStringMethod_methodOf {token : Bytes} (h : token ∈ methodTokens)
    {request : HttpRequest} (hmethod : request.method = HttpRequest.methodOf token) :
    request.getStringMethod = token := by
  have hall : ∀ token ∈ methodTokens,
      { HttpRequest.new 0 with
        method := HttpRequest.methodOf token }.getStringMethod = token := by decide +kernel
  have hrequest : request.getStringMethod =
      { HttpRequest.new 0 with method := request.method }.getStringMethod := rfl
  rw [hrequest, hmethod]
  exact hall token h

end RequestParts

/-- What a request object says about the parts of a request. -/
structure HttpRequest.Holds (request : HttpRequest) (parts : RequestParts) :
    Prop where
  method : request.getStringMethod = parts.method
  path : request.getPath = parts.path
  /-- Each key has the value of its last pair. -/
  query : ∀ key, request.queryParams.lookup key = fieldValue parts.query.reverse key
  version : request.getVersion = parts.version
  headers : ∀ name, request.requestHeaders.lookup name = fieldValue parts.headers name
  body : request.getRequestBody = parts.body

namespace RequestParts

/-- The request that the head of the written text is read into. -/
def readHead (parts : RequestParts) (indeterminate : UInt64)
    (receiveTime : Timestamp) : HttpRequest :=
  { HttpRequest.new indeterminate with
    method := HttpRequest.methodOf parts.method
    path := parts.path
    queryParams := assignAll ∅ parts.query
    version := parts.version
    requestHeaders := emplaceAll ∅ parts.headers
    receiveTime := receiveTime }

theorem readHeaderLines_head (parts : RequestParts) (htarget : parts.target ≠ [])
    (indeterminate : UInt64) (receiveTime : Timestamp) :
    (((HttpRequest.new indeterminate).readRequestLine parts.requestLine).setReceiveTime
        receiveTime).readHeaderLines (parts.headers.map headerLine) =
      parts.readHead indeterminate receiveTime := by
  rw [HttpRequest.readHeaderLines_eq, parts.headerFields_headerLines]
  simp only [HttpRequest.readRequestLine, parts.requestTokens_requestLine htarget,
    parts.splitTarget_target.1, parts.splitTarget_target.2]
  rfl

/-- The reader of request texts gives the parts back. -/
theorem holds_read (parts : RequestParts) (htarget : parts.target ≠ [])
    (indeterminate : UInt64) (receiveTime : Timestamp) :
    ((parts.toText htarget).read (HttpRequest.new indeterminate) receiveTime).Holds
      parts := by
  have hhead := parts.readHeaderLines_head htarget indeterminate receiveTime
  have hlength : (parts.readHead indeterminate receiveTime).getHeader contentLengthName =
      if parts.body = [] then [] else decimal parts.body.length := by
    rw [← hhead, HttpRequest.contentLength_readHeaderLines rfl,
      contentLengthField_headerLines]
  have hread : (parts.toText htarget).read (HttpRequest.new indeterminate) receiveTime =
      (parts.readHead indeterminate receiveTime).readBody parts.body :=
    congrArg (HttpRequest.readBody · parts.body) hhead
  have hbody : ∃ length, (parts.readHead indeterminate receiveTime).readBody parts.body =
      (parts.readHead indeterminate receiveTime).withStale length parts.body := by
    unfold HttpRequest.readBody
    rw [hlength]
    by_cases hempty : parts.body = []
    · rw [if_pos hempty, if_pos rfl, hempty]
      exact ⟨indeterminate, rfl⟩
    · rw [if_neg hempty, if_neg (decimal_ne_nil _)]
      exact ⟨_, rfl⟩
  obtain ⟨length, hbody⟩ := hbody
  rw [hread, hbody]
  exact
    { method := getStringMethod_methodOf parts.method_known rfl
      path := rfl
      query := fun key => by
        rw [HttpRequest.withStale, readHead, lookup_assignAll]
        simp
      version := rfl
      headers := fun name => by
        rw [HttpRequest.withStale, readHead, lookup_emplaceAll]
        simp
      body := rfl }

end RequestParts

/-- One call on a written request and whatever follows it. -/
theorem parseRequest_written {B : Type} [Buffer B] (parts : RequestParts)
    (htarget : parts.path ≠ [] ∨ parts.query ≠ []) (tail : Bytes) (buff : B)
    (hbuff : Buffer.readable buff = parts.render ++ tail) (indeterminate : UInt64)
    (receiveTime : Timestamp) :
    let result := (HttpContext.new indeterminate).parseRequest buff receiveTime
    result.outcome = .returned true ∧ result.context.state = .finish ∧
      result.context.getRequest.Holds parts ∧ Buffer.readable result.buffer = tail := by
  intro result
  have hne := RequestParts.target_ne_nil htarget
  have hparse := HttpContext.parseRequest_readable (HttpContext.new indeterminate)
    buff receiveTime
  rw [hbuff, ← parts.render_toText hne, HttpContext.new,
    (parts.toText hne).parse_render rfl receiveTime tail] at hparse
  obtain ⟨houtcome, hcontext, hrest⟩ := ParseResult.mk.inj hparse
  have hcontext : result.context = ⟨.finish, (parts.toText hne).read _ receiveTime⟩ :=
    hcontext.symm
  refine ⟨houtcome.symm, by rw [hcontext], ?_, hrest.symm⟩
  rw [hcontext]
  exact parts.holds_read hne indeterminate receiveTime

/-- `POST /api/data?id=123` with a body that holds a CRLF. -/
def RequestParts.post : RequestParts where
  method := ascii "POST"
  path := ascii "/api/data"
  query := [(ascii "id", ascii "123")]
  version := ascii "HTTP/1.1"
  headers := [(ascii "Host", ascii "127.0.0.1"), (ascii "Content-Length", ascii "4")]
  body := ascii "a\r\nb"
  method_known := by decide +kernel
  path_free := by decide +kernel
  query_keys := by decide +kernel
  query_values := by decide +kernel
  version_ne := by decide +kernel
  version_free := by decide +kernel
  headers_distinct := by decide +kernel
  headers_names := by decide +kernel
  headers_values := by decide +kernel
  body_announced := by decide +kernel
  body_unannounced := by decide +kernel
  body_fits := by decide +kernel

/-- The target may not be empty: `GET` followed by two blanks has only two
tokens. -/
def RequestParts.emptyTarget : RequestParts where
  method := ascii "GET"
  path := []
  query := []
  version := ascii "HTTP/1.1"
  headers := []
  body := []
  method_known := by decide +kernel
  path_free := by decide +kernel
  query_keys := by decide +kernel
  query_values := by decide +kernel
  version_ne := by decide +kernel
  version_free := by decide +kernel
  headers_distinct := by decide +kernel
  headers_names := by decide +kernel
  headers_values := by decide +kernel
  body_announced := by decide +kernel
  body_unannounced := by decide +kernel
  body_fits := by decide +kernel

theorem parseRequest_written_post :
    let result := (HttpContext.new 0).parseRequest
      (RequestParts.post.render ++ ascii "GET") 1
    result.outcome = .returned true ∧ result.context.state = .finish ∧
      result.context.getRequest.Holds .post ∧
      Buffer.readable result.buffer = ascii "GET" :=
  parseRequest_written .post (.inl (by decide)) (ascii "GET") _ rfl 0 1

theorem parseRequest_rejects_emptyTarget :
    ((HttpContext.new 0).parseRequest RequestParts.emptyTarget.render 1).outcome =
      .returned false := by
  decide +kernel

end CuteHttpServer
