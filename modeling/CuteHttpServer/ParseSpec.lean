/-
The parser against the grammar: a call returns `true` exactly when the bytes
hold the rest of one request, and then it leaves the bytes that follow.
-/
import CuteHttpServer.ParsePasses

namespace CuteHttpServer

open ByteString DelimitedText KeyedMap

/-- Lines a header block may consist of. -/
def AcceptedLines (lines : List Bytes) : Prop :=
  ∀ line ∈ lines, HeaderLineText line ∧ acceptsHeaderLine line = true

instance (lines : List Bytes) : Decidable (AcceptedLines lines) :=
  inferInstanceAs (Decidable (∀ line ∈ lines,
    HeaderLineText line ∧ acceptsHeaderLine line = true))

/-- The `Content-Length` value in force after more header lines. -/
def announcedLength (headers : StringMap) (lines : List Bytes) : Bytes :=
  ((headers.lookup contentLengthName).or
    (fieldValue (headerFields lines) contentLengthName)).getD []

theorem announcedLength_nil (request : HttpRequest) :
    announcedLength request.requestHeaders [] =
      request.getHeader contentLengthName := by
  simp [announcedLength, headerFields, HttpRequest.getHeader]

theorem announcedLength_empty (lines : List Bytes) :
    announcedLength ∅ lines = contentLengthField lines := by
  simp [announcedLength, contentLengthField]

theorem announcedLength_cons (request : HttpRequest) (line : Bytes)
    (lines : List Bytes) :
    announcedLength request.requestHeaders (line :: lines) =
      announcedLength (request.readHeaderLine line).requestHeaders lines := by
  unfold announcedLength HttpRequest.readHeaderLine headerFields
  rw [List.filterMap_cons]
  cases headerField line with
  | none => rfl
  | some field =>
      simp only [HttpRequest.addHeader, lookup_emplace, fieldValue_cons,
        Option.or_assoc]

theorem getHeader_eq_announcedLength (request : HttpRequest)
    (lines : List Bytes) :
    (request.readHeaderLines lines).getHeader contentLengthName =
      announcedLength request.requestHeaders lines :=
  request.getHeader_readHeaderLines lines contentLengthName

/-- The bytes hold the rest of a header block, its empty line and the body it
announces, followed by `tail`. -/
def HoldsHeaders (headers : StringMap) (bytes tail : Bytes) : Prop :=
  ∃ lines body, AcceptedLines lines ∧
    BodyMatches (announcedLength headers lines) body ∧
    bytes = withCrlf lines ++ CR :: LF :: (body ++ tail)

namespace HttpContext

/-- The bytes hold what a context still waits for, followed by `tail`. -/
def HoldsRest (context : HttpContext) (bytes tail : Bytes) : Prop :=
  match context.state with
  | .requestLine =>
      ∃ line rest, CrlfFree line ∧ acceptsRequestLine line = true ∧
        bytes = line ++ CR :: LF :: rest ∧
        HoldsHeaders context.request.requestHeaders rest tail
  | .headers => HoldsHeaders context.request.requestHeaders bytes tail
  | .body =>
      ∃ body, body.length = context.request.getContentLength.toNat ∧
        bytes = body ++ tail
  | .finish => bytes = tail

variable {B : Type} {receiveTime : Timestamp}

theorem takeRequestLine_accepted (context : HttpContext) {line : Bytes}
    (hline : acceptsRequestLine line = true) (buff : B) :
    context.takeRequestLine line buff receiveTime =
      .again
        { state := .headers
          request :=
            (context.request.readRequestLine line).setReceiveTime receiveTime }
        buff := by
  simp [takeRequestLine, parseRequestLine_eq, hline]

theorem takeRequestLine_rejected (context : HttpContext) {line : Bytes}
    (hline : acceptsRequestLine line = false) (buff : B) :
    context.takeRequestLine line buff receiveTime =
      .done ⟨.returned false, context, buff⟩ := by
  simp [takeRequestLine, parseRequestLine_eq, hline]

theorem takeHeaderLine_accepted (context : HttpContext) {line : Bytes}
    (hne : line ≠ []) (hline : acceptsHeaderLine line = true) (buff : B) :
    context.takeHeaderLine line buff =
      .again { context with request := context.request.readHeaderLine line }
        buff := by
  simp [takeHeaderLine, hne, parseHeaderLine_eq, hline]

theorem readHeaderLine_rejected (request : HttpRequest) {line : Bytes}
    (hline : acceptsHeaderLine line = false) :
    request.readHeaderLine line = request := by
  simp only [acceptsHeaderLine, Option.isSome_eq_false_iff,
    Option.isNone_iff_eq_none] at hline
  simp [HttpRequest.readHeaderLine, hline]

theorem takeHeaderLine_rejected (context : HttpContext) {line : Bytes}
    (hne : line ≠ []) (hline : acceptsHeaderLine line = false) (buff : B) :
    context.takeHeaderLine line buff =
      .done ⟨.returned false, context, buff⟩ := by
  simp [takeHeaderLine, hne, parseHeaderLine_eq, hline,
    readHeaderLine_rejected _ hline]

theorem takeHeaderLine_noBody (context : HttpContext)
    (hlength : context.request.getHeader contentLengthName = []) (buff : B) :
    context.takeHeaderLine [] buff =
      .done ⟨.returned true, { context with state := .finish }, buff⟩ := by
  simp [takeHeaderLine, hlength]

theorem takeHeaderLine_threw (context : HttpContext) {e : NumberError}
    (hlength : context.request.getHeader contentLengthName ≠ [])
    (hstoul : stoul (context.request.getHeader contentLengthName) = .error e)
    (buff : B) :
    context.takeHeaderLine [] buff =
      .done ⟨.threw (stoulException e), context, buff⟩ := by
  simp [takeHeaderLine, hlength, hstoul]

theorem takeHeaderLine_body (context : HttpContext) {length : UInt64}
    (hlength : context.request.getHeader contentLengthName ≠ [])
    (hstoul : stoul (context.request.getHeader contentLengthName) = .ok length)
    (buff : B) :
    context.takeHeaderLine [] buff =
      .again
        { state := .body, request := context.request.setContentLength length }
        buff := by
  simp [takeHeaderLine, hlength, hstoul]

theorem parseRequest_headers_nil (request : HttpRequest) :
    (HttpContext.mk .headers request).parseRequest ([] : Bytes) receiveTime =
      ⟨.returned false, ⟨.headers, request⟩, []⟩ := by
  have hlacks : (HttpContext.mk .headers request).LacksData ([] : Bytes) :=
    pairFree_nil CR LF
  rw [parseRequest_eq, parsePass_of_lacksData hlacks]

/-- Header lines that are accepted are all read by one call. -/
theorem parseRequest_headerLines {lines : List Bytes} (h : AcceptedLines lines)
    (request : HttpRequest) (rest : Bytes) :
    (HttpContext.mk .headers request).parseRequest (withCrlf lines ++ rest)
        receiveTime =
      (HttpContext.mk .headers (request.readHeaderLines lines)).parseRequest rest
        receiveTime := by
  induction lines generalizing request with
  | nil => rfl
  | cons line lines ih =>
      obtain ⟨⟨hne, hfree⟩, haccepted⟩ := h line List.mem_cons_self
      rw [withCrlf, joinLines_cons, List.append_assoc, List.cons_append,
        List.cons_append, parseRequest_eq, parsePass_headerLine rfl hfree,
        takeHeaderLine_accepted _ hne haccepted]
      exact ih (fun other hother => h other (List.mem_cons_of_mem line hother))
        (request.readHeaderLine line)

/-- The empty line and the body it announces complete the request. -/
theorem parseRequest_headEnd {request : HttpRequest} {body : Bytes}
    (h : BodyMatches (request.getHeader contentLengthName) body)
    (rest : Bytes) :
    (HttpContext.mk .headers request).parseRequest
        (CR :: LF :: (body ++ rest)) receiveTime =
      ⟨.returned true, ⟨.finish, request.readBody body⟩, rest⟩ := by
  have hpass : (HttpContext.mk .headers request).parsePass
      ([] ++ CR :: LF :: (body ++ rest)) receiveTime = _ :=
    parsePass_headerLine rfl (pairFree_nil CR LF) (body ++ rest)
  rw [List.nil_append] at hpass
  rw [parseRequest_eq, hpass]
  unfold BodyMatches at h
  by_cases hlength : request.getHeader contentLengthName = []
  · rw [if_pos hlength] at h
    rw [takeHeaderLine_noBody _ hlength, h, HttpRequest.readBody, if_pos hlength]
    rfl
  · rw [if_neg hlength] at h
    obtain ⟨length, hstoul, hbody⟩ := h
    have hrest : (HttpContext.mk .body (request.setContentLength length)).parsePass
        (body ++ rest) receiveTime = _ := parsePass_body rfl hbody rest
    rw [takeHeaderLine_body _ hlength hstoul, HttpRequest.readBody,
      if_neg hlength, hbody, UInt64.ofNat_toNat]
    dsimp only
    rw [parseRequest_eq, hrest]

theorem parseRequest_requestLine {line : Bytes} (hfree : CrlfFree line)
    (haccepted : acceptsRequestLine line = true) (request : HttpRequest)
    (rest : Bytes) :
    (HttpContext.mk .requestLine request).parseRequest
        (line ++ CR :: LF :: rest) receiveTime =
      (HttpContext.mk .headers
        ((request.readRequestLine line).setReceiveTime receiveTime)).parseRequest
          rest receiveTime := by
  rw [parseRequest_eq, parsePass_requestLine rfl hfree,
    takeRequestLine_accepted _ haccepted]

theorem parseRequest_holdsHeaders {request : HttpRequest} {bytes tail : Bytes}
    (h : HoldsHeaders request.requestHeaders bytes tail) :
    ∃ context', (HttpContext.mk .headers request).parseRequest bytes receiveTime =
      ⟨.returned true, context', tail⟩ := by
  obtain ⟨lines, body, hlines, hbody, rfl⟩ := h
  rw [← getHeader_eq_announcedLength] at hbody
  exact ⟨_, (parseRequest_headerLines hlines request _).trans
    (parseRequest_headEnd hbody tail)⟩

theorem parseRequest_of_holdsRest {context : HttpContext} {bytes tail : Bytes}
    (h : context.HoldsRest bytes tail) :
    ∃ context', context.parseRequest bytes receiveTime =
      ⟨.returned true, context', tail⟩ := by
  obtain ⟨state, request⟩ := context
  cases state with
  | requestLine =>
      obtain ⟨line, rest, hfree, haccepted, rfl, hheaders⟩ := h
      rw [parseRequest_requestLine hfree haccepted]
      exact parseRequest_holdsHeaders hheaders
  | headers => exact parseRequest_holdsHeaders h
  | body =>
      obtain ⟨body, hbody, rfl⟩ := h
      rw [parseRequest_eq, parsePass_body rfl hbody]
      exact ⟨_, rfl⟩
  | finish =>
      rw [parseRequest_eq, parsePass_finish rfl]
      exact ⟨_, congrArg (ParseResult.mk _ _) h⟩

/-- What one more accepted line, or the empty line, adds in front. -/
theorem holdsHeaders_cons {request : HttpRequest} {line rest tail : Bytes}
    (htext : HeaderLineText line) (haccepted : acceptsHeaderLine line = true)
    (h : HoldsHeaders (request.readHeaderLine line).requestHeaders rest tail) :
    HoldsHeaders request.requestHeaders (line ++ CR :: LF :: rest) tail := by
  obtain ⟨lines, body, hlines, hbody, rfl⟩ := h
  rw [← announcedLength_cons] at hbody
  refine ⟨line :: lines, body, ?_, hbody, ?_⟩
  · intro other hother
    rcases List.mem_cons.mp hother with rfl | hother
    · exact ⟨htext, haccepted⟩
    · exact hlines other hother
  · simp [withCrlf]

theorem holdsHeaders_end {request : HttpRequest} {body : Bytes}
    (hbody : BodyMatches (request.getHeader contentLengthName) body)
    (tail : Bytes) :
    HoldsHeaders request.requestHeaders (CR :: LF :: (body ++ tail)) tail := by
  refine ⟨[], body, fun line hline => absurd hline List.not_mem_nil, ?_, rfl⟩
  rwa [announcedLength_nil]

theorem takeRequestLine_done {context : HttpContext} {line rest : Bytes}
    {result : ParseResult Bytes}
    (h : context.takeRequestLine line rest receiveTime = .done result) :
    result = ⟨.returned false, context, rest⟩ := by
  cases haccepted : acceptsRequestLine line with
  | false =>
      rw [takeRequestLine_rejected _ haccepted, Pass.done.injEq] at h
      exact h.symm
  | true => simp [takeRequestLine_accepted _ haccepted] at h

/-- A header line ends the call by being rejected, or by ending a block without
a body or with a length that cannot be read. -/
theorem takeHeaderLine_done {context : HttpContext} {line rest : Bytes}
    {result : ParseResult Bytes}
    (h : context.takeHeaderLine line rest = .done result) :
    (result.outcome ≠ .returned true ∧ result.context = context) ∨
      (line = [] ∧ context.request.getHeader contentLengthName = [] ∧
        result = ⟨.returned true, { context with state := .finish }, rest⟩) := by
  by_cases hline : line = []
  · subst hline
    by_cases hlength : context.request.getHeader contentLengthName = []
    · rw [takeHeaderLine_noBody _ hlength, Pass.done.injEq] at h
      exact Or.inr ⟨rfl, hlength, h.symm⟩
    · cases hstoul : stoul (context.request.getHeader contentLengthName) with
      | error e =>
          rw [takeHeaderLine_threw (e := e) _ hlength hstoul, Pass.done.injEq] at h
          exact Or.inl (h ▸ ⟨by simp, rfl⟩)
      | ok length =>
          rw [takeHeaderLine_body _ hlength hstoul] at h
          simp at h
  · cases haccepted : acceptsHeaderLine line with
    | false =>
        rw [takeHeaderLine_rejected _ hline haccepted, Pass.done.injEq] at h
        exact Or.inl (h ▸ ⟨by simp, rfl⟩)
    | true => simp [takeHeaderLine_accepted _ hline haccepted] at h

/-- A header line goes round again by being accepted, or by ending the block
with a length that can be read. -/
theorem takeHeaderLine_next {context context' : HttpContext} {line rest buff' : Bytes}
    (h : context.takeHeaderLine line rest = .again context' buff') :
    buff' = rest ∧
      ((line ≠ [] ∧ acceptsHeaderLine line = true ∧
          context' = { context with request := context.request.readHeaderLine line }) ∨
        (line = [] ∧ context.request.getHeader contentLengthName ≠ [] ∧
          ∃ length, stoul (context.request.getHeader contentLengthName) = .ok length ∧
            context' = ⟨.body, context.request.setContentLength length⟩)) := by
  have hbuffer := congrArg Pass.buffer h
  rw [buffer_takeHeaderLine, Pass.buffer_again] at hbuffer
  refine ⟨hbuffer.symm, ?_⟩
  by_cases hline : line = []
  · subst hline
    by_cases hlength : context.request.getHeader contentLengthName = []
    · simp [takeHeaderLine_noBody _ hlength] at h
    · cases hstoul : stoul (context.request.getHeader contentLengthName) with
      | error e => simp [takeHeaderLine_threw (e := e) _ hlength hstoul] at h
      | ok length =>
          rw [takeHeaderLine_body _ hlength hstoul, Pass.again.injEq] at h
          exact Or.inr ⟨rfl, hlength, length, rfl, h.1.symm⟩
  · cases haccepted : acceptsHeaderLine line with
    | false => simp [takeHeaderLine_rejected _ hline haccepted] at h
    | true =>
        rw [takeHeaderLine_accepted _ hline haccepted, Pass.again.injEq] at h
        exact Or.inl ⟨hline, rfl, h.1.symm⟩

/-- A pass that returns `true` has found the end of a request. -/
theorem holdsRest_of_done {context context' : HttpContext} {bytes tail : Bytes}
    (h : context.parsePass bytes receiveTime = .done ⟨.returned true, context', tail⟩) :
    context.HoldsRest bytes tail := by
  obtain ⟨state, request⟩ := context
  by_cases hlacks : (HttpContext.mk state request).LacksData bytes
  · simp [parsePass_of_lacksData hlacks] at h
  rcases ready_cases hlacks with ⟨hstate, line, rest, hfree, rfl⟩ |
    ⟨hstate, body, rest, hbody, rfl⟩ | hstate
  · rcases hstate with hstate | hstate
    · rw [parsePass_requestLine hstate hfree] at h
      have hresult := congrArg ParseResult.outcome (takeRequestLine_done h)
      simp at hresult
    · obtain rfl : state = .headers := hstate
      rw [parsePass_headerLine rfl hfree] at h
      rcases takeHeaderLine_done h with ⟨houtcome, _⟩ | ⟨rfl, hlength, hresult⟩
      · exact absurd rfl houtcome
      · obtain rfl : tail = rest := congrArg ParseResult.buffer hresult
        have hbody : BodyMatches (request.getHeader contentLengthName) [] := by
          rw [BodyMatches, if_pos hlength]
        exact holdsHeaders_end hbody tail
  · obtain rfl : state = .body := hstate
    rw [parsePass_body rfl hbody, Pass.done.injEq] at h
    obtain rfl : rest = tail := congrArg ParseResult.buffer h
    exact ⟨body, hbody, rfl⟩
  · obtain rfl : state = .finish := hstate
    rw [parsePass_finish rfl, Pass.done.injEq] at h
    exact congrArg ParseResult.buffer h

/-- A pass that goes round again has taken its part of the request. -/
theorem holdsRest_of_again {context context' : HttpContext} {bytes buff' tail : Bytes}
    (h : context.parsePass bytes receiveTime = .again context' buff')
    (hrest : context'.HoldsRest buff' tail) : context.HoldsRest bytes tail := by
  obtain ⟨state, request⟩ := context
  by_cases hlacks : (HttpContext.mk state request).LacksData bytes
  · simp [parsePass_of_lacksData hlacks] at h
  rcases ready_cases hlacks with ⟨hstate, line, rest, hfree, rfl⟩ |
    ⟨hstate, body, rest, hbody, rfl⟩ | hstate
  · rcases hstate with hstate | hstate
    · obtain rfl : state = .requestLine := hstate
      rw [parsePass_requestLine rfl hfree] at h
      cases haccepted : acceptsRequestLine line with
      | false => simp [takeRequestLine_rejected _ haccepted] at h
      | true =>
          rw [takeRequestLine_accepted _ haccepted, Pass.again.injEq] at h
          obtain ⟨rfl, rfl⟩ := h
          exact ⟨line, rest, hfree, haccepted, rfl, hrest⟩
    · obtain rfl : state = .headers := hstate
      rw [parsePass_headerLine rfl hfree] at h
      obtain ⟨rfl, ⟨hline, haccepted, rfl⟩ | ⟨rfl, hlength, length, hstoul, rfl⟩⟩ :=
        takeHeaderLine_next h
      · exact holdsHeaders_cons ⟨hline, hfree⟩ haccepted hrest
      · obtain ⟨body, hbody, rfl⟩ := hrest
        refine holdsHeaders_end ?_ tail
        rw [BodyMatches, if_neg hlength]
        exact ⟨length, hstoul, hbody⟩
  · simp [parsePass_body hstate hbody] at h
  · simp [parsePass_finish hstate] at h

theorem holdsRest_of_returned {context context' : HttpContext}
    {bytes tail : Bytes}
    (h : context.parseRequest bytes receiveTime =
      ⟨.returned true, context', tail⟩) :
    context.HoldsRest bytes tail := by
  revert h
  refine parseRequest_induction receiveTime context bytes ?_
  intro context bytes ih h
  rw [parseRequest_eq] at h
  cases hpass : context.parsePass bytes receiveTime with
  | done result =>
      simp only [hpass] at h
      exact holdsRest_of_done (h ▸ hpass)
  | again context'' buff' =>
      simp only [hpass] at h
      exact holdsRest_of_again hpass (ih context'' buff' hpass h)

/-- One call returns `true` and leaves `tail` exactly when the bytes hold the
rest of the request followed by `tail`. -/
theorem parseRequest_returned_iff (context : HttpContext) (bytes tail : Bytes)
    (receiveTime : Timestamp) :
    (∃ context', context.parseRequest bytes receiveTime =
        ⟨.returned true, context', tail⟩) ↔
      context.HoldsRest bytes tail :=
  ⟨fun ⟨_, h⟩ => holdsRest_of_returned h, parseRequest_of_holdsRest⟩

/-- Only `FINISH` returns `true`. -/
theorem parsePass_done_finish {context : HttpContext} {buff : Bytes}
    {result : ParseResult Bytes}
    (h : context.parsePass buff receiveTime = .done result) :
    result.outcome = .returned true ↔ result.context.state = .finish := by
  by_cases hlacks : context.LacksData buff
  · rw [parsePass_of_lacksData hlacks, Pass.done.injEq] at h
    have hstate : context.state ≠ .finish := by
      intro hfinish
      simp [LacksData, hfinish] at hlacks
    simp [← h, hstate]
  rcases ready_cases hlacks with ⟨hstate, line, rest, hfree, rfl⟩ |
    ⟨hstate, body, rest, hbody, rfl⟩ | hstate
  · rcases hstate with hstate | hstate
    · rw [parsePass_requestLine hstate hfree] at h
      simp [takeRequestLine_done h, hstate]
    · rw [parsePass_headerLine hstate hfree] at h
      rcases takeHeaderLine_done h with ⟨houtcome, hcontext⟩ | ⟨_, _, hresult⟩
      · simp [houtcome, hcontext, hstate]
      · simp [hresult]
  · rw [parsePass_body hstate hbody, Pass.done.injEq] at h
    simp [← h]
  · rw [parsePass_finish hstate, Pass.done.injEq] at h
    simp [← h, hstate]

theorem parseRequest_finish_iff (context : HttpContext) (buff : Bytes)
    (receiveTime : Timestamp) :
    (context.parseRequest buff receiveTime).outcome = .returned true ↔
      (context.parseRequest buff receiveTime).context.state = .finish := by
  refine parseRequest_induction receiveTime context buff ?_
  intro context buff ih
  rw [parseRequest_eq]
  cases hpass : context.parsePass buff receiveTime with
  | done result => exact parsePass_done_finish hpass
  | again context' buff' => exact ih context' buff' hpass

end HttpContext

/-- A whole request is read in one call, whatever follows it. -/
theorem RequestText.parse_render (text : RequestText) {base : HttpRequest}
    (hbase : base.requestHeaders = ∅) (receiveTime : Timestamp)
    (rest : Bytes) :
    (HttpContext.mk .requestLine base).parseRequest (text.render ++ rest)
        receiveTime =
      ⟨.returned true, ⟨.finish, text.read base receiveTime⟩, rest⟩ := by
  have hlines : AcceptedLines text.headerLines := fun line hline =>
    ⟨text.headerLines_text line hline, text.headerLines_accepted line hline⟩
  have hrender : text.render ++ rest =
      text.requestLine ++ CR :: LF ::
        (withCrlf text.headerLines ++ CR :: LF :: (text.body ++ rest)) := by
    simp [RequestText.render, withCrlf]
  rw [hrender, HttpContext.parseRequest_requestLine text.requestLine_free
    text.requestLine_accepted, HttpContext.parseRequest_headerLines hlines]
  apply HttpContext.parseRequest_headEnd
  rw [HttpRequest.contentLength_readHeaderLines]
  · exact text.body_matches
  · exact hbase

/-- Where a request text ends is a matter of the bytes alone. -/
theorem RequestText.render_append_cancel {text text' : RequestText}
    {rest rest' : Bytes} (h : text.render ++ rest = text'.render ++ rest') :
    rest = rest' := by
  have hparse := text.parse_render (HttpRequest.requestHeaders_new 0) 0 rest
  rw [h, text'.parse_render rfl] at hparse
  exact (congrArg ParseResult.buffer hparse).symm

/-- From the start of a request, the rest of it is a whole one. -/
theorem holdsRest_requestLine_iff {base : HttpRequest}
    (hbase : base.requestHeaders = ∅) (bytes tail : Bytes) :
    (HttpContext.mk .requestLine base).HoldsRest bytes tail ↔
      ∃ text : RequestText, bytes = text.render ++ tail := by
  constructor
  · rintro ⟨line, rest, hfree, haccepted, rfl, lines, body, hlines, hbody, rfl⟩
    rw [hbase, announcedLength_empty] at hbody
    refine ⟨⟨line, lines, body, hfree, haccepted, fun l hl => (hlines l hl).1,
      fun l hl => (hlines l hl).2, hbody⟩, ?_⟩
    simp [RequestText.render, withCrlf]
  · rintro ⟨text, rfl⟩
    exact HttpContext.holdsRest_of_returned (text.parse_render hbase 0 tail)

end CuteHttpServer
