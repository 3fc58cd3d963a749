/-
Where the body ends: which header blocks the parser frames as their
`Content-Length` values say, and which it frames by a value that a stricter
reader would refuse or read otherwise.
-/
import CuteHttpServer.AcceptanceSoundness

namespace CuteHttpServer

open ByteString DelimitedText KeyedMap StepRun

/-- All `Content-Length` values of a header block, in order. -/
def contentLengthValues (lines : List Bytes) : List Bytes :=
  ((headerFields lines).filter (·.1 = contentLengthName)).map Prod.snd

theorem fieldValue_eq_head? {ν : Type} (fields : List (Bytes × ν)) (name : Bytes) :
    fieldValue fields name = ((fields.filter (·.1 = name)).map Prod.snd).head? := by
  induction fields with
  | nil => rfl
  | cons field fields ih =>
      rw [fieldValue_cons, ih]
      by_cases hname : field.1 = name
      · simp [hname]
      · have hname' : name ≠ field.1 := fun h => hname h.symm
        simp [hname, hname']

theorem contentLengthField_eq (lines : List Bytes) :
    contentLengthField lines = (contentLengthValues lines).headD [] := by
  rw [contentLengthField, fieldValue_eq_head?, contentLengthValues,
    List.headD_eq_head?_getD]

/-- The header blocks without a doubtful `Content-Length`: none at all, or a
first one that `std::stoul` refuses, or only strings of digits for one number
that fits. -/
def FramingClear (lines : List Bytes) : Prop :=
  ∀ first others, contentLengthValues lines = first :: others →
    first ≠ [] ∧
      ((∃ e, stoul first = .error e) ∨
        ∃ n < UInt64.size, ∀ value ∈ first :: others, strictDecimal value = some n)

variable {B : Type} [Buffer B]

/-- Every run on a stream with this header block that gets to the body or
beyond takes the length that each `Content-Length` of the block denotes. -/
def FramesUnambiguously (B : Type) [Buffer B] (requestLine : Bytes)
    (lines : List Bytes) : Prop :=
  ∀ (indeterminate : UInt64) (arrivals : List Arrival) (rest : Bytes),
    received arrivals = withCrlf (requestLine :: lines) ++ CR :: LF :: rest →
    let context := (runFrom Connection.parse
      (Connection.fresh indeterminate : Connection B) arrivals).1.context
    context.state = .body ∨ context.state = .finish →
    ∀ value ∈ contentLengthValues lines,
      strictDecimal value = some context.getRequest.getContentLength.toNat

/-- A line in a call of its own. -/
def lineArrival (line : Bytes) : Arrival := ⟨line ++ [CR, LF], default⟩

theorem received_lineArrivals (lines : List Bytes) :
    received (lines.map lineArrival) = withCrlf lines := by
  induction lines with
  | nil => rfl
  | cons line lines ih => simp [lineArrival, ih, withCrlf]

theorem parse_lineArrival {request : HttpRequest} {line : Bytes}
    (hline : HeaderLineText line) :
    ((⟨⟨.headers, request⟩, []⟩ : Connection Bytes).parse (lineArrival line)).1 =
      ⟨⟨.headers, request.readHeaderLine line⟩, []⟩ := by
  have hpass : (HttpContext.mk .headers request).parsePass (line ++ [CR, LF]) default =
      _ := HttpContext.parsePass_headerLine rfl hline.2 []
  simp only [Connection.parse, lineArrival, append_bytes, List.nil_append]
  rw [HttpContext.parseRequest_eq, hpass]
  cases haccepted : acceptsHeaderLine line with
  | false =>
      rw [HttpContext.takeHeaderLine_rejected _ hline.1 haccepted,
        HttpContext.readHeaderLine_rejected _ haccepted]
  | true =>
      rw [HttpContext.takeHeaderLine_accepted _ hline.1 haccepted]
      dsimp only
      rw [HttpContext.parseRequest_headers_nil]

theorem runFrom_lineArrivals {lines : List Bytes}
    (hlines : ∀ line ∈ lines, HeaderLineText line) (request : HttpRequest) :
    (runFrom Connection.parse (⟨⟨.headers, request⟩, []⟩ : Connection Bytes)
        (lines.map lineArrival)).1 =
      ⟨⟨.headers, request.readHeaderLines lines⟩, []⟩ := by
  induction lines generalizing request with
  | nil => rfl
  | cons line lines ih =>
      rw [List.map_cons, runFrom_cons]
      dsimp only
      rw [parse_lineArrival (hlines line List.mem_cons_self)]
      exact ih (fun other hother => hlines other (List.mem_cons_of_mem line hother))
        (request.readHeaderLine line)

/-- Fed line by line, the parser gets to the end of any header block. -/
theorem runFrom_head (indeterminate : UInt64) {requestLine : Bytes}
    (hfree : CrlfFree requestLine)
    (haccepted : acceptsRequestLine requestLine = true) {lines : List Bytes}
    (hlines : ∀ line ∈ lines, HeaderLineText line) :
    (runFrom Connection.parse
        (⟨HttpContext.new indeterminate, []⟩ : Connection Bytes)
        ((requestLine :: lines).map lineArrival)).1 =
      ⟨⟨.headers, (((HttpRequest.new indeterminate).readRequestLine
        requestLine).setReceiveTime default).readHeaderLines lines⟩, []⟩ := by
  have hcall : HttpContext.parseRequest _ _ default = _ :=
    HttpContext.parseRequest_requestLine hfree haccepted (HttpRequest.new indeterminate) []
  rw [HttpContext.parseRequest_headers_nil] at hcall
  rw [List.map_cons, runFrom_cons, ← runFrom_lineArrivals hlines]
  simp only [Connection.parse, lineArrival, append_bytes, List.nil_append,
    HttpContext.new, hcall]

/-- The run that feeds a block line by line and then the empty line gets past
it whenever the first value, if there is one, can be read. -/
theorem runFrom_block (indeterminate : UInt64) {requestLine : Bytes}
    (hfree : CrlfFree requestLine)
    (haccepted : acceptsRequestLine requestLine = true) {lines : List Bytes}
    (hlines : ∀ line ∈ lines, HeaderLineText line) :
    let context := (runFrom Connection.parse
      (⟨HttpContext.new indeterminate, []⟩ : Connection Bytes)
      ((requestLine :: lines ++ [[]]).map lineArrival)).1.context
    (contentLengthField lines = [] → context.state = .finish) ∧
      ∀ length, contentLengthField lines ≠ [] →
        stoul (contentLengthField lines) = .ok length →
        (context.state = .body ∨ context.state = .finish) ∧
          context.getRequest.getContentLength = length := by
  intro context
  have hrun : context = ((⟨⟨.headers, (((HttpRequest.new
      indeterminate).readRequestLine requestLine).setReceiveTime
      default).readHeaderLines lines⟩, []⟩ : Connection Bytes).parse
      (lineArrival [])).1.context := by
    simp only [context, List.map_append, List.map_singleton, runFrom_append,
      runFrom_head indeterminate hfree haccepted hlines, runFrom_singleton]
  set request := (((HttpRequest.new indeterminate).readRequestLine
    requestLine).setReceiveTime default).readHeaderLines lines with hrequest
  have hfield : request.getHeader contentLengthName = contentLengthField lines :=
    HttpRequest.contentLength_readHeaderLines (by rfl) lines
  have hpass : (HttpContext.mk .headers request).parsePass ([] ++ [CR, LF]) default = _ :=
    HttpContext.parsePass_headerLine rfl (pairFree_nil CR LF) []
  simp only [Connection.parse, lineArrival, append_bytes, List.nil_append] at hrun
  rw [List.nil_append] at hpass
  rw [HttpContext.parseRequest_eq, hpass] at hrun
  rw [← hfield]
  constructor
  · intro hlength
    rw [HttpContext.takeHeaderLine_noBody ⟨.headers, request⟩ hlength] at hrun
    rw [hrun]
  · intro length hlength hstoul
    rw [HttpContext.takeHeaderLine_body ⟨.headers, request⟩ hlength hstoul] at hrun
    dsimp only at hrun
    rw [HttpContext.parseRequest_eq] at hrun
    by_cases hlacks : (HttpContext.mk .body
        (request.setContentLength length)).LacksData ([] : Bytes)
    · rw [HttpContext.parsePass_of_lacksData hlacks] at hrun
      rw [hrun]
      exact ⟨Or.inl rfl, rfl⟩
    · have hzero : ([] : Bytes).length =
          (request.setContentLength length).getContentLength.toNat := by
        have hle : ¬ 0 < (request.setContentLength length).getContentLength.toNat :=
          hlacks
        simp only [List.length_nil]
        omega
      have hbody : (HttpContext.mk .body (request.setContentLength length)).parsePass
          ([] ++ []) default = _ := HttpContext.parsePass_body rfl hzero []
      rw [List.append_nil] at hbody
      rw [hbody] at hrun
      rw [hrun]
      exact ⟨Or.inr rfl, rfl⟩

/-- A value that every field agrees on is the one `std::stoul` reads. -/
theorem strictDecimal_of_clear {first value : Bytes} {others : List Bytes}
    {length : UInt64} {n : Nat} (hn : n < UInt64.size)
    (hvalues : ∀ value ∈ first :: others, strictDecimal value = some n)
    (hstoul : stoul first = .ok length) (hvalue : value ∈ first :: others) :
    strictDecimal value = some length.toNat := by
  have hfirst := stoul_of_strictDecimal (hvalues first List.mem_cons_self) hn
  rw [hstoul, Except.ok.injEq] at hfirst
  rw [hvalues value hvalue, hfirst, UInt64.toNat_ofNat_of_lt' hn]

/-- The context past a header block with clear framing has the length that
each value denotes. -/
theorem contentLength_of_clear {lines : List Bytes} (hclear : FramingClear lines)
    {length : UInt64}
    (hstoul : stoul (contentLengthField lines) = .ok length) :
    ∀ value ∈ contentLengthValues lines,
      strictDecimal value = some length.toNat := by
  intro value hvalue
  rw [contentLengthField_eq] at hstoul
  cases hvalues : contentLengthValues lines with
  | nil => simp [hvalues] at hvalue
  | cons first others =>
      rw [hvalues] at hvalue hstoul
      rcases (hclear first others hvalues).2 with ⟨e, he⟩ | ⟨n, hn, hall⟩
      · simp [he] at hstoul
      · exact strictDecimal_of_clear hn hall hstoul hvalue

/-- Past the header block, the bytes taken begin with a head, and the length is
the one read from its `Content-Length`, if it has any. -/
theorem Progress.length_read {base : HttpRequest} (hbase : base.requestHeaders = ∅)
    {consumed : Bytes} {context : HttpContext} (h : Progress base consumed context)
    (hstate : context.state = .body ∨ context.state = .finish) :
    ∃ (head : RequestHead) (more : Bytes), consumed = head.text ++ CR :: LF :: more ∧
      (head.contentLength = [] ∨
        stoul head.contentLength = .ok context.getRequest.getContentLength) := by
  cases h with
  | requestLine => simp at hstate
  | headers => simp at hstate
  | undecodable => simp at hstate
  | body head length hlength hstoul => exact ⟨head, [], rfl, Or.inr hstoul⟩
  | finish head body hbody =>
      refine ⟨head, body, rfl, ?_⟩
      by_cases hlength : head.contentLength = []
      · exact Or.inl hlength
      · have hfield := head.getHeader_read hbase
        have hbytes : ((head.read base).readBody body).getContentLength.toNat =
            body.length := getContentLength_readBody (by rwa [hfield]) (by rwa [hfield])
        rw [BodyMatches, if_neg hlength] at hbody
        obtain ⟨length, hstoul, hbody⟩ := hbody
        rw [hbody] at hbytes
        rw [HttpContext.getRequest, UInt64.toNat_inj.mp hbytes]
        exact Or.inr hstoul

/-- A run that feeds the block line by line shows each value that is read
otherwise than it says. -/
theorem framingClear_of_frames {requestLine : Bytes} (hfree : CrlfFree requestLine)
    (haccepted : acceptsRequestLine requestLine = true) {lines : List Bytes}
    (hlines : ∀ line ∈ lines, HeaderLineText line)
    (hframes : FramesUnambiguously B requestLine lines) : FramingClear lines := by
  intro first others hvalues
  have hreceived : received ((requestLine :: lines ++ [[]]).map lineArrival) =
      withCrlf (requestLine :: lines) ++ CR :: LF :: [] := by
    rw [received_lineArrivals]
    simp [withCrlf]
  have hall := hframes 0 _ [] hreceived
  have hview := Connection.runFrom_parse_view (Connection.fresh 0 : Connection B)
    ((requestLine :: lines ++ [[]]).map lineArrival)
  rw [Connection.view_fresh] at hview
  have hblock := runFrom_block 0 hfree haccepted hlines
  rw [hview] at hblock
  simp only [contentLengthField_eq, hvalues, List.headD_cons] at hblock hall
  have hfirst : first ≠ [] := by
    intro hempty
    have hstrict := hall (Or.inr (hblock.1 hempty)) first List.mem_cons_self
    rw [hempty] at hstrict
    exact absurd hstrict (by simp [strictDecimal])
  refine ⟨hfirst, ?_⟩
  cases hstoul : stoul first with
  | error e => exact Or.inl ⟨e, rfl⟩
  | ok length =>
      obtain ⟨hstate, hlength⟩ := hblock.2 length hfirst hstoul
      have hsame := hall hstate
      exact Or.inr ⟨_, UInt64.toNat_lt _, hsame⟩

/-- Conversely, the stream determines the header block, so the head that any
run has read has the lines of this one. -/
theorem frames_of_framingClear {requestLine : Bytes} (hfree : CrlfFree requestLine)
    (haccepted : acceptsRequestLine requestLine = true) {lines : List Bytes}
    (hlines : ∀ line ∈ lines, HeaderLineText line) (hclear : FramingClear lines) :
    FramesUnambiguously B requestLine lines := by
  intro indeterminate arrivals rest hreceived context hstate value hvalue
  have hview := Connection.runFrom_parse_view
    (Connection.fresh indeterminate : Connection B) arrivals
  rw [Connection.view_fresh] at hview
  obtain ⟨consumed, hconsumed, hprogress⟩ := Connection.parse_progress
    (HttpRequest.requestHeaders_new indeterminate) [] arrivals
  change Progress _ consumed (runFrom Connection.parse
    ⟨HttpContext.new indeterminate, []⟩ arrivals).1.context at hprogress
  rw [hview] at hprogress
  obtain ⟨head, more, rfl, hlength⟩ := hprogress.length_read
    (HttpRequest.requestHeaders_new indeterminate) hstate
  have hblock : head.headerLines = lines := by
    rw [List.nil_append, List.append_assoc, List.cons_append, List.cons_append] at hconsumed
    rw [← headerBlock_text head, ← hconsumed, hreceived]
    exact headerBlock_text ⟨[], requestLine, lines, default,
      fun line hline => absurd hline List.not_mem_nil, hfree, haccepted, hlines⟩ rest
  rw [RequestHead.contentLength, hblock] at hlength
  rcases hlength with hnone | hstoul
  · rw [contentLengthField_eq] at hnone
    cases hvalues : contentLengthValues lines with
    | nil => simp [hvalues] at hvalue
    | cons first others =>
        rw [hvalues] at hnone
        exact absurd hnone (hclear first others hvalues).1
  · exact contentLength_of_clear hclear hstoul value hvalue

/-- A header block is framed as all its `Content-Length` values say, in every
run, if and only if it has none, its first one is refused by `std::stoul`, or
all are digit strings for one number below `2 ^ 64`. -/
theorem framesUnambiguously_iff (requestLine : Bytes)
    (hfree : CrlfFree requestLine)
    (haccepted : acceptsRequestLine requestLine = true) (lines : List Bytes)
    (hlines : ∀ line ∈ lines, HeaderLineText line) :
    FramesUnambiguously B requestLine lines ↔ FramingClear lines :=
  ⟨framingClear_of_frames hfree haccepted hlines,
    frames_of_framingClear hfree haccepted hlines⟩

/-- A block with one plain length. -/
theorem framesUnambiguously_plain :
    FramesUnambiguously Bytes (ascii "PUT /a HTTP/1.1") [ascii "Content-Length: 5 "] ↔
      FramingClear [ascii "Content-Length: 5 "] :=
  framesUnambiguously_iff (ascii "PUT /a HTTP/1.1") (by decide) (by decide)
    [ascii "Content-Length: 5 "] (by
      intro line hline
      rw [List.mem_singleton.mp hline]
      exact ⟨by decide, by decide⟩)

/-- Two different lengths: the parser goes by the first and never sees the
second. -/
theorem framesUnambiguously_not_two_lengths :
    ¬ FramesUnambiguously Bytes (ascii "PUT /a HTTP/1.1")
      [ascii "Content-Length: 5", ascii "Content-Length: 6"] := by
  intro hframes
  have hsecond := hframes 0
    [⟨ascii "PUT /a HTTP/1.1\r\nContent-Length: 5\r\nContent-Length: 6\r\n\r\n", 1⟩]
    [] (by decide +kernel) (Or.inl (by decide +kernel)) (ascii "6")
    (by decide +kernel)
  exact absurd hsecond (by decide +kernel)

end CuteHttpServer
