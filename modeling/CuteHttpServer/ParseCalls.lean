/-
Any number of `ParseRequest` calls on one context while bytes keep arriving.
The bytes taken so far always read as rejected lines, an accepted request line,
header lines and a body, and the context is what those leave in it.
-/
import CuteHttpServer.ParseSpec
import CuteHttpServer.StepRun

namespace CuteHttpServer

open ByteString DelimitedText KeyedMap StepRun

/-- What is kept between calls: the context and the unread bytes. -/
structure Connection (B : Type) where
  context : HttpContext
  buffer : B

/-- Bytes that come in, and when. -/
structure Arrival where
  bytes : Bytes
  time : Timestamp
deriving DecidableEq, Repr

/-- All bytes of a list of arrivals. -/
def received (arrivals : List Arrival) : Bytes := arrivals.flatMap Arrival.bytes

@[simp] theorem received_nil : received [] = [] := rfl

@[simp] theorem received_cons (arrival : Arrival) (arrivals : List Arrival) :
    received (arrival :: arrivals) = arrival.bytes ++ received arrivals := rfl

@[simp] theorem received_append (arrivals arrivals' : List Arrival) :
    received (arrivals ++ arrivals') = received arrivals ++ received arrivals' := by
  simp [received]

namespace Connection

variable {B : Type} [Buffer B]

/-- One `ParseRequest` call, after the bytes of an arrival have been appended
to the buffer. -/
def parse (connection : Connection B) (arrival : Arrival) :
    Connection B × ParseOutcome :=
  let result := connection.context.parseRequest
    (Buffer.append connection.buffer arrival.bytes) arrival.time
  (⟨result.context, result.buffer⟩, result.outcome)

/-- The connection as its bytes are seen. -/
def view (connection : Connection B) : Connection Bytes :=
  ⟨connection.context, Buffer.readable connection.buffer⟩

theorem parse_view (connection : Connection B) (arrival : Arrival) :
    connection.view.parse arrival =
      ((connection.parse arrival).1.view, (connection.parse arrival).2) := by
  have h := connection.context.parseRequest_readable
    (Buffer.append connection.buffer arrival.bytes) arrival.time
  rw [Buffer.readable_append] at h
  simp only [parse, view, append_bytes, h]

/-- A run of calls sees the buffers only through their readable bytes. -/
theorem runFrom_parse_view (connection : Connection B) (arrivals : List Arrival) :
    runFrom parse connection.view arrivals =
      ((runFrom parse connection arrivals).1.view,
        (runFrom parse connection arrivals).2) := by
  have h := runFrom_simulation (σ := Connection Bytes) (τ := Connection B)
    parse parse (fun bytes other => bytes = other.view) ?_ connection.view connection
    rfl arrivals
  · exact Prod.ext h.1 h.2
  · rintro bytes other arrival rfl
    rw [parse_view]
    exact ⟨rfl, rfl⟩

end Connection

/-- A request as far as its header block: what came before the first accepted
request line, that line, and the header lines after it. -/
structure RequestHead where
  skipped : List Bytes
  requestLine : Bytes
  headerLines : List Bytes
  receiveTime : Timestamp
  skipped_rejected : ∀ line ∈ skipped,
    CrlfFree line ∧ acceptsRequestLine line = false
  requestLine_free : CrlfFree requestLine
  requestLine_accepted : acceptsRequestLine requestLine = true
  headerLines_text : ∀ line ∈ headerLines, HeaderLineText line

namespace RequestHead

def text (head : RequestHead) : Bytes :=
  withCrlf (head.skipped ++ head.requestLine :: head.headerLines)

/-- What the head leaves in a request object; lines without a colon leave
nothing. -/
def read (head : RequestHead) (base : HttpRequest) : HttpRequest :=
  ((base.readRequestLine head.requestLine).setReceiveTime
    head.receiveTime).readHeaderLines head.headerLines

def contentLength (head : RequestHead) : Bytes :=
  contentLengthField head.headerLines

/-- One more header line. -/
def addLine (head : RequestHead) (line : Bytes) (hline : HeaderLineText line) :
    RequestHead :=
  { head with
    headerLines := head.headerLines ++ [line]
    headerLines_text := by
      intro other hother
      rcases List.mem_append.mp hother with hother | hother
      · exact head.headerLines_text other hother
      · rw [List.mem_singleton.mp hother]
        exact hline }

@[simp] theorem text_addLine (head : RequestHead) (line : Bytes)
    (hline : HeaderLineText line) :
    (head.addLine line hline).text = head.text ++ (line ++ [CR, LF]) := by
  simp [text, addLine, withCrlf]

@[simp] theorem read_addLine (head : RequestHead) (line : Bytes)
    (hline : HeaderLineText line) (base : HttpRequest) :
    (head.addLine line hline).read base = (head.read base).readHeaderLine line :=
  HttpRequest.readHeaderLines_append _ _ _

theorem getHeader_read (head : RequestHead) {base : HttpRequest}
    (hbase : base.requestHeaders = ∅) :
    (head.read base).getHeader contentLengthName = head.contentLength := by
  apply HttpRequest.contentLength_readHeaderLines
  exact hbase

theorem text_free (head : RequestHead) :
    ∀ line ∈ head.skipped ++ head.requestLine :: head.headerLines,
      CrlfFree line := by
  intro line hline
  rcases List.mem_append.mp hline with hline | hline
  · exact (head.skipped_rejected line hline).1
  · rcases List.mem_cons.mp hline with rfl | hline
    · exact head.requestLine_free
    · exact (head.headerLines_text line hline).2

end RequestHead

/-- The header block of a byte stream: the lines after the first accepted
request line, up to the first empty one. -/
def headerBlock (stream : Bytes) : List Bytes :=
  ((completeLines CR LF stream).dropWhile fun line =>
    !acceptsRequestLine line).tail.takeWhile (· ≠ [])

theorem completeLines_text (head : RequestHead) (rest : Bytes) :
    completeLines CR LF (head.text ++ CR :: LF :: rest) =
      head.skipped ++ head.requestLine ::
        (head.headerLines ++ [] :: completeLines CR LF rest) := by
  rw [RequestHead.text, withCrlf,
    completeLines_joinLines_append CR_ne_LF head.text_free,
    ← List.nil_append (CR :: LF :: rest),
    completeLines_append_pair CR_ne_LF (pairFree_nil CR LF)]
  simp

theorem headerBlock_text (head : RequestHead) (rest : Bytes) :
    headerBlock (head.text ++ CR :: LF :: rest) = head.headerLines := by
  have hskipped : ∀ line ∈ head.skipped, (!acceptsRequestLine line) = true := by
    intro line hline
    simp [(head.skipped_rejected line hline).2]
  have hheaders : ∀ line ∈ head.headerLines, decide (line ≠ []) = true := by
    intro line hline
    simpa using (head.headerLines_text line hline).1
  rw [headerBlock, completeLines_text, List.dropWhile_append_of_pos hskipped,
    List.dropWhile_cons_of_neg (by simp [head.requestLine_accepted]),
    List.tail_cons, List.takeWhile_append_of_pos hheaders]
  simp

/-- Where the parser is after taking some bytes, having started on `base`. -/
inductive Progress (base : HttpRequest) : Bytes → HttpContext → Prop
  | requestLine (skipped : List Bytes)
      (hskipped : ∀ line ∈ skipped,
        CrlfFree line ∧ acceptsRequestLine line = false) :
      Progress base (withCrlf skipped) ⟨.requestLine, base⟩
  | headers (head : RequestHead) :
      Progress base head.text ⟨.headers, head.read base⟩
  -- After the exception of `std::stoul` the context stays among the headers,
  -- with a value that will make every later empty line throw again.
  | undecodable (consumed : Bytes) (request : HttpRequest) (e : NumberError)
      (hlength : request.getHeader contentLengthName ≠ [])
      (hstoul : stoul (request.getHeader contentLengthName) = .error e) :
      Progress base consumed ⟨.headers, request⟩
  | body (head : RequestHead) (length : UInt64)
      (hlength : head.contentLength ≠ [])
      (hstoul : stoul head.contentLength = .ok length) :
      Progress base (head.text ++ [CR, LF])
        ⟨.body, (head.read base).setContentLength length⟩
  | finish (head : RequestHead) (body : Bytes)
      (hbody : BodyMatches head.contentLength body) :
      Progress base (head.text ++ CR :: LF :: body)
        ⟨.finish, (head.read base).readBody body⟩

/-- A context whose `Content-Length` cannot be decoded keeps it: the first
value of a name is never replaced. -/
theorem getHeader_readHeaderLine_of_ne_nil (request : HttpRequest)
    (line name : Bytes) (h : request.getHeader name ≠ []) :
    (request.readHeaderLine line).getHeader name = request.getHeader name := by
  have hlines := request.getHeader_readHeaderLines [line] name
  change (request.readHeaderLine line).getHeader name = _ at hlines
  rw [hlines, HttpRequest.getHeader] at *
  cases hlookup : request.requestHeaders.lookup name with
  | none => simp [hlookup] at h
  | some value => rfl

namespace Progress

variable {base : HttpRequest} {consumed : Bytes} (receiveTime : Timestamp)

theorem pass_requestLine (base : HttpRequest) {skipped : List Bytes} {line : Bytes}
    (hskipped : ∀ line ∈ skipped,
      CrlfFree line ∧ acceptsRequestLine line = false)
    (hfree : CrlfFree line) (rest : Bytes) :
    let pass := (HttpContext.mk .requestLine base).takeRequestLine line rest
      receiveTime
    pass.buffer = rest ∧
      Progress base (withCrlf skipped ++ (line ++ [CR, LF])) pass.context := by
  cases haccepted : acceptsRequestLine line with
  | false =>
      rw [HttpContext.takeRequestLine_rejected _ haccepted]
      refine ⟨rfl, ?_⟩
      have h : Progress base (withCrlf (skipped ++ [line])) _ :=
        Progress.requestLine (skipped ++ [line]) (by
          intro other hother
          rcases List.mem_append.mp hother with hother | hother
          · exact hskipped other hother
          · rw [List.mem_singleton.mp hother]
            exact ⟨hfree, haccepted⟩)
      simpa [withCrlf] using h
  | true =>
      rw [HttpContext.takeRequestLine_accepted _ haccepted]
      refine ⟨rfl, ?_⟩
      have h : Progress base _ _ := Progress.headers
        ⟨skipped, line, [], receiveTime, hskipped, hfree, haccepted,
          fun other hother => absurd hother List.not_mem_nil⟩
      simpa [RequestHead.text, RequestHead.read, HttpRequest.readHeaderLines,
        withCrlf] using h

theorem pass_headerLine (hbase : base.requestHeaders = ∅) (head : RequestHead)
    {line : Bytes} (hfree : CrlfFree line) (rest : Bytes) :
    let pass := (HttpContext.mk .headers (head.read base)).takeHeaderLine line rest
    pass.buffer = rest ∧
      Progress base (head.text ++ (line ++ [CR, LF])) pass.context := by
  by_cases hline : line = []
  · subst hline
    by_cases hlength : (head.read base).getHeader contentLengthName = []
    · rw [HttpContext.takeHeaderLine_noBody ⟨.headers, head.read base⟩ hlength]
      refine ⟨rfl, ?_⟩
      have hbody : BodyMatches head.contentLength [] := by
        rw [← head.getHeader_read hbase]
        simp [BodyMatches, hlength]
      have h : Progress base _ _ := Progress.finish head [] hbody
      rwa [HttpRequest.readBody, if_pos hlength] at h
    · cases hstoul : stoul ((head.read base).getHeader contentLengthName) with
      | error e =>
          rw [HttpContext.takeHeaderLine_threw ⟨.headers, head.read base⟩ hlength hstoul]
          exact ⟨rfl, .undecodable _ _ e hlength hstoul⟩
      | ok length =>
          rw [HttpContext.takeHeaderLine_body ⟨.headers, head.read base⟩ hlength hstoul]
          rw [head.getHeader_read hbase] at hlength hstoul
          exact ⟨rfl, .body head length hlength hstoul⟩
  · have h : Progress base _ _ := Progress.headers (head.addLine line ⟨hline, hfree⟩)
    rw [head.text_addLine line ⟨hline, hfree⟩,
      head.read_addLine line ⟨hline, hfree⟩] at h
    cases haccepted : acceptsHeaderLine line with
    | false =>
        rw [HttpContext.takeHeaderLine_rejected _ hline haccepted]
        rw [HttpContext.readHeaderLine_rejected _ haccepted] at h
        exact ⟨rfl, h⟩
    | true =>
        rw [HttpContext.takeHeaderLine_accepted _ hline haccepted]
        exact ⟨rfl, h⟩

theorem pass_undecodable (base : HttpRequest) {request : HttpRequest} {e : NumberError}
    (hlength : request.getHeader contentLengthName ≠ [])
    (hstoul : stoul (request.getHeader contentLengthName) = .error e)
    (line rest consumed : Bytes) :
    let pass := (HttpContext.mk .headers request).takeHeaderLine line rest
    pass.buffer = rest ∧ Progress base consumed pass.context := by
  by_cases hline : line = []
  · subst hline
    rw [HttpContext.takeHeaderLine_threw ⟨.headers, request⟩ hlength hstoul]
    exact ⟨rfl, .undecodable _ _ e hlength hstoul⟩
  · cases haccepted : acceptsHeaderLine line with
    | false =>
        rw [HttpContext.takeHeaderLine_rejected _ hline haccepted]
        exact ⟨rfl, .undecodable _ _ e hlength hstoul⟩
    | true =>
        rw [HttpContext.takeHeaderLine_accepted _ hline haccepted]
        have hkept := getHeader_readHeaderLine_of_ne_nil request line _ hlength
        exact ⟨rfl, .undecodable _ _ e (by rwa [hkept]) (by rwa [hkept])⟩

/-- What one pass takes off the buffer is what the progress grows by. -/
theorem pass (hbase : base.requestHeaders = ∅) {context : HttpContext}
    (h : Progress base consumed context) (buff : Bytes) :
    ∃ used, buff = used ++ (context.parsePass buff receiveTime).buffer ∧
      Progress base (consumed ++ used)
        (context.parsePass buff receiveTime).context := by
  by_cases hlacks : context.LacksData buff
  · rw [HttpContext.parsePass_of_lacksData hlacks]
    exact ⟨[], rfl, by simpa using h⟩
  have hready := HttpContext.ready_cases hlacks
  cases h with
  | requestLine skipped hskipped =>
      simp only [reduceCtorEq, or_false, true_and, false_and] at hready
      obtain ⟨line, rest, hfree, rfl⟩ := hready
      rw [HttpContext.parsePass_requestLine rfl hfree]
      have hpass := pass_requestLine receiveTime base hskipped hfree rest
      exact ⟨line ++ [CR, LF], by simp [hpass.1], hpass.2⟩
  | headers head =>
      simp only [reduceCtorEq, or_false, false_or, true_and, false_and] at hready
      obtain ⟨line, rest, hfree, rfl⟩ := hready
      rw [HttpContext.parsePass_headerLine rfl hfree]
      have hpass := pass_headerLine hbase head hfree rest
      exact ⟨line ++ [CR, LF], by simp [hpass.1], hpass.2⟩
  | undecodable consumed request e hlength hstoul =>
      simp only [reduceCtorEq, or_false, false_or, true_and, false_and] at hready
      obtain ⟨line, rest, hfree, rfl⟩ := hready
      rw [HttpContext.parsePass_headerLine rfl hfree]
      have hpass := pass_undecodable base hlength hstoul line rest
        (consumed ++ (line ++ [CR, LF]))
      exact ⟨line ++ [CR, LF], by simp [hpass.1], hpass.2⟩
  | body head length hlength hstoul =>
      simp only [reduceCtorEq, or_self, false_and, true_and, or_false,
        false_or] at hready
      obtain ⟨body, rest, hbody, rfl⟩ := hready
      rw [HttpContext.parsePass_body rfl hbody]
      refine ⟨body, rfl, ?_⟩
      have hmatches : BodyMatches head.contentLength body := by
        simp only [BodyMatches, hlength, ↓reduceIte]
        exact ⟨length, hstoul, hbody⟩
      have hfinish : Progress base _ _ := Progress.finish head body hmatches
      rw [HttpRequest.readBody, if_neg (by rwa [head.getHeader_read hbase])] at hfinish
      have hsame : UInt64.ofNat body.length = length := by
        rw [hbody]
        exact UInt64.ofNat_toNat
      rw [hsame] at hfinish
      simpa using hfinish
  | finish head body hbody =>
      rw [HttpContext.parsePass_finish rfl]
      exact ⟨[], rfl, by simpa using Progress.finish head body hbody⟩

/-- The same for a whole call. -/
theorem call (hbase : base.requestHeaders = ∅) (context : HttpContext)
    (buff : Bytes) : ∀ consumed, Progress base consumed context →
    ∃ used, buff = used ++ (context.parseRequest buff receiveTime).buffer ∧
      Progress base (consumed ++ used)
        (context.parseRequest buff receiveTime).context := by
  refine HttpContext.parseRequest_induction receiveTime context buff ?_
  intro context buff ih consumed h
  obtain ⟨used, hbuff, hnext⟩ := h.pass receiveTime hbase buff
  rw [HttpContext.parseRequest_eq]
  cases hpass : context.parsePass buff receiveTime with
  | done result =>
      rw [hpass] at hbuff hnext
      exact ⟨used, hbuff, hnext⟩
  | again context' buff' =>
      rw [hpass] at hbuff hnext
      obtain ⟨later, hbuff', hlater⟩ := ih context' buff' hpass _ hnext
      refine ⟨used ++ later, ?_, by simpa using hlater⟩
      rw [List.append_assoc, ← hbuff']
      exact hbuff

end Progress

/-- After any number of calls, the bytes that came in are those consumed,
which are in step with the context, and those still in the buffer. -/
theorem Connection.parse_progress {base : HttpRequest}
    (hbase : base.requestHeaders = ∅) (buffer : Bytes) (arrivals : List Arrival) :
    let final := (runFrom Connection.parse ⟨⟨.requestLine, base⟩, buffer⟩ arrivals).1
    ∃ consumed, buffer ++ received arrivals = consumed ++ final.buffer ∧
      Progress base consumed final.context := by
  have h := runFrom_history_invariant (σ := Connection Bytes) Connection.parse
    (fun history connection => ∃ consumed,
      buffer ++ received history = consumed ++ connection.buffer ∧
        Progress base consumed connection.context)
    ?_ [] ⟨⟨.requestLine, base⟩, buffer⟩ ?_ arrivals
  · simpa using h
  · rintro history connection arrival ⟨consumed, hreceived, hprogress⟩
    obtain ⟨used, hbuffer, hnext⟩ := Progress.call
      arrival.time hbase connection.context
      (connection.buffer ++ arrival.bytes) consumed hprogress
    refine ⟨consumed ++ used, ?_, hnext⟩
    change _ = consumed ++ used ++ (connection.context.parseRequest
      (connection.buffer ++ arrival.bytes) arrival.time).buffer
    rw [List.append_assoc, ← hbuffer, ← List.append_assoc consumed, ← hreceived]
    simp
  · refine ⟨[], by simp, ?_⟩
    exact Progress.requestLine [] fun line hline => absurd hline List.not_mem_nil

/-- A context as its constructor and `Reset` leave it. -/
def HttpContext.Idle (context : HttpContext) : Prop :=
  context.state = .requestLine ∧ context.request.requestHeaders = ∅

theorem HttpContext.idle_new (indeterminate : UInt64) : (new indeterminate).Idle :=
  ⟨rfl, rfl⟩

/-- When the context has all of a request, what was consumed is a head, the
empty line and the body it announces. -/
theorem Connection.parse_finish {start : HttpContext} (hstart : start.Idle)
    (buffer : Bytes) (arrivals : List Arrival) :
    let final := (runFrom Connection.parse ⟨start, buffer⟩ arrivals).1
    final.context.gotAll = true →
    ∃ (head : RequestHead) (body : Bytes),
      BodyMatches head.contentLength body ∧
      buffer ++ received arrivals =
        (head.text ++ CR :: LF :: body) ++ final.buffer ∧
      final.context.request = (head.read start.request).readBody body := by
  obtain ⟨state, base⟩ := start
  obtain ⟨rfl, hbase⟩ := hstart
  intro final hgot
  obtain ⟨consumed, hreceived, hprogress⟩ := Connection.parse_progress hbase buffer arrivals
  change Progress _ consumed final.context at hprogress
  change _ = consumed ++ final.buffer at hreceived
  generalize final.context = context at hgot hprogress
  cases hprogress with
  | requestLine => simp [HttpContext.gotAll] at hgot
  | headers => simp [HttpContext.gotAll] at hgot
  | undecodable => simp [HttpContext.gotAll] at hgot
  | body => simp [HttpContext.gotAll] at hgot
  | finish head body hbody => exact ⟨head, body, hbody, hreceived, rfl⟩

end CuteHttpServer
