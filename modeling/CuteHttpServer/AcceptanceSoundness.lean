/-
What has been read when a context says it has all of a request.  A rejected
line is off the buffer before it is rejected and leaves the state alone, so a
later call goes on behind it.
-/
import CuteHttpServer.ParseCalls

namespace CuteHttpServer

open ByteString DelimitedText KeyedMap StepRun

/-- The stream's first line is let through as a request line, and the lines
after it, up to the first empty one, as header lines. -/
def rejectsNoLine (stream : Bytes) : Bool :=
  match completeLines CR LF stream with
  | [] => true
  | first :: rest =>
      acceptsRequestLine first && (rest.takeWhile (· ≠ [])).all acceptsHeaderLine

/-- The bytes are one request, with as many body bytes as the context has
announced when it has a `Content-Length`. -/
def ExactlyOneRequest (context : HttpContext) (consumed : Bytes) : Prop :=
  ∃ text : RequestText, consumed = text.render ∧
    (context.getRequest.getHeader contentLengthName ≠ [] →
      text.body.length = context.getRequest.getContentLength.toNat)

/-- A request text as a head with nothing before it. -/
def RequestText.head (text : RequestText) (receiveTime : Timestamp) :
    RequestHead where
  skipped := []
  requestLine := text.requestLine
  headerLines := text.headerLines
  receiveTime := receiveTime
  skipped_rejected _ hline := absurd hline List.not_mem_nil
  requestLine_free := text.requestLine_free
  requestLine_accepted := text.requestLine_accepted
  headerLines_text := text.headerLines_text

theorem RequestText.render_eq_head (text : RequestText) (rest : Bytes) :
    text.render ++ rest = (text.head 0).text ++ CR :: LF :: (text.body ++ rest) := by
  simp [RequestText.render, RequestHead.text, RequestText.head, withCrlf]

theorem takeWhile_headerLines {lines : List Bytes}
    (hlines : ∀ line ∈ lines, HeaderLineText line) (rest : List Bytes) :
    (lines ++ [] :: rest).takeWhile (· ≠ []) = lines := by
  rw [List.takeWhile_append_of_pos]
  · simp
  · intro line hline
    simpa using (hlines line hline).1

theorem RequestText.rejectsNoLine (text : RequestText) (rest : Bytes) :
    rejectsNoLine (text.render ++ rest) = true := by
  have hlines := completeLines_text (text.head 0) (text.body ++ rest)
  rw [← text.render_eq_head] at hlines
  unfold CuteHttpServer.rejectsNoLine
  rw [hlines]
  change (acceptsRequestLine text.requestLine && List.all (List.takeWhile _
    (text.headerLines ++ _)) acceptsHeaderLine) = true
  rw [takeWhile_headerLines text.headerLines_text, text.requestLine_accepted]
  simpa using text.headerLines_accepted

/-- A head in a stream that rejects no line has nothing before it and only
accepted header lines. -/
theorem RequestHead.of_rejectsNoLine (head : RequestHead) {rest : Bytes}
    (h : rejectsNoLine (head.text ++ CR :: LF :: rest) = true) :
    head.skipped = [] ∧
      ∀ line ∈ head.headerLines, acceptsHeaderLine line = true := by
  unfold CuteHttpServer.rejectsNoLine at h
  rw [completeLines_text] at h
  cases hskipped : head.skipped with
  | nil =>
      rw [hskipped] at h
      simp only [List.nil_append, Bool.and_eq_true,
        takeWhile_headerLines head.headerLines_text, List.all_eq_true] at h
      exact ⟨rfl, h.2⟩
  | cons line lines =>
      have hrejected := (head.skipped_rejected line (by simp [hskipped])).2
      rw [hskipped] at h
      simp [hrejected] at h

theorem getContentLength_readBody {request : HttpRequest} {body : Bytes}
    (hlength : request.getHeader contentLengthName ≠ [])
    (hbody : BodyMatches (request.getHeader contentLengthName) body) :
    (request.readBody body).getContentLength.toNat = body.length := by
  simp only [BodyMatches, hlength, ↓reduceIte] at hbody
  obtain ⟨length, _, hbody⟩ := hbody
  rw [HttpRequest.readBody, if_neg hlength, hbody]
  simp [HttpRequest.setRequestBody, HttpRequest.setContentLength,
    HttpRequest.getContentLength]

variable {B : Type} [Buffer B]

/-- A new connection. -/
def Connection.fresh (indeterminate : UInt64) : Connection B :=
  ⟨HttpContext.new indeterminate, Buffer.empty⟩

theorem Connection.view_fresh (indeterminate : UInt64) :
    (Connection.fresh indeterminate : Connection B).view =
      ⟨HttpContext.new indeterminate, []⟩ := by
  simp [Connection.fresh, Connection.view]

/-- In a run of calls on a new connection that ends with all of a request, the
bytes consumed are exactly one request if and only if no line of the stream,
up to the end of the header block, is one that is rejected. -/
theorem gotAll_exactlyOneRequest_iff (indeterminate : UInt64)
    (arrivals : List Arrival)
    (hgot : (runFrom Connection.parse
      (Connection.fresh indeterminate : Connection B) arrivals).1.context.gotAll = true) :
    let final := (runFrom Connection.parse
      (Connection.fresh indeterminate : Connection B) arrivals).1
    (∃ consumed, received arrivals = consumed ++ Buffer.readable final.buffer ∧
        ExactlyOneRequest final.context consumed) ↔
      rejectsNoLine (received arrivals) = true := by
  intro final
  have hview := Connection.runFrom_parse_view
    (Connection.fresh indeterminate : Connection B) arrivals
  rw [Connection.view_fresh] at hview
  obtain ⟨head, body, hbody, hreceived, hrequest⟩ :=
    Connection.parse_finish (HttpContext.idle_new indeterminate) [] arrivals
      (hview.symm ▸ hgot)
  rw [hview] at hreceived hrequest
  change [] ++ received arrivals = _ ++ Buffer.readable final.buffer at hreceived
  change final.context.request =
    (head.read (HttpRequest.new indeterminate)).readBody body at hrequest
  constructor
  · rintro ⟨consumed, hconsumed, text, rfl, _⟩
    rw [hconsumed]
    exact text.rejectsNoLine _
  · intro hnone
    have hstream : received arrivals =
        head.text ++ CR :: LF :: (body ++ Buffer.readable final.buffer) := by
      simpa using hreceived
    rw [hstream] at hnone
    obtain ⟨hskipped, haccepted⟩ := head.of_rejectsNoLine hnone
    refine ⟨head.text ++ CR :: LF :: body, by simpa using hreceived,
      ⟨head.requestLine, head.headerLines, body, head.requestLine_free,
        head.requestLine_accepted, head.headerLines_text, haccepted, hbody⟩, ?_, ?_⟩
    · simp [RequestHead.text, RequestText.render, hskipped, withCrlf]
    · intro hlength
      have hfield := head.getHeader_read
        (HttpRequest.requestHeaders_new indeterminate)
      rw [HttpContext.getRequest, hrequest, HttpRequest.getHeader_readBody] at hlength
      rw [HttpContext.getRequest, hrequest, getContentLength_readBody hlength]
      rwa [hfield]

/-- A plain `GET` in one piece. -/
theorem gotAll_exactlyOneRequest_plain :
    let arrivals : List Arrival := [⟨ascii "GET / HTTP/1.1\r\n\r\n", 1⟩]
    let final := (runFrom Connection.parse
      (Connection.fresh 0 : Connection Bytes) arrivals).1
    (∃ consumed, received arrivals = consumed ++ Buffer.readable final.buffer ∧
        ExactlyOneRequest final.context consumed) ↔
      rejectsNoLine (received arrivals) = true :=
  gotAll_exactlyOneRequest_iff 0 [⟨ascii "GET / HTTP/1.1\r\n\r\n", 1⟩]
    (by decide +kernel)

/-- A rejected first line does not keep the second call from completing a
request, so more than one request has been consumed. -/
theorem gotAll_after_rejected_line :
    let arrivals : List Arrival :=
      [⟨ascii "hello\r\n", 1⟩, ⟨ascii "GET / HTTP/1.1\r\n\r\n", 2⟩]
    let final := (runFrom Connection.parse
      (Connection.fresh 0 : Connection Bytes) arrivals).1
    final.context.gotAll = true ∧
      ¬ ∃ consumed, received arrivals = consumed ++ Buffer.readable final.buffer ∧
        ExactlyOneRequest final.context consumed := by
  intro arrivals final
  refine ⟨by decide +kernel, ?_⟩
  rintro ⟨consumed, hconsumed, text, rfl, _⟩
  have hnone := text.rejectsNoLine (Buffer.readable final.buffer)
  rw [← hconsumed] at hnone
  exact absurd hnone (by decide +kernel)

end CuteHttpServer
