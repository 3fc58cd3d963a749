/-
What becomes of the bytes of a connection, whatever they are.  They fall into
one segment for each completed request and a rest, and the request is what its
segment reads to; no byte is dropped, read twice or read out of turn.
-/
import CuteHttpServer.RequestOrder

namespace CuteHttpServer

open ByteString DelimitedText KeyedMap StepRun

/-- The bytes of one completed request: rejected lines, the head, the empty line
and the body. -/
structure StreamSegment where
  head : RequestHead
  body : Bytes
  body_matches : BodyMatches head.contentLength body

namespace StreamSegment

def bytes (segment : StreamSegment) : Bytes :=
  segment.head.text ++ CR :: LF :: segment.body

/-- The request object that the segment is read into, after others. -/
def readAfter (segment : StreamSegment) (stale : UInt64 × Bytes) : HttpRequest :=
  (segment.head.read ((HttpRequest.new 0).withStale stale.1 stale.2)).readBody segment.body

/-- What the request leaves in the two members that `Reset` does not clear. -/
def leaves (segment : StreamSegment) (stale : UInt64 × Bytes) : UInt64 × Bytes :=
  if segment.head.contentLength = [] then stale
  else (UInt64.ofNat segment.body.length, segment.body)

theorem reset_readAfter (segment : StreamSegment) (stale : UInt64 × Bytes) :
    (HttpContext.mk .finish (segment.readAfter stale)).reset =
      ⟨.requestLine, (HttpRequest.new 0).withStale (segment.leaves stale).1
        (segment.leaves stale).2⟩ := by
  have hlength := @RequestHead.getHeader_read segment.head
    ((HttpRequest.new 0).withStale stale.1 stale.2) rfl
  rw [HttpContext.reset, HttpRequest.swap_new _ _ 0, readAfter, HttpRequest.readBody,
    hlength, leaves]
  by_cases hfield : segment.head.contentLength = []
  · rw [if_pos hfield, if_pos hfield, RequestHead.read, HttpRequest.readHeaderLines_eq]
    rfl
  · rw [if_neg hfield, if_neg hfield]
    rfl

end StreamSegment

/-- The requests that some segments are read into, one after the other. -/
def readSegments (stale : UInt64 × Bytes) : List StreamSegment → List HttpRequest
  | [] => []
  | segment :: later =>
      segment.readAfter stale :: readSegments (segment.leaves stale) later

/-- The length and the body left over after some segments. -/
def staleAfter (stale : UInt64 × Bytes) (segments : List StreamSegment) : UInt64 × Bytes :=
  segments.foldl (fun stale segment => segment.leaves stale) stale

theorem readSegments_concat (stale : UInt64 × Bytes) (segments : List StreamSegment)
    (segment : StreamSegment) :
    readSegments stale (segments ++ [segment]) =
      readSegments stale segments ++ [segment.readAfter (staleAfter stale segments)] := by
  induction segments generalizing stale with
  | nil => rfl
  | cons first later ih => exact congrArg (_ :: ·) (ih (first.leaves stale))

/-- What has been consumed of the bytes after the segments is in step with the
context. -/
def Accounted {B : Type} [Buffer B] (stale : UInt64 × Bytes) (bytes : Bytes)
    (segments : List StreamSegment) (connection : Connection B) : Prop :=
  ∃ consumed,
    bytes = segments.flatMap StreamSegment.bytes ++ consumed ++
      Buffer.readable connection.buffer ∧
    Progress ((HttpRequest.new 0).withStale (staleAfter stale segments).1
      (staleAfter stale segments).2) consumed connection.context

/-- A context with all of a request has consumed a segment. -/
theorem Progress.segment {base : HttpRequest} {consumed : Bytes} {context : HttpContext}
    (h : Progress base consumed context) (hgot : context.gotAll = true) :
    ∃ segment : StreamSegment, consumed = segment.bytes ∧
      context.request = (segment.head.read base).readBody segment.body := by
  cases h with
  | finish head body hbody => exact ⟨⟨head, body, hbody⟩, rfl, rfl⟩
  | requestLine skipped hskipped => exact absurd hgot Bool.false_ne_true
  | headers head => exact absurd hgot Bool.false_ne_true
  | undecodable consumed request e hlength hstoul => exact absurd hgot Bool.false_ne_true
  | body head length hlength hstoul => exact absurd hgot Bool.false_ne_true

variable {σ B : Type} [Buffer B]

namespace Accounted

variable {stale : UInt64 × Bytes} {bytes : Bytes} {segments : List StreamSegment}
  {connection : Connection B}

/-- A call of `ParseRequest` moves bytes from the buffer to what is consumed. -/
theorem parse (h : Accounted stale bytes segments connection) (arrival : Arrival) :
    Accounted stale (bytes ++ arrival.bytes) segments (connection.parse arrival).1 := by
  obtain ⟨consumed, hbytes, hprogress⟩ := h
  obtain ⟨used, hbuffer, hnext⟩ := Progress.call arrival.time rfl connection.context
    (Buffer.readable connection.buffer ++ arrival.bytes) consumed hprogress
  generalize hresult : connection.context.parseRequest
    (Buffer.readable connection.buffer ++ arrival.bytes) arrival.time = result
    at hbuffer hnext
  obtain ⟨outcome, context, left⟩ := result
  obtain ⟨buffer, hreadable, hparse⟩ := connection.parse_of_readable arrival hresult
  refine ⟨consumed ++ used, ?_, ?_⟩
  · rw [hparse, hreadable, hbytes, List.append_assoc, hbuffer]
    simp
  · rw [hparse]
    exact hnext

/-- The request that is complete is what one more segment reads to. -/
theorem completes (h : Accounted stale bytes segments connection)
    (hgot : connection.context.gotAll = true) :
    ∃ segment : StreamSegment,
      connection.context.getRequest = segment.readAfter (staleAfter stale segments) ∧
      Accounted stale bytes (segments ++ [segment])
        (⟨connection.context.reset, connection.buffer⟩ : Connection B) := by
  obtain ⟨consumed, hbytes, hprogress⟩ := h
  obtain ⟨segment, rfl, hrequest⟩ := hprogress.segment hgot
  refine ⟨segment, hrequest, [], ?_, ?_⟩
  · rw [hbytes]
    simp
  · have hreset : connection.context.reset =
        (HttpContext.mk .finish (segment.readAfter (staleAfter stale segments))).reset := by
      rw [HttpContext.reset, HttpContext.reset, hrequest]
      rfl
    have hstale : staleAfter stale (segments ++ [segment]) =
        segment.leaves (staleAfter stale segments) := List.foldl_append
    rw [hreset, segment.reset_readAfter, hstale]
    exact Progress.requestLine [] fun line hline => absurd hline List.not_mem_nil

/-- Without a reset the segment has been consumed all the same. -/
theorem last (h : Accounted stale bytes segments connection)
    (hgot : connection.context.gotAll = true) :
    ∃ segment : StreamSegment,
      connection.context.getRequest = segment.readAfter (staleAfter stale segments) ∧
      bytes = (segments ++ [segment]).flatMap StreamSegment.bytes ++
        Buffer.readable connection.buffer := by
  obtain ⟨consumed, hbytes, hprogress⟩ := h
  obtain ⟨segment, rfl, hrequest⟩ := hprogress.segment hgot
  refine ⟨segment, hrequest, ?_⟩
  rw [hbytes]
  simp

end Accounted

/-- The books after some calls: bytes against segments, segments against
completed requests. -/
structure Booked (stale : UInt64 × Bytes) (bytes : Bytes) (segments : List StreamSegment)
    (connection : Connection B) (events : List Event) : Prop where
  accounted : Accounted stale bytes segments connection
  completed : completedRequests events = readSegments stale segments ++
    if connection.context.gotAll then [connection.context.getRequest] else []

/-- A call with all of a request: it is completed, unless it has been already. -/
theorem Booked.dispatches (server : HttpServer σ) {stale : UInt64 × Bytes} {bytes : Bytes}
    {segments : List StreamSegment} {state : ServerState σ B} {events : List Event}
    (h : Booked stale bytes segments state.connection events) {arrival : Arrival}
    (htrue : (state.connection.parse arrival).2 = .returned true) :
    let request := (state.connection.parse arrival).1.context.getRequest
    completedRequests (events ++ (server.onMessage state arrival).2) =
      readSegments stale segments ++ [request] := by
  intro request
  obtain ⟨⟨later, hevents, hneutral⟩, _⟩ := server.onMessage_dispatches htrue
  have hcompleted := h.completed
  have hnone := completedRequests_neutral hneutral
  rw [completedRequests_append, hevents, HttpServer.completedIn]
  cases hpending : state.connection.context.gotAll with
  | false =>
      rw [hpending] at hcompleted
      have hnew : completedRequests ((if (false : Bool) then [] else [.completed request]) ++
          .invoked request :: later) = [request] := congrArg (_ :: ·) hnone
      rw [hnew, hcompleted]
      simp
  | true =>
      have hsame : (state.connection.parse arrival).1.context = state.connection.context := by
        rw [state.connection.parse_pending arrival hpending]
      have hnew : completedRequests ((if (true : Bool) then [] else [.completed request]) ++
          .invoked request :: later) = [] := hnone
      rw [hpending, if_pos rfl, ← hsame] at hcompleted
      rw [hnew, List.append_nil]
      exact hcompleted

/-- One call. -/
theorem Booked.onMessage (server : HttpServer σ) {stale : UInt64 × Bytes} {bytes : Bytes}
    {segments : List StreamSegment} {state : ServerState σ B} {events : List Event}
    (h : Booked stale bytes segments state.connection events) (arrival : Arrival) :
    ∃ segments', Booked stale (bytes ++ arrival.bytes) segments'
      (server.onMessage state arrival).1.connection
      (events ++ (server.onMessage state arrival).2) := by
  have hparse := h.accounted.parse arrival
  by_cases htrue : (state.connection.parse arrival).2 = .returned true
  · have hall := h.dispatches server htrue
    have hgot := (state.connection.parse_gotAll_iff arrival).mpr htrue
    rw [(server.onMessage_dispatches htrue).2]
    cases server.throwsOn state.handlers
        (state.connection.parse arrival).1.context.getRequest with
    | true =>
        refine ⟨segments, hparse, ?_⟩
        rw [hall]
        simp [hgot]
    | false =>
        obtain ⟨segment, hrequest, hreset⟩ := hparse.completes hgot
        refine ⟨segments ++ [segment], hreset, ?_⟩
        rw [hall, readSegments_concat, hrequest]
        simp [HttpContext.reset, HttpContext.gotAll]
  · obtain ⟨hneutral, hnext⟩ := server.onMessage_idle htrue
    have hgot := HttpServer.gotAll_of_not_true htrue
    have hbefore : state.connection.context.gotAll = false := by
      rw [Bool.eq_false_iff]
      intro hpending
      exact htrue (by rw [state.connection.parse_pending arrival hpending])
    refine ⟨segments, ?_⟩
    rw [hnext]
    have hcompleted := h.completed
    rw [hbefore] at hcompleted
    refine ⟨hparse, ?_⟩
    rw [completedRequests_append, completedRequests_neutral hneutral, hcompleted, hgot]
    simp

theorem Booked.run (server : HttpServer σ) (handlers : σ) (indeterminate : UInt64)
    (arrivals : List Arrival) :
    let run := runFrom server.onMessage
      (⟨handlers, .fresh indeterminate⟩ : ServerState σ B) arrivals
    ∃ segments, Booked (indeterminate, []) (received arrivals) segments run.1.connection
      run.2.flatten := by
  induction arrivals using List.reverseRecOn with
  | nil =>
      refine ⟨[], ⟨[], ?_, ?_⟩, rfl⟩
      · exact (Buffer.readable_empty (B := B)).symm
      · exact Progress.requestLine [] fun line hline => absurd hline List.not_mem_nil
  | append_singleton arrivals arrival ih =>
      obtain ⟨segments, hbooked⟩ := ih
      obtain ⟨segments', hnext⟩ := hbooked.onMessage server arrival
      refine ⟨segments', ?_⟩
      rw [runFrom_append, runFrom_singleton, List.flatten_append, List.flatten_singleton,
        received_append]
      simpa using hnext

end CuteHttpServer
