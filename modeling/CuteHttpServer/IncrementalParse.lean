/-
Incremental parsing is one-shot parsing: a call that completed the request, or
stopped for want of data, can be followed by more bytes without a difference to
one call on all of them, but for the receive time.
-/
import CuteHttpServer.ParseSimulation

namespace CuteHttpServer

open ByteString DelimitedText KeyedMap StepRun

/-- The same request apart from the receive time. -/
def HttpRequest.SameButTime (request request' : HttpRequest) : Prop :=
  request.setReceiveTime default = request'.setReceiveTime default

theorem HttpRequest.SameButTime.exists_time {request request' : HttpRequest}
    (h : request.SameButTime request') :
    ∃ time, request' = request.setReceiveTime time := by
  refine ⟨request'.receiveTime, ?_⟩
  have hback := congrArg (fun r => r.setReceiveTime request'.receiveTime) h
  exact hback.symm

theorem HttpRequest.sameButTime_setReceiveTime (request : HttpRequest)
    (time : Timestamp) : request.SameButTime (request.setReceiveTime time) := rfl

theorem HttpRequest.readHeaderLine_setReceiveTime (request : HttpRequest)
    (line : Bytes) (time : Timestamp) :
    (request.setReceiveTime time).readHeaderLine line =
      (request.readHeaderLine line).setReceiveTime time := by
  unfold HttpRequest.readHeaderLine
  cases headerField line <;> rfl

/-- The receive time is written and never read. -/
theorem sameButTime_simulation (time time' : Timestamp) :
    ReadingSimulation (fun _ => HttpRequest.SameButTime) time time' where
  sameLengthField h := by
    obtain ⟨_, rfl⟩ := h.exists_time
    rfl
  sameLength h := by
    obtain ⟨_, rfl⟩ := h.exists_time
    rfl
  requestLine line h := by
    obtain ⟨_, rfl⟩ := h.exists_time
    rfl
  headerLine line h := by
    obtain ⟨time, rfl⟩ := h.exists_time
    rw [HttpRequest.readHeaderLine_setReceiveTime]
    exact HttpRequest.sameButTime_setReceiveTime _ _
  noBody h _ := h
  announce length h _ := by
    obtain ⟨_, rfl⟩ := h.exists_time
    rfl
  body body h := by
    obtain ⟨_, rfl⟩ := h.exists_time
    rfl

variable {B : Type} [Buffer B]

/-- The same outcome, state and remaining bytes, and the same request apart
from the receive time. -/
structure ParseResult.SameButTime (result result' : ParseResult B) : Prop where
  outcome : result.outcome = result'.outcome
  state : result.context.state = result'.context.state
  request : result.context.request.SameButTime result'.context.request
  buffer : Buffer.readable result.buffer = Buffer.readable result'.buffer

theorem ParseResult.SameButTime.trans {result result' result'' : ParseResult B}
    (h : result.SameButTime result') (h' : result'.SameButTime result'') :
    result.SameButTime result'' where
  outcome := h.outcome.trans h'.outcome
  state := h.state.trans h'.state
  request := h.request.trans h'.request
  buffer := h.buffer.trans h'.buffer

theorem ParseResult.SameButTime.symm {result result' : ParseResult B}
    (h : result.SameButTime result') : result'.SameButTime result where
  outcome := h.outcome.symm
  state := h.state.symm
  request := h.request.symm
  buffer := h.buffer.symm

/-- Calls on buffers with the same readable bytes, at any two times. -/
theorem HttpContext.parseRequest_sameButTime (context : HttpContext)
    {buff buff' : B} (hbuff : Buffer.readable buff = Buffer.readable buff')
    (time time' : Timestamp) :
    (context.parseRequest buff time).SameButTime
      (context.parseRequest buff' time') := by
  have h := parseRequest_related (sameButTime_simulation time time') context
    (Buffer.readable buff) context ⟨rfl, rfl⟩
  have hleft := context.parseRequest_readable buff time
  have hright := context.parseRequest_readable buff' time'
  rw [← hbuff] at hright
  rw [hleft, hright] at h
  exact ⟨h.1, h.2.2.1, h.2.2.2, h.2.1⟩

/-- A call that completed the request, or that stopped for lack of data. -/
def HttpContext.GoesOn (context : HttpContext) (buff : B)
    (time : Timestamp) : Prop :=
  (context.parseRequest buff time).outcome = .returned true ∨
    HttpContext.WaitsForData time context buff

/-- The call that goes on, on a plain byte list: parsing all bytes at once and
parsing on where it stopped are the same. -/
theorem HttpContext.GoesOn.parse {context : HttpContext} {buff : B}
    {time : Timestamp} (h : context.GoesOn buff time) (more : Bytes) :
    context.parseRequest (Buffer.readable buff ++ more) time =
      (context.parseRequest buff time).context.parseRequest
        (Buffer.readable (context.parseRequest buff time).buffer ++ more) time := by
  have hreadable := context.parseRequest_readable buff time
  rcases h with hdone | hwaits
  · have hfinish := (context.parseRequest_finish_iff (Buffer.readable buff) time).mp
      (by rw [hreadable]; exact hdone)
    have hnotWaits : ¬ WaitsForData time context (Buffer.readable buff) := by
      intro hwaits
      have hfalse := hwaits.parse.1
      rw [hreadable] at hfalse
      simp [hdone] at hfalse
    rw [parseRequest_append hnotWaits]
    rw [hreadable] at hfinish ⊢
    rw [parseRequest_eq _ (Buffer.readable _ ++ more), parsePass_finish hfinish, hdone]
  · have hmore := hwaits.readable.parse.2.2 more
    rw [hmore, hreadable]

/-- Every call of a run goes on. -/
def Connection.AllGoOn (connection : Connection B) : List Arrival → Prop
  | [] => True
  | arrival :: rest =>
      connection.context.GoesOn
        (Buffer.append connection.buffer arrival.bytes) arrival.time ∧
      (connection.parse arrival).1.AllGoOn rest

theorem HttpContext.GoesOn.resume {context : HttpContext} {buff : B}
    {time : Timestamp} (h : context.GoesOn buff time) (more : Bytes)
    (time' time'' : Timestamp) :
    ((context.parseRequest buff time).context.parseRequest
        (Buffer.append (context.parseRequest buff time).buffer more)
        time').SameButTime
      (context.parseRequest (Buffer.append buff more) time'') := by
  set first := context.parseRequest buff time with hfirst
  have hparse := h.parse more
  rw [← Buffer.readable_append, ← Buffer.readable_append,
    parseRequest_readable, parseRequest_readable, ParseResult.mk.injEq] at hparse
  obtain ⟨houtcome, hcontext, hbuffer⟩ := hparse
  have hsame : (first.context.parseRequest (Buffer.append first.buffer more)
      time).SameButTime
      (context.parseRequest (Buffer.append buff more) time) :=
    ⟨houtcome.symm, by rw [hcontext], by rw [hcontext]; rfl, hbuffer.symm⟩
  exact ((first.context.parseRequest_sameButTime rfl time' time).trans hsame).trans
    (context.parseRequest_sameButTime rfl time time'')

/-- What the last of several calls gives is what one call on all the bytes
gives, as long as every earlier call goes on. -/
theorem Connection.AllGoOn.last (connection : Connection B)
    (arrivals : List Arrival) (h : connection.AllGoOn arrivals)
    (last : Arrival) (time : Timestamp) :
    let before := (runFrom Connection.parse connection arrivals).1
    (before.context.parseRequest (Buffer.append before.buffer last.bytes)
        last.time).SameButTime
      (connection.context.parseRequest
        (Buffer.append connection.buffer (received (arrivals ++ [last]))) time) := by
  induction arrivals generalizing connection with
  | nil =>
      apply connection.context.parseRequest_sameButTime
      simp
  | cons arrival rest ih =>
      obtain ⟨hgoes, hrest⟩ := h
      have hlater := ih (connection.parse arrival).1 hrest
      have hresume := hgoes.resume (received (rest ++ [last])) time time
      refine (hlater.trans hresume).trans ?_
      apply connection.context.parseRequest_sameButTime
      simp

/-- Incremental parsing equals one-shot parsing, for two pieces from any
context and buffer, and for any number of them. -/
theorem parseRequest_incremental (context : HttpContext) (buff : B)
    (more : Bytes) (time time' time'' : Timestamp) :
    (context.GoesOn buff time →
      ((context.parseRequest buff time).context.parseRequest
          (Buffer.append (context.parseRequest buff time).buffer more)
          time').SameButTime
        (context.parseRequest (Buffer.append buff more) time'')) ∧
    ∀ (arrivals : List Arrival) (last : Arrival),
      Connection.AllGoOn ⟨context, buff⟩ arrivals →
      let before := (runFrom Connection.parse ⟨context, buff⟩ arrivals).1
      (before.context.parseRequest (Buffer.append before.buffer last.bytes)
          last.time).SameButTime
        (context.parseRequest
          (Buffer.append buff (received (arrivals ++ [last]))) time'') :=
  ⟨fun h => h.resume more time' time'', fun arrivals last hall =>
    hall.last ⟨context, buff⟩ arrivals last time''⟩

/-- A request line cut between `\r` and `\n`, as two calls and as a run. -/
theorem parseRequest_incremental_cut :
    let start := HttpContext.new 0
    let early := ascii "GET /a HTTP/1.1\r"
    let late := ascii "\n\r\n"
    let before := (runFrom Connection.parse (⟨start, []⟩ : Connection Bytes)
      [⟨early, 1⟩]).1
    ((start.parseRequest early 1).context.parseRequest
        (Buffer.append (start.parseRequest early 1).buffer late) 2).SameButTime
      (start.parseRequest (Buffer.append early late) 3) ∧
    (before.context.parseRequest (Buffer.append before.buffer late) 2).SameButTime
      (start.parseRequest
        (Buffer.append ([] : Bytes) (received ([⟨early, 1⟩] ++ [⟨late, 2⟩]))) 3) := by
  intro start early late before
  have hlacks : start.LacksData early := by
    change CrlfFree early
    decide
  exact ⟨(parseRequest_incremental start early late 1 2 3).1 (Or.inr (.here hlacks)),
    (parseRequest_incremental start ([] : Bytes) [] 0 0 3).2 [⟨early, 1⟩] ⟨late, 2⟩
      ⟨Or.inr (.here hlacks), trivial⟩⟩

end CuteHttpServer
