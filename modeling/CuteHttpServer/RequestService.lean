/-
The server as a client sees it who sends one request after the other: a queue
of requests, and calls that each serve the first one or refuse.  On a stream of
requests the code is exactly this, wherever the stream is cut into calls.
-/
import CuteHttpServer.RequestDelivery

namespace CuteHttpServer

open ByteString DelimitedText KeyedMap StepRun

/-- What a request leaves in the two members that `Reset` does not clear. -/
def RequestText.leaves (text : RequestText) (stale : UInt64 × Bytes) : UInt64 × Bytes :=
  if contentLengthField text.headerLines = [] then stale
  else (UInt64.ofNat text.body.length, text.body)

/-- The request object of a text that follows others on its connection. -/
def RequestText.readAfter (text : RequestText) (stale : UInt64 × Bytes)
    (receiveTime : Timestamp) : HttpRequest :=
  text.read ((HttpRequest.new 0).withStale stale.1 stale.2) receiveTime

/-- The requests of a client that are not answered yet.  Of the first one some
bytes may be there, its line may have been read, and the callback may have
thrown on it. -/
structure RequestService (σ : Type) where
  handlers : σ
  waiting : List RequestText
  unread : Nat
  lineTime : Option Timestamp
  pending : Bool
  stale : UInt64 × Bytes

namespace RequestService

variable {σ : Type}

def initial (handlers : σ) (requests : List RequestText) (indeterminate : UInt64) :
    RequestService σ where
  handlers := handlers
  waiting := requests
  unread := 0
  lineTime := none
  pending := false
  stale := (indeterminate, [])

/-- One call: of the bytes that arrive, only their number is looked at. -/
def receive (server : HttpServer σ) (service : RequestService σ) (arrival : Arrival) :
    RequestService σ × List Event :=
  let unread := service.unread + arrival.bytes.length
  match service.waiting with
  | [] => ({ service with unread := unread }, refusal)
  | text :: later =>
      let lineTime := service.lineTime.or
        (if text.requestLine.length + 2 ≤ unread then some arrival.time else none)
      if unread < text.render.length then
        ({ service with unread := unread, lineTime := lineTime }, refusal)
      else
        let request := text.readAfter service.stale (lineTime.getD default)
        let completed := if service.pending then [] else [.completed request]
        let dispatch := server.onRequest Bytes service.handlers request
        match dispatch.thrown with
        | some e =>
            ({ service with
                handlers := dispatch.state
                unread := unread
                lineTime := lineTime
                pending := true },
              completed ++ dispatch.events ++ .caught e :: refusal)
        | none =>
            (⟨dispatch.state, later, unread - text.render.length, none, false,
                text.leaves service.stale⟩,
              completed ++ dispatch.events)

section Receive

variable {server : HttpServer σ} {service : RequestService σ} {arrival : Arrival}
  {text : RequestText} {later : List RequestText}

theorem receive_idle (hwaiting : service.waiting = []) :
    service.receive server arrival =
      ({ service with unread := service.unread + arrival.bytes.length }, refusal) := by
  simp only [receive, hwaiting]

/-- When the line of the first request has been read, once an arrival is
there. -/
def lineTimeAfter (service : RequestService σ) (text : RequestText) (arrival : Arrival) :
    Option Timestamp :=
  service.lineTime.or
    (if text.requestLine.length + 2 ≤ service.unread + arrival.bytes.length then
      some arrival.time else none)

theorem receive_part (hwaiting : service.waiting = text :: later)
    (hunread : service.unread + arrival.bytes.length < text.render.length) :
    service.receive server arrival =
      ({ service with
          unread := service.unread + arrival.bytes.length
          lineTime := service.lineTimeAfter text arrival }, refusal) := by
  simp only [receive, hwaiting, if_pos hunread, lineTimeAfter]

/-- The request that a call with all of the first one dispatches. -/
def ready (service : RequestService σ) (text : RequestText) (arrival : Arrival) :
    HttpRequest :=
  text.readAfter service.stale ((service.lineTimeAfter text arrival).getD default)

theorem receive_threw {e : StdException} (hwaiting : service.waiting = text :: later)
    (hunread : text.render.length ≤ service.unread + arrival.bytes.length)
    (hthrown : (server.onRequest Bytes service.handlers
      (service.ready text arrival)).thrown = some e) :
    let dispatch := server.onRequest Bytes service.handlers (service.ready text arrival)
    service.receive server arrival =
      ({ service with
          handlers := dispatch.state
          unread := service.unread + arrival.bytes.length
          lineTime := service.lineTimeAfter text arrival
          pending := true },
        (if service.pending then [] else [.completed (service.ready text arrival)]) ++
          dispatch.events ++ .caught e :: refusal) := by
  rw [ready, lineTimeAfter] at *
  simp only [receive, hwaiting, if_neg (Nat.not_lt.mpr hunread), hthrown]

theorem receive_returned (hwaiting : service.waiting = text :: later)
    (hunread : text.render.length ≤ service.unread + arrival.bytes.length)
    (hthrown : (server.onRequest Bytes service.handlers
      (service.ready text arrival)).thrown = none) :
    let dispatch := server.onRequest Bytes service.handlers (service.ready text arrival)
    service.receive server arrival =
      (⟨dispatch.state, later,
          service.unread + arrival.bytes.length - text.render.length, none, false,
          text.leaves service.stale⟩,
        (if service.pending then [] else [.completed (service.ready text arrival)]) ++
          dispatch.events) := by
  rw [ready, lineTimeAfter] at *
  simp only [receive, hwaiting, if_neg (Nat.not_lt.mpr hunread), hthrown]

end Receive

end RequestService

/-- The beginning of a line and what follows it either ends before the line
does, or holds the whole line. -/
theorem begins_line {line buff more rest : Bytes} (hfree : CrlfFree line)
    (h : buff ++ more = line ++ CR :: LF :: rest) :
    CrlfFree buff ∧ buff.length < line.length + 2 ∨
      ∃ rest', buff = line ++ CR :: LF :: rest' ∧ rest' ++ more = rest := by
  by_cases hlength : line.length + 2 ≤ buff.length
  · have hline : line ++ [CR, LF] <+: buff := by
      refine List.prefix_of_prefix_length_le ⟨rest, ?_⟩ ⟨more, h⟩ (by simpa using hlength)
      simp
    obtain ⟨rest', rfl⟩ := hline
    refine Or.inr ⟨rest', by simp, ?_⟩
    simpa using h
  · refine Or.inl ⟨?_, by omega⟩
    rcases pairFree_or_line CR LF buff with hbuff | ⟨line', rest', hfree', rfl⟩
    · exact hbuff
    · have hfind := findPair_append_pair CR_ne_LF hfree rest
      rw [← h, List.append_assoc, List.cons_append, List.cons_append,
        findPair_append_pair CR_ne_LF hfree', Option.some.injEq] at hfind
      simp only [List.length_append, List.length_cons] at hlength
      omega

/-- A context in the middle of a request: when its line was read, and the bytes
of the request that are still to be read. -/
inductive RequestText.Reading (text : RequestText) (base : HttpRequest) :
    Option Timestamp → Bytes → HttpContext → Prop
  | requestLine : Reading text base none text.render ⟨.requestLine, base⟩
  | headers (time : Timestamp) (taken left : List Bytes)
      (hlines : text.headerLines = taken ++ left) :
      Reading text base (some time) (withCrlf left ++ CR :: LF :: text.body)
        ⟨.headers, ((base.readRequestLine text.requestLine).setReceiveTime
          time).readHeaderLines taken⟩
  | body (time : Timestamp) (hlength : contentLengthField text.headerLines ≠ []) :
      Reading text base (some time) text.body
        ⟨.body, (((base.readRequestLine text.requestLine).setReceiveTime
          time).readHeaderLines text.headerLines).setContentLength
            (UInt64.ofNat text.body.length)⟩

namespace RequestText

variable (text : RequestText) {base : HttpRequest}

theorem render_eq (rest : Bytes) :
    text.render ++ rest = text.requestLine ++ CR :: LF ::
      (withCrlf text.headerLines ++ CR :: LF :: (text.body ++ rest)) := by
  simp [render, withCrlf]

theorem render_pos : 0 < text.render.length :=
  List.length_pos_iff.mpr text.render_ne_nil

theorem requestLine_lt_render : text.requestLine.length + 2 ≤ text.render.length := by
  have h := congrArg List.length (text.render_eq [])
  simp only [List.append_nil, List.length_append, List.length_cons] at h
  omega

theorem acceptedLines : AcceptedLines text.headerLines := fun line hline =>
  ⟨text.headerLines_text line hline, text.headerLines_accepted line hline⟩

/-- The body length that a context in state `BODY` waits for. -/
theorem body_length (hlength : contentLengthField text.headerLines ≠ []) :
    ∃ length, stoul (contentLengthField text.headerLines) = .ok length ∧
      length = UInt64.ofNat text.body.length ∧
      text.body.length = length.toNat := by
  have hbody := text.body_matches
  rw [BodyMatches, if_neg hlength] at hbody
  obtain ⟨length, hstoul, hbody⟩ := hbody
  exact ⟨length, hstoul, by rw [hbody, UInt64.ofNat_toNat], hbody⟩

theorem contentLength_read (hbase : base.requestHeaders = ∅) (time : Timestamp) :
    (((base.readRequestLine text.requestLine).setReceiveTime
      time).readHeaderLines text.headerLines).getHeader contentLengthName =
      contentLengthField text.headerLines := by
  apply HttpRequest.contentLength_readHeaderLines
  exact hbase

theorem getHeader_read (hbase : base.requestHeaders = ∅) (time : Timestamp) :
    (text.read base time).getHeader contentLengthName =
      contentLengthField text.headerLines := by
  rw [read, HttpRequest.getHeader_readBody, text.contentLength_read hbase]

namespace Reading

variable {text} {lineTime : Option Timestamp} {left : Bytes} {context : HttpContext}

/-- With all that is left of the request, the context gets all of it. -/
theorem finish (hbase : base.requestHeaders = ∅)
    (h : text.Reading base lineTime left context) (time : Timestamp) (rest : Bytes) :
    context.parseRequest (left ++ rest) time =
      ⟨.returned true, ⟨.finish, text.read base (lineTime.getD time)⟩, rest⟩ := by
  cases h with
  | requestLine => exact text.parse_render hbase time rest
  | headers lineTime taken left hlines =>
      have haccepted : AcceptedLines left := fun line hline =>
        text.acceptedLines line (by simp [hlines, hline])
      rw [List.append_assoc, List.cons_append, List.cons_append,
        HttpContext.parseRequest_headerLines haccepted,
        ← HttpRequest.readHeaderLines_append, ← hlines]
      apply HttpContext.parseRequest_headEnd
      rw [text.contentLength_read hbase]
      exact text.body_matches
  | body lineTime hlength =>
      obtain ⟨length, _, hsame, hbody⟩ := text.body_length hlength
      have hpass := @HttpContext.parsePass_body
        ⟨.body, (((base.readRequestLine text.requestLine).setReceiveTime
          lineTime).readHeaderLines text.headerLines).setContentLength
            (UInt64.ofNat text.body.length)⟩ time rfl text.body
        (by rw [← hsame]; exact hbody) rest
      rw [HttpContext.parseRequest_eq, hpass, RequestText.read, HttpRequest.readBody,
        if_neg (by rwa [text.contentLength_read hbase])]
      rfl

/-- A call that leaves the context in the middle of the request. -/
def StaysIn (text : RequestText) (base : HttpRequest) (lineTime : Option Timestamp)
    (context : HttpContext) (buff more : Bytes) (time : Timestamp) : Prop :=
  ∃ context' buff', context.parseRequest buff time = ⟨.returned false, context', buff'⟩ ∧
    text.Reading base lineTime (buff' ++ more) context'

theorem StaysIn.of_lacksData {buff more : Bytes} (time : Timestamp)
    (hlacks : context.LacksData buff)
    (h : text.Reading base lineTime (buff ++ more) context) :
    StaysIn text base lineTime context buff more time := by
  refine ⟨context, buff, ?_, h⟩
  rw [HttpContext.parseRequest_eq, HttpContext.parsePass_of_lacksData hlacks]

theorem StaysIn.of_again {context' : HttpContext} {buff buff' more : Bytes}
    {time : Timestamp} (hpass : context.parsePass buff time = .again context' buff')
    (h : StaysIn text base lineTime context' buff' more time) :
    StaysIn text base lineTime context buff more time := by
  obtain ⟨context'', buff'', hparse, hreading⟩ := h
  refine ⟨context'', buff'', ?_, hreading⟩
  rw [HttpContext.parseRequest_eq, hpass]
  exact hparse

theorem staysIn_body (hlength : contentLengthField text.headerLines ≠ [])
    (lineTime time : Timestamp) {buff more : Bytes} (hbuff : buff ++ more = text.body)
    (hmore : more ≠ []) :
    StaysIn text base (some lineTime)
      ⟨.body, (((base.readRequestLine text.requestLine).setReceiveTime
        lineTime).readHeaderLines text.headerLines).setContentLength
          (UInt64.ofNat text.body.length)⟩ buff more time := by
  obtain ⟨length, _, hsame, hbody⟩ := text.body_length hlength
  refine .of_lacksData time ?_ (by rw [hbuff]; exact .body lineTime hlength)
  change buff.length < (UInt64.ofNat text.body.length).toNat
  rw [← hsame, ← hbody, ← hbuff, List.length_append]
  exact Nat.lt_add_of_pos_right (List.length_pos_iff.mpr hmore)

/-- Among the header lines: one line after the other is read, until the bytes
that are there end. -/
theorem staysIn_headers (hbase : base.requestHeaders = ∅) (lineTime time : Timestamp)
    {more : Bytes} (hmore : more ≠ []) (left : List Bytes) :
    ∀ (taken : List Bytes) (buff : Bytes), text.headerLines = taken ++ left →
      buff ++ more = withCrlf left ++ CR :: LF :: text.body →
      StaysIn text base (some lineTime)
        ⟨.headers, ((base.readRequestLine text.requestLine).setReceiveTime
          lineTime).readHeaderLines taken⟩ buff more time := by
  induction left with
  | nil =>
      intro taken buff hlines hbuff
      rw [List.append_nil] at hlines
      subst hlines
      rcases begins_line (pairFree_nil CR LF) hbuff with ⟨hfree, _⟩ | ⟨rest', rfl, hrest⟩
      · exact .of_lacksData time hfree (hbuff ▸ .headers lineTime _ [] (by simp))
      · have hfield := text.contentLength_read hbase lineTime
        by_cases hlength : contentLengthField text.headerLines = []
        · -- Without a body nothing is missing.
          have hbody := text.body_matches
          rw [BodyMatches, if_pos hlength, ← hrest] at hbody
          exact absurd (List.append_eq_nil_iff.mp hbody).2 hmore
        · obtain ⟨length, hstoul, hsame, _⟩ := text.body_length hlength
          have hpass := @HttpContext.parsePass_headerLine ⟨.headers,
            ((base.readRequestLine text.requestLine).setReceiveTime
              lineTime).readHeaderLines text.headerLines⟩ time rfl []
            (pairFree_nil CR LF) rest'
          rw [HttpContext.takeHeaderLine_body _ (by rwa [hfield])
            (by rw [hfield]; exact hstoul), hsame] at hpass
          exact .of_again hpass (staysIn_body hlength lineTime time hrest hmore)
  | cons line left ih =>
      intro taken buff hlines hbuff
      obtain ⟨⟨hne, hfree⟩, haccepted⟩ := text.acceptedLines line (by simp [hlines])
      have hnext : buff ++ more =
          line ++ CR :: LF :: (withCrlf left ++ CR :: LF :: text.body) := by
        simpa [withCrlf] using hbuff
      rcases begins_line hfree hnext with ⟨hbuffree, _⟩ | ⟨rest', rfl, hrest⟩
      · exact .of_lacksData time hbuffree (hbuff ▸ .headers lineTime _ _ hlines)
      · have hpass := @HttpContext.parsePass_headerLine ⟨.headers,
          ((base.readRequestLine text.requestLine).setReceiveTime
            lineTime).readHeaderLines taken⟩ time rfl line hfree rest'
        rw [HttpContext.takeHeaderLine_accepted _ hne haccepted] at hpass
        have hstays := ih (taken ++ [line]) rest' (by simpa using hlines) hrest
        rw [HttpRequest.readHeaderLines_append] at hstays
        exact .of_again hpass hstays

/-- With less than what is left of the request, the context stays in it.  Its
line has been read by then if the bytes of the line are there. -/
theorem wait (hbase : base.requestHeaders = ∅)
    (h : text.Reading base lineTime left context) (time : Timestamp) {buff more : Bytes}
    (hbuff : buff ++ more = left) (hmore : more ≠ []) :
    StaysIn text base
      (lineTime.or (if text.requestLine.length + 2 + more.length ≤ text.render.length then
        some time else none)) context buff more time := by
  cases h with
  | requestLine =>
      have hline := text.render_eq []
      rw [List.append_nil, List.append_nil] at hline
      have hlength := congrArg List.length hbuff
      rw [List.length_append] at hlength
      rcases begins_line text.requestLine_free (hbuff.trans hline) with
        ⟨hfree, hshort⟩ | ⟨rest', rfl, hrest⟩
      · rw [if_neg (by omega)]
        exact .of_lacksData time hfree (hbuff ▸ .requestLine)
      · simp only [List.length_append, List.length_cons] at hlength
        rw [if_pos (by omega)]
        have hpass := @HttpContext.parsePass_requestLine ⟨.requestLine, base⟩ time rfl
          text.requestLine text.requestLine_free rest'
        rw [HttpContext.takeRequestLine_accepted _ text.requestLine_accepted] at hpass
        exact .of_again hpass
          (staysIn_headers hbase time time hmore text.headerLines [] rest' rfl hrest)
  | headers lineTime taken left hlines =>
      exact staysIn_headers hbase lineTime time hmore left taken buff hlines hbuff
  | body lineTime hlength => exact staysIn_body hlength lineTime time hbuff hmore

end Reading

end RequestText

variable {σ B : Type} [Buffer B]

/-- A call on a connection, from what a call on its readable bytes gives. -/
theorem Connection.parse_of_readable (connection : Connection B) (arrival : Arrival)
    {outcome : ParseOutcome} {context : HttpContext} {left : Bytes}
    (h : connection.context.parseRequest
      (Buffer.readable connection.buffer ++ arrival.bytes) arrival.time =
        ⟨outcome, context, left⟩) :
    ∃ buffer : B, Buffer.readable buffer = left ∧
      connection.parse arrival = (⟨context, buffer⟩, outcome) := by
  have hview := connection.parse_view arrival
  obtain ⟨hconnection, houtcome⟩ := Prod.mk.inj hview
  simp only [view, append_bytes, h] at hconnection houtcome
  refine ⟨(connection.parse arrival).1.buffer,
    (congrArg Connection.buffer hconnection).symm, ?_⟩
  have hcontext := congrArg Connection.context hconnection
  exact Prod.ext (congrArg (Connection.mk · _) hcontext.symm) houtcome.symm

/-- The callback does not see the buffer. -/
theorem HttpServer.onRequest_bytes (server : HttpServer σ) (handlers : σ)
    (request : HttpRequest) :
    server.onRequest B handlers request = server.onRequest Bytes handlers request := by
  cases hthrown : (server.httpCallback handlers request
      (HttpResponse.new (closesByDefault request))).thrown with
  | some e => rw [onRequest_threw server hthrown, onRequest_threw server hthrown]
  | none => rw [onRequest_returned server hthrown, onRequest_returned server hthrown]

/-- `Reset` after a request text. -/
theorem RequestText.reset_readAfter (text : RequestText) (stale : UInt64 × Bytes)
    (time : Timestamp) :
    (HttpContext.mk .finish (text.readAfter stale time)).reset =
      ⟨.requestLine, (HttpRequest.new 0).withStale (text.leaves stale).1
        (text.leaves stale).2⟩ := by
  have hlength := @RequestText.getHeader_read text
    ((HttpRequest.new 0).withStale stale.1 stale.2) rfl time
  rw [RequestText.read, HttpRequest.getHeader_readBody] at hlength
  rw [HttpContext.reset, HttpRequest.swap_new _ _ 0, readAfter, RequestText.read,
    HttpRequest.readBody, hlength, leaves]
  by_cases hfield : contentLengthField text.headerLines = []
  · rw [if_pos hfield, if_pos hfield, HttpRequest.readHeaderLines_eq]
    rfl
  · rw [if_neg hfield, if_neg hfield]
    rfl

/-- A connection, with `future` still to arrive on it, and the requests it
carries. -/
inductive Serves : Bytes → RequestService σ → ServerState σ B → Prop
  | idle (handlers : σ) (stale : UInt64 × Bytes) (buffer : B)
      (hbuffer : Buffer.readable buffer = []) :
      Serves [] ⟨handlers, [], 0, none, false, stale⟩
        ⟨handlers, ⟨⟨.requestLine, (HttpRequest.new 0).withStale stale.1 stale.2⟩, buffer⟩⟩
  | reading (handlers : σ) (text : RequestText) (later : List RequestText)
      (unread : Nat) (lineTime : Option Timestamp) (stale : UInt64 × Bytes)
      (context : HttpContext) (buffer : B) (left future : Bytes)
      (hreading : text.Reading ((HttpRequest.new 0).withStale stale.1 stale.2) lineTime
        left context)
      (hunread : unread + left.length =
        text.render.length + (Buffer.readable buffer).length)
      (hbytes : Buffer.readable buffer ++ future =
        left ++ later.flatMap RequestText.render) :
      Serves future ⟨handlers, text :: later, unread, lineTime, false, stale⟩
        ⟨handlers, ⟨context, buffer⟩⟩
  | pending (handlers : σ) (text : RequestText) (later : List RequestText)
      (time : Timestamp) (stale : UInt64 × Bytes) (buffer : B) (future : Bytes)
      (hbytes : Buffer.readable buffer ++ future = later.flatMap RequestText.render) :
      Serves future
        ⟨handlers, text :: later, text.render.length + (Buffer.readable buffer).length,
          some time, true, stale⟩
        ⟨handlers, ⟨⟨.finish, text.readAfter stale time⟩, buffer⟩⟩

namespace Serves

/-- At the beginning of a request. -/
theorem start (handlers : σ) (waiting : List RequestText) (stale : UInt64 × Bytes)
    (buffer : B) (future : Bytes)
    (hbytes : Buffer.readable buffer ++ future = waiting.flatMap RequestText.render) :
    Serves future ⟨handlers, waiting, (Buffer.readable buffer).length, none, false, stale⟩
      ⟨handlers, ⟨⟨.requestLine, (HttpRequest.new 0).withStale stale.1 stale.2⟩,
        buffer⟩⟩ := by
  cases waiting with
  | nil =>
      obtain ⟨hbuffer, rfl⟩ := List.append_eq_nil_iff.mp hbytes
      rw [hbuffer]
      exact .idle handlers stale buffer hbuffer
  | cons text later =>
      exact .reading handlers text later _ none stale _ buffer text.render future
        .requestLine (Nat.add_comm _ _) hbytes

variable (server : HttpServer σ) (arrival : Arrival)

/-- A call that finds all of the first request, or finds it pending, dispatches
it on both sides. -/
theorem dispatch {service : RequestService σ} {state : ServerState σ B} {text : RequestText}
    {later : List RequestText} {time : Timestamp} {rest : B} {future : Bytes}
    (hparse : state.connection.parse arrival =
      (⟨⟨.finish, text.readAfter service.stale time⟩, rest⟩, .returned true))
    (hpending : state.connection.context.gotAll = service.pending)
    (hhandlers : state.handlers = service.handlers)
    (hwaiting : service.waiting = text :: later)
    (htime : service.lineTimeAfter text arrival = some time)
    (hunread : service.unread + arrival.bytes.length =
      text.render.length + (Buffer.readable rest).length)
    (hbytes : Buffer.readable rest ++ future = later.flatMap RequestText.render) :
    Serves future (service.receive server arrival).1 (server.onMessage state arrival).1 ∧
      (service.receive server arrival).2 = (server.onMessage state arrival).2 := by
  obtain ⟨handlers, waiting, unread, lineTime, pending, stale⟩ := service
  obtain ⟨handlers', connection⟩ := state
  obtain rfl : handlers' = handlers := hhandlers
  obtain rfl : waiting = text :: later := hwaiting
  dsimp only at hparse hpending hunread
  have htrue : (connection.parse arrival).2 = .returned true := by rw [hparse]
  have hready : RequestService.ready ⟨handlers', text :: later, unread, lineTime, pending,
      stale⟩ text arrival = text.readAfter stale time := by
    rw [RequestService.ready, htime, Option.getD_some]
  have henough : text.render.length ≤ unread + arrival.bytes.length := by omega
  cases hthrown : (server.onRequest Bytes handlers' (text.readAfter stale time)).thrown with
  | some e =>
      have hcode := @HttpServer.onMessage_true_threw σ B _ server ⟨handlers', connection⟩
        arrival e htrue (by
          rw [server.onRequest_bytes, hparse]
          exact hthrown)
      simp only [hparse, HttpContext.getRequest, server.onRequest_bytes (B := B),
        HttpServer.completedIn, hpending] at hcode
      rw [RequestService.receive_threw rfl henough (by rw [hready]; exact hthrown), hready,
        hcode, htime, hunread]
      exact ⟨.pending _ text later time stale rest future hbytes, rfl⟩
  | none =>
      have hcode := @HttpServer.onMessage_true_returned σ B _ server ⟨handlers', connection⟩
        arrival htrue (by
          rw [server.onRequest_bytes, hparse]
          exact hthrown)
      simp only [hparse, HttpContext.getRequest, server.onRequest_bytes (B := B),
        HttpServer.completedIn, hpending, text.reset_readAfter] at hcode
      rw [RequestService.receive_returned rfl henough (by rw [hready]; exact hthrown), hready,
        hcode, hunread, Nat.add_sub_cancel_left]
      exact ⟨start _ later _ rest future hbytes, rfl⟩

section Reading

variable {server : HttpServer σ} {arrival : Arrival} {handlers : σ} {text : RequestText}
  {later : List RequestText} {unread : Nat} {lineTime : Option Timestamp}
  {stale : UInt64 × Bytes} {context : HttpContext} {buffer : B} {left future : Bytes}
  (hreading : text.Reading ((HttpRequest.new 0).withStale stale.1 stale.2) lineTime left context)
  (hunread : unread + left.length = text.render.length + (Buffer.readable buffer).length)
  (hbytes : Buffer.readable buffer ++ arrival.bytes ++ future =
    left ++ later.flatMap RequestText.render)

include hreading hunread hbytes

/-- A call in the middle of a request that brings the rest of it. -/
theorem receive_last (henough : left.length ≤ (Buffer.readable buffer ++ arrival.bytes).length) :
    let service : RequestService σ := ⟨handlers, text :: later, unread, lineTime, false, stale⟩
    let state : ServerState σ B := ⟨handlers, ⟨context, buffer⟩⟩
    Serves future (service.receive server arrival).1 (server.onMessage state arrival).1 ∧
      (service.receive server arrival).2 = (server.onMessage state arrival).2 := by
  intro service state
  obtain ⟨rest, hseen⟩ := List.prefix_of_prefix_length_le (List.prefix_append left _)
    (hbytes ▸ List.prefix_append _ future) henough
  rw [← hseen, List.append_assoc, List.append_cancel_left_eq] at hbytes
  obtain ⟨rest', hrest, hparse⟩ := Connection.parse_of_readable ⟨context, buffer⟩
    arrival (by rw [← hseen, hreading.finish rfl])
  have hlength := congrArg List.length hseen
  simp only [List.length_append] at hlength
  have hline := text.requestLine_lt_render
  refine dispatch server arrival hparse ?_ rfl rfl ?_ ?_ (by rw [hrest]; exact hbytes)
  · cases hreading <;> rfl
  · rw [RequestService.lineTimeAfter, if_pos (by dsimp only [service]; omega)]
    cases lineTime <;> rfl
  · rw [hrest]
    dsimp only [service]
    omega

/-- A call in the middle of a request that does not. -/
theorem receive_more (hshort : (Buffer.readable buffer ++ arrival.bytes).length < left.length) :
    let service : RequestService σ := ⟨handlers, text :: later, unread, lineTime, false, stale⟩
    let state : ServerState σ B := ⟨handlers, ⟨context, buffer⟩⟩
    Serves future (service.receive server arrival).1 (server.onMessage state arrival).1 ∧
      (service.receive server arrival).2 = (server.onMessage state arrival).2 := by
  intro service state
  obtain ⟨more, hleft⟩ := List.prefix_of_prefix_length_le
    (hbytes ▸ List.prefix_append (Buffer.readable buffer ++ arrival.bytes) future)
    (List.prefix_append left _) (Nat.le_of_lt hshort)
  have hlength := congrArg List.length hleft
  simp only [List.length_append] at hlength hshort
  have hmore : more ≠ [] := by
    rintro rfl
    simp only [List.length_nil] at hlength
    omega
  obtain ⟨context', buff', hparse, hnext⟩ := hreading.wait rfl arrival.time hleft hmore
  obtain ⟨rest, hrest, hparse⟩ := Connection.parse_of_readable ⟨context, buffer⟩
    arrival hparse
  rw [server.onMessage_false (by rw [hparse]),
    RequestService.receive_part rfl (by dsimp only [service]; omega), hparse]
  simp only [← hleft, List.append_assoc, List.append_cancel_left_eq] at hbytes
  have htime : service.lineTimeAfter text arrival =
      lineTime.or (if text.requestLine.length + 2 + more.length ≤ text.render.length
        then some arrival.time else none) := by
    have hsame : text.requestLine.length + 2 ≤ unread + arrival.bytes.length ↔
        text.requestLine.length + 2 + more.length ≤ text.render.length := by omega
    simp only [service, RequestService.lineTimeAfter, hsame]
  rw [htime]
  refine ⟨.reading handlers text later (unread + arrival.bytes.length) _ stale context'
    rest _ future hnext ?_ ?_, rfl⟩
  · rw [hrest, List.length_append]
    omega
  · rw [hrest, hbytes, List.append_assoc]

end Reading

/-- One call, whatever of the requests it brings. -/
theorem receive {service : RequestService σ} {state : ServerState σ B} {future : Bytes}
    (h : Serves (arrival.bytes ++ future) service state) :
    Serves future (service.receive server arrival).1 (server.onMessage state arrival).1 ∧
      (service.receive server arrival).2 = (server.onMessage state arrival).2 := by
  generalize hall : arrival.bytes ++ future = all at h
  cases h with
  | idle handlers stale buffer hbuffer =>
      obtain ⟨harrival, rfl⟩ := List.append_eq_nil_iff.mp hall
      have hlacks : (HttpContext.mk .requestLine
          ((HttpRequest.new 0).withStale stale.1 stale.2)).LacksData ([] : Bytes) :=
        pairFree_nil CR LF
      obtain ⟨rest, hrest, hparse⟩ := Connection.parse_of_readable
        ⟨⟨.requestLine, (HttpRequest.new 0).withStale stale.1 stale.2⟩, buffer⟩ arrival (by
          rw [hbuffer, harrival, List.append_nil, HttpContext.parseRequest_eq,
            HttpContext.parsePass_of_lacksData hlacks])
      rw [server.onMessage_false (by rw [hparse]), RequestService.receive_idle rfl, hparse,
        harrival]
      exact ⟨.idle handlers stale rest hrest, rfl⟩
  | reading handlers text later unread lineTime stale context buffer left future' hreading
      hunread hbytes =>
      rw [← hall, ← List.append_assoc] at hbytes
      by_cases henough : left.length ≤ (Buffer.readable buffer ++ arrival.bytes).length
      · exact receive_last hreading hunread hbytes henough
      · exact receive_more hreading hunread hbytes (Nat.lt_of_not_le henough)
  | pending handlers text later time stale buffer future' hbytes =>
      rw [← hall, ← List.append_assoc] at hbytes
      have hparse := Connection.parse_pending
        ⟨⟨.finish, text.readAfter stale time⟩, buffer⟩ arrival rfl
      refine dispatch server arrival hparse rfl rfl rfl rfl ?_
        (by rw [Buffer.readable_append]; exact hbytes)
      simp [Nat.add_assoc]

/-- A whole run. -/
theorem run (arrivals : List Arrival) {service : RequestService σ} {state : ServerState σ B}
    {future : Bytes} (h : Serves (received arrivals ++ future) service state) :
    Serves future (runFrom (RequestService.receive server) service arrivals).1
        (runFrom server.onMessage state arrivals).1 ∧
      (runFrom (RequestService.receive server) service arrivals).2 =
        (runFrom server.onMessage state arrivals).2 := by
  induction arrivals generalizing service state with
  | nil => exact ⟨h, rfl⟩
  | cons arrival rest ih =>
      rw [received_cons, List.append_assoc] at h
      obtain ⟨hnext, hevents⟩ := h.receive server arrival
      obtain ⟨hlast, hlater⟩ := ih hnext
      refine ⟨hlast, ?_⟩
      rw [runFrom_cons, runFrom_cons, hevents, hlater]

end Serves

/-- A new connection, with a stream of requests to arrive on it. -/
theorem Serves.fresh (handlers : σ) (indeterminate : UInt64) (requests : List RequestText)
    {future : Bytes} (hstream : future = requests.flatMap RequestText.render) :
    Serves future (.initial handlers requests indeterminate)
      (⟨handlers, .fresh indeterminate⟩ : ServerState σ B) := by
  have h := Serves.start handlers requests (indeterminate, []) (Buffer.empty : B) future
    (by rw [Buffer.readable_empty]; exact hstream)
  rwa [Buffer.readable_empty] at h

/-- On a stream of requests the server does exactly what the queue of requests
does, wherever the stream is cut and whatever the callback does. -/
theorem onMessage_refines_requestService (server : HttpServer σ) (handlers : σ)
    (indeterminate : UInt64) (requests : List RequestText) (arrivals : List Arrival)
    (future : Bytes)
    (hstream : received arrivals ++ future = requests.flatMap RequestText.render) :
    let service := runFrom (RequestService.receive server)
      (.initial handlers requests indeterminate) arrivals
    let code := runFrom server.onMessage
      (⟨handlers, .fresh indeterminate⟩ : ServerState σ B) arrivals
    code.2 = service.2 ∧ Serves future service.1 code.1 := by
  obtain ⟨hlast, hevents⟩ :=
    (Serves.fresh (B := B) handlers indeterminate requests hstream).run server arrivals
  exact ⟨hevents.symm, hlast⟩

/-- Two requests, cut behind the first four bytes of the second one, and a
callback that throws. -/
theorem onMessage_refines_requestService_cut :
    let requests : List RequestText := [.get, .get]
    let arrivals : List Arrival :=
      [⟨RequestText.get.render ++ RequestText.get.render.take 4, 1⟩, ⟨[], 2⟩]
    let service := runFrom (RequestService.receive HttpServer.failing)
      (.initial () requests 0) arrivals
    let code := runFrom HttpServer.failing.onMessage
      (⟨(), .fresh 0⟩ : ServerState Unit Bytes) arrivals
    code.2 = service.2 ∧ Serves (RequestText.get.render.drop 4) service.1 code.1 :=
  onMessage_refines_requestService HttpServer.failing () 0 [.get, .get] _ _ (by decide)

end CuteHttpServer
