/-
How the bytes of requests meet the calls of `OnMessage`.  A call that sees less
than a request refuses it, and a call that sees more than one answers the first
and leaves the others in the buffer.
-/
import CuteHttpServer.DispatchHistory
import CuteHttpServer.IncrementalParse

namespace CuteHttpServer

open ByteString DelimitedText KeyedMap StepRun

variable {σ B : Type} [Buffer B]

/-- The requests that the callback is given, in order. -/
def invocations : List Event → List HttpRequest
  | [] => []
  | .invoked request :: rest => request :: invocations rest
  | .completed _ :: rest => invocations rest
  | .sent _ :: rest => invocations rest
  | .shutdown :: rest => invocations rest
  | .caught _ :: rest => invocations rest

def Event.isSent : Event → Bool
  | .sent _ => true
  | _ => false

theorem invocations_neutral {events : List Event}
    (h : ∀ event ∈ events, event.Neutral) : invocations events = [] := by
  have hskip := Event.Neutral.skip (fun (_ : Unit) => invocations)
    (fun _ event rest h => by cases event <;> first | rfl | exact h.elim) h () []
  rwa [List.append_nil] at hskip

theorem RequestText.read_sameButTime (text : RequestText) {base : HttpRequest}
    (hbase : base.requestHeaders = ∅) (time time' : Timestamp) :
    (text.read base time).SameButTime (text.read base time') := by
  have h := (HttpContext.mk .requestLine base).parseRequest_sameButTime
    (rfl : Buffer.readable (text.render ++ []) = _) time time'
  rw [text.parse_render hbase, text.parse_render hbase] at h
  exact h.request

namespace HttpServer

variable (server : HttpServer σ) (state : ServerState σ B) (arrival : Arrival)

theorem invocations_onMessage
    (h : (state.connection.parse arrival).2 = .returned true) :
    invocations (server.onMessage state arrival).2 =
      [(state.connection.parse arrival).1.context.getRequest] := by
  obtain ⟨⟨later, hevents, hneutral⟩, _⟩ := server.onMessage_dispatches h
  rw [hevents, completedIn]
  cases state.connection.context.gotAll with
  | false => exact congrArg (_ :: ·) (invocations_neutral hneutral)
  | true => exact congrArg (_ :: ·) (invocations_neutral hneutral)

/-- A call that completes no request sends a 400 and shuts down. -/
theorem refusal_subset_onMessage
    (h : (state.connection.parse arrival).2 ≠ .returned true) :
    refusal ⊆ (server.onMessage state arrival).2 := by
  cases houtcome : (state.connection.parse arrival).2 with
  | threw e =>
      rw [server.onMessage_threw houtcome]
      exact List.subset_cons_self _ _
  | returned ok =>
      cases ok with
      | true => exact absurd houtcome h
      | false =>
          rw [server.onMessage_false houtcome]
          exact List.Subset.refl _

/-- A request text, and what follows it, in one call on a new connection. -/
theorem parse_fresh_render (indeterminate : UInt64) (text : RequestText)
    (arrival : Arrival) {tail : Bytes} (h : arrival.bytes = text.render ++ tail) :
    let parsed := (Connection.fresh indeterminate : Connection B).parse arrival
    parsed.2 = .returned true ∧
      parsed.1.context.getRequest =
        text.read (HttpRequest.new indeterminate) arrival.time ∧
      Buffer.readable parsed.1.buffer = tail := by
  have hview := (Connection.fresh indeterminate : Connection B).parse_view arrival
  have hparse := text.parse_render (HttpRequest.requestHeaders_new indeterminate)
    arrival.time tail
  rw [Connection.view_fresh, Connection.parse] at hview
  simp only [append_bytes, List.nil_append, HttpContext.new, h, hparse] at hview
  obtain ⟨hconnection, houtcome⟩ := Prod.mk.inj hview
  have hcontext := congrArg (fun connection => connection.context.getRequest) hconnection
  have hbuffer := congrArg Connection.buffer hconnection
  exact ⟨houtcome.symm, hcontext.symm, hbuffer.symm⟩

/-- Less than a request text is not a request: a call that sees a proper part
of it does not return `true`. -/
theorem parse_fresh_part (indeterminate : UInt64) (text : RequestText)
    (arrival : Arrival) {more : Bytes} (h : text.render = arrival.bytes ++ more)
    (hmore : more ≠ []) :
    ((Connection.fresh indeterminate : Connection B).parse arrival).2 ≠
      .returned true := by
  intro htrue
  have hholds := ((Connection.fresh indeterminate : Connection B).parse_true_iff
    arrival _).mp ⟨htrue, rfl⟩
  obtain ⟨text', hbytes⟩ := (holdsRest_requestLine_iff
    (HttpRequest.requestHeaders_new indeterminate) _ _).mp hholds
  have hsame : text.render ++ [] = text'.render ++
      (Buffer.readable ((Connection.fresh indeterminate : Connection B).parse
        arrival).1.buffer ++ more) := by
    rw [List.append_nil, h, ← List.append_assoc, ← hbytes]
    simp [Connection.fresh]
  have hnil := RequestText.render_append_cancel hsame
  exact hmore (List.append_eq_nil_iff.mp hnil.symm).2

end HttpServer

/-- Every call but the last is silent, and the last one passes the whole
request to the callback, once. -/
structure ServedWhenComplete (calls : List (List Event)) (request : HttpRequest) :
    Prop where
  quiet : ∀ events ∈ calls.dropLast, ∀ event ∈ events,
    event.isSent = false ∧ event ≠ .shutdown
  served : ∃ events ∈ calls.getLast?, ∃ invoked, invocations events = [invoked] ∧
    request.SameButTime invoked

/-- However a request is cut into pieces that arrive one by one: it is served
when it is complete, and not before, exactly when there is one piece. -/
theorem servedWhenComplete_iff (server : HttpServer σ) (handlers : σ)
    (indeterminate : UInt64) (text : RequestText) (segments : List Arrival)
    (hne : ∀ segment ∈ segments, segment.bytes ≠ [])
    (hbytes : received segments = text.render) :
    ServedWhenComplete
        (runFrom server.onMessage
          (⟨handlers, .fresh indeterminate⟩ : ServerState σ B) segments).2
        (text.read (HttpRequest.new indeterminate) default) ↔
      segments.length = 1 := by
  cases segments with
  | nil => exact absurd hbytes.symm text.render_ne_nil
  | cons first rest =>
      cases rest with
      | nil =>
          have hfirst : first.bytes = text.render ++ [] := by simpa using hbytes
          obtain ⟨htrue, hrequest, _⟩ :=
            HttpServer.parse_fresh_render (B := B) indeterminate text first hfirst
          have hinvoked := server.invocations_onMessage ⟨handlers, .fresh indeterminate⟩
            first htrue
          rw [hrequest] at hinvoked
          rw [runFrom_singleton]
          exact iff_of_true ⟨by simp, _, rfl, _, hinvoked,
            text.read_sameButTime rfl default first.time⟩ rfl
      | cons second rest =>
          have hmore : received (second :: rest) ≠ [] := by
            simp [hne second (by simp)]
          have hpart := HttpServer.parse_fresh_part (B := B) indeterminate text first
            hbytes.symm hmore
          have hrefusal := server.refusal_subset_onMessage
            ⟨handlers, .fresh indeterminate⟩ first hpart
          refine iff_of_false ?_ (by simp)
          intro hserved
          have hquiet := hserved.quiet (server.onMessage _ first).2
            (by simp [runFrom_cons]) .shutdown (hrefusal (by simp [refusal]))
          exact hquiet.2 rfl

/-- A server that answers every request with `200`. -/
def HttpServer.greeting : HttpServer Unit where
  httpCallback _ _ response := ⟨(), response.setStatusCode .k200Ok, none⟩
  headerOrder := .byEntry

/-- A `GET` without headers. -/
def RequestText.get : RequestText where
  requestLine := ascii "GET / HTTP/1.1"
  headerLines := []
  body := []
  requestLine_free := by decide
  requestLine_accepted := by decide
  headerLines_text := by simp
  headerLines_accepted := by simp
  body_matches := by simp [BodyMatches, contentLengthField, headerFields]

theorem servedWhenComplete_onePiece :
    ServedWhenComplete
        (runFrom HttpServer.greeting.onMessage
          (⟨(), .fresh 0⟩ : ServerState Unit Bytes) [⟨RequestText.get.render, 1⟩]).2
        (RequestText.get.read (HttpRequest.new 0) default) ↔
      [(⟨RequestText.get.render, 1⟩ : Arrival)].length = 1 :=
  servedWhenComplete_iff HttpServer.greeting () 0 .get [⟨RequestText.get.render, 1⟩]
    (by decide) (by decide)

/-- Cut inside the request line, the request is refused before it is whole. -/
theorem not_servedWhenComplete_twoPieces :
    let segments : List Arrival := [⟨ascii "GET / HT", 1⟩, ⟨ascii "TP/1.1\r\n\r\n", 2⟩]
    received segments = RequestText.get.render ∧
      ¬ ServedWhenComplete
        (runFrom HttpServer.greeting.onMessage
          (⟨(), .fresh 0⟩ : ServerState Unit Bytes) segments).2
        (RequestText.get.read (HttpRequest.new 0) default) := by
  intro segments
  refine ⟨by decide, ?_⟩
  intro hserved
  have hquiet := hserved.quiet refusal (by decide +kernel) .shutdown (by decide)
  exact hquiet.2 rfl

/-- The events of a call that answers requests: all of them reach the callback
in order, and there is one response for each. -/
structure AnswersAll (events : List Event) (requests : List HttpRequest) : Prop where
  invoked : invocations events = requests
  responses : events.countP Event.isSent = requests.length

/-- The unread bytes begin with a whole request. -/
def HoldsRequest (buffer : B) : Prop :=
  ∃ (text : RequestText) (tail : Bytes), Buffer.readable buffer = text.render ++ tail

namespace HttpServer

variable (server : HttpServer σ) (state : ServerState σ B) (arrival : Arrival)

/-- A call that completes a request sends one response. -/
theorem responses_onMessage
    (h : (state.connection.parse arrival).2 = .returned true) :
    (server.onMessage state arrival).2.countP Event.isSent = 1 := by
  set request := (state.connection.parse arrival).1.context.getRequest with hrequest
  have hcompleted : (completedIn state request).countP Event.isSent = 0 := by
    unfold completedIn
    cases state.connection.context.gotAll <;> rfl
  cases hcallback : (server.httpCallback state.handlers request
      (HttpResponse.new (closesByDefault request))).thrown with
  | some e =>
      have hdispatch := server.onRequest_threw (B := B) hcallback
      have hthrown : (server.onRequest B state.handlers request).thrown = some e := by
        rw [hdispatch]
      rw [server.onMessage_true_threw h hthrown]
      simp only [← hrequest, hdispatch, List.countP_append, hcompleted]
      rfl
  | none =>
      have hdispatch := server.onRequest_returned (B := B) hcallback
      have hthrown : (server.onRequest B state.handlers request).thrown = none := by
        rw [hdispatch]
      rw [server.onMessage_true_returned h hthrown]
      simp only [← hrequest, hdispatch, List.countP_append, hcompleted]
      split <;> rfl

/-- The bytes left unread by a call that completes a request. -/
theorem buffer_onMessage
    (h : (state.connection.parse arrival).2 = .returned true) :
    (server.onMessage state arrival).1.connection.buffer =
      (state.connection.parse arrival).1.buffer := by
  rw [(server.onMessage_dispatches h).2]
  split <;> rfl

end HttpServer

/-- Several requests in one call are all answered exactly when there is one;
and a call that completes a request leaves no other one in the buffer exactly
when the bytes it saw did not hold one behind the request it completed. -/
theorem answersAll_iff (server : HttpServer σ) :
    (∀ (handlers : σ) (indeterminate : UInt64) (first : RequestText)
        (rest : List RequestText) (arrival : Arrival),
      arrival.bytes = (first :: rest).flatMap RequestText.render →
      (AnswersAll
          (server.onMessage
            (⟨handlers, .fresh indeterminate⟩ : ServerState σ B) arrival).2
          ((first :: rest).map fun text =>
            text.read (HttpRequest.new indeterminate) arrival.time) ↔
        rest = [])) ∧
    ∀ (state : ServerState σ B) (arrival : Arrival),
      HttpServer.CompletesRequest state arrival →
      (¬ HoldsRequest (server.onMessage state arrival).1.connection.buffer ↔
        ¬ ∃ (next : RequestText) (tail : Bytes), state.connection.context.HoldsRest
          (Buffer.readable state.connection.buffer ++ arrival.bytes)
          (next.render ++ tail)) := by
  constructor
  · intro handlers indeterminate first rest arrival hbytes
    rw [List.flatMap_cons] at hbytes
    obtain ⟨htrue, hrequest, _⟩ :=
      HttpServer.parse_fresh_render (B := B) indeterminate first arrival hbytes
    have hinvoked := server.invocations_onMessage ⟨handlers, .fresh indeterminate⟩
      arrival htrue
    have hresponses := server.responses_onMessage ⟨handlers, .fresh indeterminate⟩
      arrival htrue
    rw [hrequest] at hinvoked
    constructor
    · rintro ⟨_, hcount⟩
      rw [hresponses] at hcount
      simpa using hcount
    · rintro rfl
      exact ⟨hinvoked, hresponses⟩
  · intro state arrival hcompletes
    rw [HttpServer.completesRequest_iff] at hcompletes
    rw [server.buffer_onMessage state arrival hcompletes, not_iff_not]
    constructor
    · rintro ⟨next, tail, hleft⟩
      exact ⟨next, tail, (state.connection.parse_true_iff arrival _).mp
        ⟨hcompletes, hleft⟩⟩
    · rintro ⟨next, tail, hholds⟩
      exact ⟨next, tail, ((state.connection.parse_true_iff arrival _).mpr hholds).2⟩

theorem answersAll_one :
    let start : ServerState Unit Bytes := ⟨(), .fresh 0⟩
    let arrival : Arrival := ⟨RequestText.get.render, 1⟩
    (AnswersAll (HttpServer.greeting.onMessage start arrival).2
        ([RequestText.get].map fun text => text.read (HttpRequest.new 0) 1) ↔
      ([] : List RequestText) = []) ∧
    (¬ HoldsRequest (HttpServer.greeting.onMessage start arrival).1.connection.buffer ↔
      ¬ ∃ (next : RequestText) (tail : Bytes), start.connection.context.HoldsRest
        (Buffer.readable start.connection.buffer ++ arrival.bytes)
        (next.render ++ tail)) :=
  ⟨(answersAll_iff HttpServer.greeting).1 () 0 .get [] _ (by decide),
    (answersAll_iff HttpServer.greeting).2 _ _
      ((HttpServer.completesRequest_iff _ _).mpr (by decide +kernel))⟩

/-- The second of two requests in one call stays in the buffer. -/
theorem not_answersAll_two :
    let call := HttpServer.greeting.onMessage (⟨(), .fresh 0⟩ : ServerState Unit Bytes)
      ⟨RequestText.get.render ++ RequestText.get.render, 1⟩
    ¬ AnswersAll call.2
        ([RequestText.get, RequestText.get].map fun text =>
          text.read (HttpRequest.new 0) 1) ∧
      HoldsRequest call.1.connection.buffer := by
  intro call
  refine ⟨?_, .get, [], by decide +kernel⟩
  intro hanswers
  exact absurd hanswers.responses (by decide +kernel)

end CuteHttpServer
