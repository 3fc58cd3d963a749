/-
`OnMessage` and `OnRequest`: what the server does with the bytes of one
connection, as events in the order in which they happen.  This is the plain
text path, with `use_ssl_` off.
-/
import CuteHttpServer.HttpResponse
import CuteHttpServer.ParseCalls

namespace CuteHttpServer

open ByteString DelimitedText KeyedMap StepRun

/-- What a call of `http_callback_` did: the state of everything the handlers
keep, the response as they left it, and the exception that came out, if any. -/
structure CallbackResult (σ : Type) where
  state : σ
  response : HttpResponse
  thrown : Option StdException

abbrev HttpCallback (σ : Type) := σ → HttpRequest → HttpResponse → CallbackResult σ

/-- The members of the server that the two functions use. -/
structure HttpServer (σ : Type) where
  httpCallback : HttpCallback σ
  headerOrder : IterationOrder Bytes Bytes

/-- What can be seen of a server at work.  `completed` is no action of the
code: it marks the call of `ParseRequest` that has brought the context to
`FINISH`. -/
inductive Event
  | completed (request : HttpRequest)
  | invoked (request : HttpRequest)
  | sent (data : Bytes)
  | shutdown
  | caught (e : StdException)
deriving DecidableEq

/-- Neither a dispatch nor a completed request. -/
def Event.Neutral : Event → Prop
  | .completed _ => False
  | .invoked _ => False
  | .sent _ => True
  | .shutdown => True
  | .caught _ => True

/-- What looks only at dispatches and completed requests passes over neutral
events. -/
theorem Event.Neutral.skip {α β : Type} (f : α → List Event → β)
    (hf : ∀ a event rest, event.Neutral → f a (event :: rest) = f a rest)
    {events : List Event} (h : ∀ event ∈ events, event.Neutral) (a : α)
    (rest : List Event) : f a (events ++ rest) = f a rest := by
  induction events with
  | nil => rfl
  | cons event events ih =>
      obtain ⟨hfirst, hrest⟩ := List.forall_mem_cons.mp h
      exact (hf a event _ hfirst).trans (ih hrest)

/-- How a call of `OnRequest` went. -/
structure Dispatch (σ : Type) where
  state : σ
  events : List Event
  thrown : Option StdException

/-- The handlers' state and one connection. -/
structure ServerState (σ B : Type) where
  handlers : σ
  connection : Connection B

def badRequest : Bytes := ascii "HTTP/1.1 400 Bad Request\r\n\r\n"

/-- What follows a request that is refused. -/
def refusal : List Event := [.sent badRequest, .shutdown]

/-- Whether the response starts out as one that closes the connection. -/
def closesByDefault (request : HttpRequest) : Bool :=
  let connectionField := request.getHeader (ascii "Connection")
  connectionField == ascii "close" ||
    (request.getVersion == ascii "HTTP/1.0" && connectionField != ascii "Keep-Alive")

namespace HttpServer

variable {σ B : Type} [Buffer B] (server : HttpServer σ)

/-- `OnRequest`.  Where the callback throws, nothing is sent here. -/
def onRequest (B : Type) [Buffer B] (handlers : σ) (request : HttpRequest) :
    Dispatch σ :=
  let called := server.httpCallback handlers request
    (HttpResponse.new (closesByDefault request))
  match called.thrown with
  | some e => ⟨called.state, [.invoked request], some e⟩
  | none =>
      let buffer := called.response.appendToBuffer server.headerOrder
        (Buffer.empty : B)
      ⟨called.state,
        [.invoked request, .sent (Buffer.readable buffer)] ++
          (if called.response.isCloseConnection then [.shutdown] else []), none⟩

/-- `OnMessage`, once the bytes of an arrival are in the buffer.  An exception
is caught here, whether the parser or the callback threw it, and the context
is then not reset. -/
def onMessage (state : ServerState σ B) (arrival : Arrival) :
    ServerState σ B × List Event :=
  let parsed := state.connection.parse arrival
  let completed :=
    if !state.connection.context.gotAll && parsed.1.context.gotAll then
      [.completed parsed.1.context.getRequest]
    else []
  match parsed.2 with
  | .threw e => (⟨state.handlers, parsed.1⟩, completed ++ .caught e :: refusal)
  | .returned ok =>
      let refused := if !ok then refusal else []
      if parsed.1.context.gotAll then
        let dispatch := server.onRequest B state.handlers parsed.1.context.getRequest
        match dispatch.thrown with
        | some e =>
            (⟨dispatch.state, parsed.1⟩,
              completed ++ refused ++ dispatch.events ++ .caught e :: refusal)
        | none =>
            (⟨dispatch.state, ⟨parsed.1.context.reset, parsed.1.buffer⟩⟩,
              completed ++ refused ++ dispatch.events)
      else (⟨state.handlers, parsed.1⟩, completed ++ refused)

/-- The callback throws on this request. -/
def throwsOn (handlers : σ) (request : HttpRequest) : Bool :=
  (server.httpCallback handlers request
    (HttpResponse.new (closesByDefault request))).thrown.isSome

end HttpServer

namespace Connection

variable {B : Type} [Buffer B]

/-- A call returns `true` exactly when it leaves the context with all of a
request. -/
theorem parse_gotAll_iff (connection : Connection B) (arrival : Arrival) :
    (connection.parse arrival).1.context.gotAll = true ↔
      (connection.parse arrival).2 = .returned true := by
  have h : (connection.view.parse arrival).1.context.gotAll = true ↔
      (connection.view.parse arrival).2 = .returned true := by
    rw [HttpContext.gotAll, beq_iff_eq]
    exact (connection.context.parseRequest_finish_iff _ _).symm
  rwa [parse_view] at h

/-- It returns `true` and leaves `tail` exactly when the unread bytes and the
new ones hold the rest of a request and then `tail`. -/
theorem parse_true_iff (connection : Connection B) (arrival : Arrival)
    (tail : Bytes) :
    ((connection.parse arrival).2 = .returned true ∧
        Buffer.readable (connection.parse arrival).1.buffer = tail) ↔
      connection.context.HoldsRest
        (Buffer.readable connection.buffer ++ arrival.bytes) tail := by
  have hview := connection.parse_view arrival
  rw [← connection.context.parseRequest_returned_iff _ _ arrival.time]
  have houtcome : (connection.context.parseRequest
      (Buffer.readable connection.buffer ++ arrival.bytes) arrival.time).outcome =
      (connection.parse arrival).2 := congrArg Prod.snd hview
  have hbuffer : (connection.context.parseRequest
      (Buffer.readable connection.buffer ++ arrival.bytes) arrival.time).buffer =
      Buffer.readable (connection.parse arrival).1.buffer :=
    congrArg (fun parsed => parsed.1.buffer) hview
  rw [← houtcome, ← hbuffer]
  constructor
  · rintro ⟨htrue, rfl⟩
    exact ⟨_, by rw [← htrue]⟩
  · rintro ⟨context', h⟩
    rw [h]
    exact ⟨rfl, rfl⟩

/-- A pending request stays as it is. -/
theorem parse_pending (connection : Connection B) (arrival : Arrival)
    (h : connection.context.gotAll = true) :
    connection.parse arrival =
      (⟨connection.context, Buffer.append connection.buffer arrival.bytes⟩,
        .returned true) := by
  have hfinish : connection.context.state = .finish := by
    simpa [HttpContext.gotAll] using h
  simp [parse, HttpContext.parseRequest_eq, HttpContext.parsePass, hfinish]

end Connection

namespace HttpServer

variable {σ B : Type} [Buffer B] (server : HttpServer σ) {state : ServerState σ B}
  {arrival : Arrival}

/-- The marker for a request that this call has completed. -/
def completedIn (state : ServerState σ B) (request : HttpRequest) : List Event :=
  if state.connection.context.gotAll then [] else [.completed request]

theorem gotAll_of_not_true
    (h : (state.connection.parse arrival).2 ≠ .returned true) :
    (state.connection.parse arrival).1.context.gotAll = false := by
  rw [Bool.eq_false_iff]
  exact fun hgot => h ((state.connection.parse_gotAll_iff arrival).mp hgot)

/-- The parser threw: the answer is a 400, and the context stays as it is. -/
theorem onMessage_threw {e : StdException}
    (h : (state.connection.parse arrival).2 = .threw e) :
    server.onMessage state arrival =
      (⟨state.handlers, (state.connection.parse arrival).1⟩, .caught e :: refusal) := by
  have hgot : (state.connection.parse arrival).1.context.gotAll = false :=
    gotAll_of_not_true (by simp [h])
  simp [onMessage, h, hgot]

/-- The parser returned `false`, for whatever reason. -/
theorem onMessage_false
    (h : (state.connection.parse arrival).2 = .returned false) :
    server.onMessage state arrival =
      (⟨state.handlers, (state.connection.parse arrival).1⟩, refusal) := by
  have hgot : (state.connection.parse arrival).1.context.gotAll = false :=
    gotAll_of_not_true (by simp [h])
  simp [onMessage, h, hgot]

/-- All of a request is there, and the callback throws: the context is not
reset. -/
theorem onMessage_true_threw {e : StdException}
    (h : (state.connection.parse arrival).2 = .returned true)
    (hthrown : (server.onRequest B state.handlers
      (state.connection.parse arrival).1.context.getRequest).thrown = some e) :
    let parsed := (state.connection.parse arrival).1
    let dispatch := server.onRequest B state.handlers parsed.context.getRequest
    server.onMessage state arrival =
      (⟨dispatch.state, parsed⟩,
        completedIn state parsed.context.getRequest ++ dispatch.events ++
          .caught e :: refusal) := by
  have hgot := (state.connection.parse_gotAll_iff arrival).mpr h
  cases hbefore : state.connection.context.gotAll <;>
    simp [onMessage, completedIn, h, hgot, hbefore, hthrown]

/-- All of a request is there, and the callback returns. -/
theorem onMessage_true_returned
    (h : (state.connection.parse arrival).2 = .returned true)
    (hthrown : (server.onRequest B state.handlers
      (state.connection.parse arrival).1.context.getRequest).thrown = none) :
    let parsed := (state.connection.parse arrival).1
    let dispatch := server.onRequest B state.handlers parsed.context.getRequest
    server.onMessage state arrival =
      (⟨dispatch.state, ⟨parsed.context.reset, parsed.buffer⟩⟩,
        completedIn state parsed.context.getRequest ++ dispatch.events) := by
  have hgot := (state.connection.parse_gotAll_iff arrival).mpr h
  cases hbefore : state.connection.context.gotAll <;>
    simp [onMessage, completedIn, h, hgot, hbefore, hthrown]

theorem onRequest_threw {handlers : σ} {request : HttpRequest} {e : StdException}
    (h : (server.httpCallback handlers request
      (HttpResponse.new (closesByDefault request))).thrown = some e) :
    server.onRequest B handlers request =
      ⟨(server.httpCallback handlers request
        (HttpResponse.new (closesByDefault request))).state, [.invoked request], some e⟩ := by
  simp only [onRequest, h]

theorem onRequest_returned {handlers : σ} {request : HttpRequest}
    (h : (server.httpCallback handlers request
      (HttpResponse.new (closesByDefault request))).thrown = none) :
    let called := server.httpCallback handlers request
      (HttpResponse.new (closesByDefault request))
    server.onRequest B handlers request =
      ⟨called.state,
        .invoked request ::
          .sent ((called.response.getResponse server.headerOrder).takeWhile (· ≠ 0)) ::
          (if called.response.isCloseConnection then [.shutdown] else []), none⟩ := by
  simp only [onRequest, h, HttpResponse.appendToBuffer, Buffer.readable_append,
    Buffer.readable_empty, List.nil_append, List.cons_append]

theorem onRequest_thrown_isSome (handlers : σ) (request : HttpRequest) :
    (server.onRequest B handlers request).thrown.isSome =
      server.throwsOn handlers request := by
  unfold throwsOn
  cases hthrown : (server.httpCallback handlers request
      (HttpResponse.new (closesByDefault request))).thrown with
  | some e => rw [onRequest_threw server hthrown]
  | none => rw [onRequest_returned server hthrown]

/-- A dispatch invokes the callback once, before anything else, and completes
nothing. -/
theorem onRequest_events (handlers : σ) (request : HttpRequest) :
    ∃ later, (server.onRequest B handlers request).events = .invoked request :: later ∧
      ∀ event ∈ later, event.Neutral := by
  cases hthrown : (server.httpCallback handlers request
      (HttpResponse.new (closesByDefault request))).thrown with
  | some e =>
      rw [onRequest_threw server hthrown]
      exact ⟨[], rfl, fun event hevent => absurd hevent List.not_mem_nil⟩
  | none =>
      rw [onRequest_returned server hthrown]
      refine ⟨_, rfl, ?_⟩
      intro event hevent
      rcases List.mem_cons.mp hevent with rfl | hevent
      · trivial
      · split at hevent
        · rw [List.mem_singleton.mp hevent]
          trivial
        · exact absurd hevent List.not_mem_nil

/-- A call in which the parser does not return `true` completes nothing and
dispatches nothing. -/
theorem onMessage_idle
    (h : (state.connection.parse arrival).2 ≠ .returned true) :
    (∀ event ∈ (server.onMessage state arrival).2, event.Neutral) ∧
      (server.onMessage state arrival).1 =
        ⟨state.handlers, (state.connection.parse arrival).1⟩ := by
  cases houtcome : (state.connection.parse arrival).2 with
  | threw e =>
      rw [server.onMessage_threw houtcome]
      refine ⟨?_, rfl⟩
      intro event hevent
      simp only [refusal, List.mem_cons, List.not_mem_nil, or_false] at hevent
      rcases hevent with rfl | rfl | rfl <;> trivial
  | returned ok =>
      cases ok with
      | true => exact absurd houtcome h
      | false =>
          rw [server.onMessage_false houtcome]
          refine ⟨?_, rfl⟩
          intro event hevent
          simp only [refusal, List.mem_cons, List.not_mem_nil, or_false] at hevent
          rcases hevent with rfl | rfl <;> trivial

/-- A call in which it does dispatches what the context holds, once, and
leaves a request pending exactly when the callback throws. -/
theorem onMessage_dispatches
    (h : (state.connection.parse arrival).2 = .returned true) :
    let request := (state.connection.parse arrival).1.context.getRequest
    (∃ later, (server.onMessage state arrival).2 =
        completedIn state request ++ .invoked request :: later ∧
      ∀ event ∈ later, event.Neutral) ∧
    (server.onMessage state arrival).1.connection =
      if server.throwsOn state.handlers request then (state.connection.parse arrival).1
      else ⟨(state.connection.parse arrival).1.context.reset,
        (state.connection.parse arrival).1.buffer⟩ := by
  intro request
  have hthrows := server.onRequest_thrown_isSome (B := B) state.handlers request
  obtain ⟨later, hevents, hneutral⟩ :=
    server.onRequest_events (B := B) state.handlers request
  cases hthrown : (server.onRequest B state.handlers request).thrown with
  | some e =>
      rw [hthrown] at hthrows
      rw [server.onMessage_true_threw h hthrown, ← hthrows]
      refine ⟨⟨later ++ .caught e :: refusal, ?_, ?_⟩, rfl⟩
      · simp [request, hevents]
      · intro event hevent
        rcases List.mem_append.mp hevent with hevent | hevent
        · exact hneutral event hevent
        · simp only [refusal, List.mem_cons, List.not_mem_nil, or_false] at hevent
          rcases hevent with rfl | rfl | rfl <;> trivial
  | none =>
      rw [hthrown] at hthrows
      rw [server.onMessage_true_returned h hthrown, ← hthrows]
      exact ⟨⟨later, by simp [request, hevents], hneutral⟩, rfl⟩

end HttpServer

end CuteHttpServer
