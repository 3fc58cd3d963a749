/-
The handlers as one object that all connections share.  Whatever happens on the
connections, it is called by one request after the other, and what is sent are
its answers in that order, with nothing among them but refusals.
-/
import CuteHttpServer.ConnectionIsolation
import CuteHttpServer.StuckConnection

namespace CuteHttpServer

open ByteString KeyedMap StepRun

variable {σ T B : Type} [Buffer B]

namespace HttpServer

/-- The callback as an operation on the handlers' state, with what is sent for
it. -/
def call (server : HttpServer σ) (handlers : σ) (request : HttpRequest) : σ × Bytes :=
  let called := server.httpCallback handlers request
    (HttpResponse.new (closesByDefault request))
  (called.state,
    if called.thrown = none then called.response.sent server.headerOrder else badRequest)

end HttpServer

/-- What some events are, as the answers to the calls among them: those are sent,
and a refusal where there is none. -/
structure AnswersWith (events : List Event) (answers : List Bytes) : Prop where
  calls : (invocations events).length = answers.length
  sent : sentTexts events = answers ∨ answers = [] ∧ sentTexts events = [badRequest]

/-- From one state of the handlers to another, by the calls among some events. -/
def HttpServer.Handles (server : HttpServer σ) (handlers next : σ) (events : List Event) :
    Prop :=
  ∃ answers, AnswersWith events answers ∧
    runFrom server.call handlers (invocations events) = (next, answers)

namespace HttpServer

variable {server : HttpServer σ} {handlers : σ}

theorem Handles.nothing : server.Handles handlers handlers [] :=
  ⟨[], ⟨rfl, Or.inl rfl⟩, rfl⟩

theorem Handles.refuses {events : List Event} (hnone : invocations events = [])
    (hsent : sentTexts events = [badRequest]) : server.Handles handlers handlers events := by
  refine ⟨[], ⟨by rw [hnone]; rfl, Or.inr ⟨rfl, hsent⟩⟩, ?_⟩
  rw [hnone]
  rfl

variable (server) in
/-- One call of `OnMessage`. -/
theorem onMessage_handles (state : ServerState σ B) (arrival : Arrival) :
    server.Handles state.handlers (server.onMessage state arrival).1.handlers
      (server.onMessage state arrival).2 := by
  by_cases htrue : (state.connection.parse arrival).2 = .returned true
  · have hcalled := server.invocations_onMessage state arrival htrue
    have hsent := @sentTexts_true _ _ _ server _ _ htrue
    set request := (state.connection.parse arrival).1.context.getRequest with hrequest
    have hhandlers : (server.onMessage state arrival).1.handlers =
        (server.call state.handlers request).1 := onMessage_handlers htrue
    refine ⟨[(server.call state.handlers request).2], ⟨by rw [hcalled]; rfl, Or.inl ?_⟩, ?_⟩
    · rw [hsent, call]
      split
      · rfl
      · rfl
    · rw [hcalled, hhandlers]
      rfl
  · obtain ⟨hneutral, hnext⟩ := server.onMessage_idle htrue
    rw [hnext]
    exact .refuses (invocations_neutral hneutral) (sentTexts_not_true htrue)

end HttpServer

namespace SslServer

variable (server : HttpServer σ) (methods : SslMethods T B) (state : SslServer σ T B)
  (conn : ConnectionId)

theorem serve_handles (connection : Connection B) (time : Timestamp) (buf : BufferPtr) :
    server.Handles state.handlers (state.serve server conn connection time buf).1.handlers
      (state.serve server conn connection time buf).2.events := by
  cases buf with
  | socket => exact server.onMessage_handles _ _
  | decrypted =>
      rw [serve]
      cases state.sslConnections.lookup conn with
      | none => exact .nothing
      | some session => exact server.onMessage_handles _ _

theorem afterRead_handles (read : OnReadResult T B) (connection : Connection B)
    (time : Timestamp) :
    server.Handles state.handlers
      (state.afterRead server conn read connection time).1.handlers
      (state.afterRead server conn read connection time).2.events := by
  rw [afterRead]
  cases read.thrown with
  | some e => exact .refuses rfl rfl
  | none =>
      dsimp only
      split
      · exact .nothing
      · split
        · exact .nothing
        · exact serve_handles server { state with
            sslConnections := assign state.sslConnections conn read.session
            connections := assign state.connections conn ⟨connection.context, read.buffer⟩ }
            _ _ _ _

theorem onMessage_handles (connection : Connection B) (buf : BufferPtr) (time : Timestamp) :
    server.Handles state.handlers
      (state.onMessage server methods conn connection buf time).1.handlers
      (state.onMessage server methods conn connection buf time).2.events := by
  rw [onMessage]
  split
  · exact state.serve_handles server conn _ _ _
  · exact state.afterRead_handles server conn _ _ _

variable {server} {methods} {state} in
/-- One event of any connection. -/
theorem step_handles {next : SslServer σ T B} {event : SslEvent} {handled : Handled}
    (h : state.step server methods event = some (next, handled)) :
    server.Handles state.handlers next.handlers handled.events := by
  cases event with
  | enableSsl enable =>
      obtain ⟨rfl, rfl⟩ := Prod.mk.inj (Option.some.inj h)
      exact .nothing
  | connected other indeterminate =>
      obtain ⟨rfl, rfl⟩ := Prod.mk.inj (Option.some.inj (Option.ite_none_left_eq_some.mp h).2)
      exact .nothing
  | disconnected other =>
      obtain ⟨rfl, rfl⟩ := Prod.mk.inj (Option.some.inj (Option.ite_none_right_eq_some.mp h).2)
      exact .nothing
  | message other arrival =>
      obtain ⟨connection, _, hhandled⟩ := Option.map_eq_some_iff.mp h
      have hmessage := state.onMessage_handles server methods other
        ⟨connection.context, Buffer.append connection.buffer arrival.bytes⟩ .socket arrival.time
      rwa [hhandled] at hmessage
  | decrypted other time =>
      obtain ⟨connection, _, hhandled⟩ :=
        Option.map_eq_some_iff.mp (Option.ite_none_right_eq_some.mp h).2
      have hmessage := state.onMessage_handles server methods other connection .decrypted time
      rwa [hhandled] at hmessage

/-- In every interleaving of connections, with and without TLS, the handlers'
state is what the requests make of it one after the other, in the order of their
calls, and each connection is sent, for its own, what they are answered there. -/
theorem handlers_oneByOne (server : HttpServer σ) (methods : SslMethods T B)
    {start final : SslServer σ T B} {events : List SslEvent} {outputs : List Handled}
    (hrun : tryRunFrom (step server methods) start events = some (final, outputs)) :
    ∃ answers : List (List Bytes),
      List.Forall₂ (fun handled => AnswersWith handled.events) outputs answers ∧
      runFrom server.call start.handlers
          (outputs.flatMap fun handled => invocations handled.events) =
        (final.handlers, answers.flatten) :=
  @tryRunFrom_calls _ _ _ _ _ _ _ server.call handlers _ _ step_handles _ _ _ _ hrun

/-- A server that tells each visitor how many there were before. -/
def counting : HttpServer Nat where
  httpCallback visits _ response :=
    ⟨visits + 1, response.setResponseBody (decimal visits), none⟩
  headerOrder := .byEntry

/-- Two connections, the second of which is the first to complete a request. -/
def visits : List SslEvent :=
  [.connected 0 0, .message 0 ⟨RequestText.get.render.take 5, 1⟩, .connected 1 0,
    .message 1 ⟨RequestText.get.render, 2⟩, .message 0 ⟨RequestText.get.render.drop 5, 3⟩]

theorem handlers_oneByOne_counting :
    ∃ (final : SslServer Nat Unit Bytes) (outputs : List Handled)
      (answers : List (List Bytes)),
      tryRunFrom (step counting passing) (initial 0 false) visits = some (final, outputs) ∧
      List.Forall₂ (fun handled => AnswersWith handled.events) outputs answers ∧
      runFrom counting.call 0 (outputs.flatMap fun handled => invocations handled.events) =
        (2, answers.flatten) := by
  obtain ⟨answers, hfits, hcalls⟩ :=
    @handlers_oneByOne Nat Unit Bytes _ counting passing (initial 0 false) _ visits _ rfl
  exact ⟨_, _, answers, rfl, hfits, hcalls.trans (congrArg (·, _) (by decide +kernel))⟩

end SslServer

end CuteHttpServer
