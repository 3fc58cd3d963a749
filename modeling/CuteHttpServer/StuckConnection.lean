/-
A connection whose callback has thrown.  The request stays in the context, so
each further read calls the callback on it again, and until that returns nothing
that the client sends is read.
-/
import CuteHttpServer.ParseWork
import CuteHttpServer.ResponseStream
import Mathlib.Logic.Function.Iterate

namespace CuteHttpServer

open ByteString StepRun

namespace HttpServer

variable {σ B : Type} [Buffer B] (server : HttpServer σ)

/-- What a call of the callback on this request makes of the handlers' state. -/
def retry (request : HttpRequest) (handlers : σ) : σ :=
  (server.httpCallback handlers request (HttpResponse.new (closesByDefault request))).state

variable {server} {state : ServerState σ B} {arrival : Arrival}

theorem onRequest_state (handlers : σ) (request : HttpRequest) :
    (server.onRequest B handlers request).state = server.retry request handlers := by
  unfold retry
  cases hthrown : (server.httpCallback handlers request
      (HttpResponse.new (closesByDefault request))).thrown with
  | some e => rw [server.onRequest_threw hthrown]
  | none => rw [server.onRequest_returned hthrown]

theorem onMessage_handlers (h : (state.connection.parse arrival).2 = .returned true) :
    (server.onMessage state arrival).1.handlers =
      server.retry (state.connection.parse arrival).1.context.getRequest state.handlers := by
  cases hthrown : (server.onRequest B state.handlers
      (state.connection.parse arrival).1.context.getRequest).thrown with
  | some e =>
      rw [server.onMessage_true_threw h hthrown]
      exact onRequest_state _ _
  | none =>
      rw [server.onMessage_true_returned h hthrown]
      exact onRequest_state _ _

/-- What a read does while a request is pending. -/
structure Retries (server : HttpServer σ) (request : HttpRequest) (state : ServerState σ B)
    (arrival : Arrival) : Prop where
  invoked : invocations (server.onMessage state arrival).2 = [request]
  completed : completedRequests (server.onMessage state arrival).2 = []
  handlers : (server.onMessage state arrival).1.handlers = server.retry request state.handlers
  buffer : Buffer.readable (server.onMessage state arrival).1.connection.buffer =
    Buffer.readable state.connection.buffer ++ arrival.bytes
  context : (server.onMessage state arrival).1.connection.context =
    if server.throwsOn state.handlers request then state.connection.context
    else state.connection.context.reset

theorem retries_of_pending (hpending : state.connection.context.gotAll = true) :
    Retries server state.connection.context.getRequest state arrival := by
  have hparse := state.connection.parse_pending arrival hpending
  have htrue : (state.connection.parse arrival).2 = .returned true := by rw [hparse]
  obtain ⟨⟨later, hevents, hneutral⟩, hconnection⟩ := server.onMessage_dispatches htrue
  have hinvoked := server.invocations_onMessage state arrival htrue
  have hhandlers := @onMessage_handlers _ _ _ server _ _ htrue
  rw [hparse] at hinvoked hconnection hevents hhandlers
  refine ⟨hinvoked, ?_, hhandlers, ?_, ?_⟩
  · have hlater := completedRequests_neutral hneutral
    rw [hevents, completedIn, if_pos hpending, List.nil_append]
    exact hlater
  · rw [onMessage_buffer, hparse, Buffer.readable_append]
  · rw [hconnection]
    split
    · rfl
    · rfl

/-- The answer to a read in which the callback throws. -/
theorem refused_of_throws (htrue : (state.connection.parse arrival).2 = .returned true)
    (hthrows : server.throwsOn state.handlers
      (state.connection.parse arrival).1.context.getRequest = true) :
    sentTexts (server.onMessage state arrival).2 = [badRequest] ∧
      .shutdown ∈ (server.onMessage state arrival).2 := by
  obtain ⟨e, hthrown⟩ := Option.isSome_iff_exists.mp hthrows
  have hdispatch := server.onRequest_threw (B := B) hthrown
  have hmessage := server.onMessage_true_threw htrue (by rw [hdispatch])
  constructor
  · rw [sentTexts_true htrue, if_neg (by rw [hthrown]; exact Option.some_ne_none e)]
  · rw [hmessage]
    simp [refusal]

/-- The server after some reads in which the callback has thrown on the request
that was pending at `start`. -/
structure StuckSince (server : HttpServer σ) (start : ServerState σ B)
    (arrivals : List Arrival) (state : ServerState σ B) : Prop where
  handlers : state.handlers =
    (server.retry start.connection.context.getRequest)^[arrivals.length] start.handlers
  context : state.connection.context = start.connection.context
  buffer : Buffer.readable state.connection.buffer =
    Buffer.readable start.connection.buffer ++ received arrivals

/-- A call that has nothing to show but the request that failed before. -/
def FailsAgain (request : HttpRequest) (events : List Event) : Prop :=
  invocations events = [request] ∧ completedRequests events = [] ∧
    sentTexts events = [badRequest] ∧ .shutdown ∈ events

section Stuck

variable {start : ServerState σ B} {arrivals : List Arrival}
  (h : StuckSince server start arrivals state)
  (hpending : start.connection.context.gotAll = true)

include h hpending

/-- One more read in which it throws. -/
theorem StuckSince.again
    (hthrows : server.throwsOn state.handlers start.connection.context.getRequest = true) :
    StuckSince server start (arrivals ++ [arrival]) (server.onMessage state arrival).1 ∧
      FailsAgain start.connection.context.getRequest (server.onMessage state arrival).2 := by
  obtain ⟨hhandlers, hcontext, hbuffer⟩ := h
  rw [← hcontext] at hpending hthrows hhandlers ⊢
  have hretries := @retries_of_pending _ _ _ server state arrival hpending
  have hparse := state.connection.parse_pending arrival hpending
  have hrefused := @refused_of_throws _ _ _ server state arrival (by rw [hparse])
    (by rw [hparse]; exact hthrows)
  refine ⟨⟨?_, ?_, ?_⟩, hretries.invoked, hretries.completed, hrefused⟩
  · rw [hretries.handlers, hhandlers, hcontext, List.length_append, List.length_singleton,
      Function.iterate_succ_apply']
  · rw [hretries.context, if_pos hthrows, hcontext]
  · rw [hretries.buffer, hbuffer]
    simp

/-- The read in which it returns. -/
theorem StuckSince.released
    (hreturns : server.throwsOn state.handlers start.connection.context.getRequest = false) :
    let released := (server.onMessage state arrival).1.connection
    released.context = start.connection.context.reset ∧
      Buffer.readable released.buffer =
        Buffer.readable start.connection.buffer ++ received (arrivals ++ [arrival]) := by
  obtain ⟨_, hcontext, hbuffer⟩ := h
  rw [← hcontext] at hpending hreturns ⊢
  have hretries := @retries_of_pending _ _ _ server state arrival hpending
  refine ⟨?_, ?_⟩
  · exact hretries.context.trans (if_neg (by rw [hreturns]; exact Bool.false_ne_true))
  · refine hretries.buffer.trans ?_
    rw [hbuffer]
    simp

end Stuck

theorem stuckSince_run (server : HttpServer σ) (start : ServerState σ B)
    (hpending : start.connection.context.gotAll = true) (arrivals : List Arrival)
    (hthrows : ∀ tries < arrivals.length, server.throwsOn
      ((server.retry start.connection.context.getRequest)^[tries] start.handlers)
        start.connection.context.getRequest = true) :
    StuckSince server start arrivals (runFrom server.onMessage start arrivals).1 ∧
      ∀ call ∈ (runFrom server.onMessage start arrivals).2,
        FailsAgain start.connection.context.getRequest call := by
  induction arrivals using List.reverseRecOn with
  | nil =>
      exact ⟨⟨rfl, rfl, (List.append_nil _).symm⟩, fun _ hcall => absurd hcall List.not_mem_nil⟩
  | append_singleton arrivals arrival ih =>
      obtain ⟨hstuck, hcalls⟩ := ih fun tries htries =>
        hthrows tries (htries.trans (by simp))
      have hlast := hthrows arrivals.length (by simp)
      rw [← hstuck.handlers] at hlast
      obtain ⟨hagain, hcall⟩ := @StuckSince.again _ _ _ _ _ arrival _ _ hstuck hpending hlast
      rw [runFrom_append, runFrom_singleton]
      refine ⟨hagain, fun call hmem => ?_⟩
      rcases List.mem_append.mp hmem with hmem | hmem
      · exact hcalls call hmem
      · rw [List.mem_singleton.mp hmem]
        exact hcall

/-- While the callback throws on the pending request, each read calls it again on
that request and is answered with a 400; no request is completed, and all that
the client sends stays in the buffer.  The read in which it returns leaves all of
that to the next one. -/
theorem stuck_connection (server : HttpServer σ) (start : ServerState σ B)
    (hpending : start.connection.context.gotAll = true) (arrivals : List Arrival)
    (hthrows : ∀ tries < arrivals.length, server.throwsOn
      ((server.retry start.connection.context.getRequest)^[tries] start.handlers)
        start.connection.context.getRequest = true) :
    let request := start.connection.context.getRequest
    let run := runFrom server.onMessage start arrivals
    (∀ call ∈ run.2, FailsAgain request call) ∧
    run.1.connection.context = start.connection.context ∧
    Buffer.readable run.1.connection.buffer =
      Buffer.readable start.connection.buffer ++ received arrivals ∧
    ∀ arrival, server.throwsOn run.1.handlers request = false →
      let released := (server.onMessage run.1 arrival).1.connection
      released.context = start.connection.context.reset ∧
        Buffer.readable released.buffer =
          Buffer.readable start.connection.buffer ++ received (arrivals ++ [arrival]) := by
  obtain ⟨hstuck, hcalls⟩ := stuckSince_run server start hpending arrivals hthrows
  exact ⟨hcalls, hstuck.context, hstuck.buffer,
    fun arrival hreturns => hstuck.released hpending hreturns⟩

/-- A server whose callback throws three times and then answers. -/
def moody : HttpServer Nat where
  httpCallback count _ response :=
    ⟨count + 1, response, if count < 3 then some ⟨ascii "no"⟩ else none⟩
  headerOrder := .byEntry

/-- A request and then the first three bytes of another. -/
theorem stuck_connection_moody :
    let start := (moody.onMessage (⟨0, .fresh 0⟩ : ServerState Nat Bytes)
      ⟨RequestText.get.render, 1⟩).1
    let run := runFrom moody.onMessage start [⟨ascii "G", 2⟩, ⟨ascii "E", 3⟩]
    run.1.connection.buffer = ascii "GE" ∧
      (moody.onMessage run.1 ⟨ascii "T", 4⟩).1.connection.buffer = ascii "GET" := by
  intro start run
  obtain ⟨_, _, hbuffer, hreleased⟩ := stuck_connection moody start (by decide +kernel)
    [⟨ascii "G", 2⟩, ⟨ascii "E", 3⟩] (by decide +kernel)
  exact ⟨hbuffer.trans (by decide +kernel),
    (hreleased ⟨ascii "T", 4⟩ (by decide +kernel)).2.trans (by decide +kernel)⟩

end HttpServer

end CuteHttpServer
