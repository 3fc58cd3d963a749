/-
Which requests reach the callback over a whole connection.  An exception of
the callback leaves the context in `FINISH`, where the next call finds the same
request again; and the server goes on parsing after it has shut down its side.
-/
import CuteHttpServer.HttpServer
import CuteHttpServer.AcceptanceSoundness

namespace CuteHttpServer

open ByteString DelimitedText KeyedMap StepRun

/-- For each call of the callback, how many requests had been completed by
then. -/
def dispatchSerials : Nat → List Event → List Nat
  | _, [] => []
  | count, .completed _ :: rest => dispatchSerials (count + 1) rest
  | count, .invoked _ :: rest => count :: dispatchSerials count rest
  | count, .sent _ :: rest => dispatchSerials count rest
  | count, .shutdown :: rest => dispatchSerials count rest
  | count, .caught _ :: rest => dispatchSerials count rest

/-- How many requests have been completed after some events. -/
def completions : Nat → List Event → Nat
  | count, [] => count
  | count, .completed _ :: rest => completions (count + 1) rest
  | count, .invoked _ :: rest => completions count rest
  | count, .sent _ :: rest => completions count rest
  | count, .shutdown :: rest => completions count rest
  | count, .caught _ :: rest => completions count rest

/-- No completed request is passed to the callback a second time. -/
def AtMostOnce (events : List Event) : Prop := (dispatchSerials 0 events).Nodup

instance (events : List Event) : Decidable (AtMostOnce events) :=
  inferInstanceAs (Decidable (List.Nodup _))

theorem dispatchSerials_append (count : Nat) (events later : List Event) :
    dispatchSerials count (events ++ later) =
      dispatchSerials count events ++
        dispatchSerials (completions count events) later := by
  induction events generalizing count with
  | nil => rfl
  | cons event events ih =>
      cases event with
      | completed request => exact ih (count + 1)
      | invoked request => exact congrArg (count :: ·) (ih count)
      | sent data => exact ih count
      | shutdown => exact ih count
      | caught e => exact ih count

theorem dispatchSerials_neutral {events : List Event}
    (h : ∀ event ∈ events, event.Neutral) (count : Nat) :
    dispatchSerials count events = [] ∧ completions count events = count := by
  have hserials := Event.Neutral.skip dispatchSerials
    (fun count event rest h => by cases event <;> first | rfl | exact h.elim) h count []
  have hcompletions := Event.Neutral.skip completions
    (fun count event rest h => by cases event <;> first | rfl | exact h.elim) h count []
  rw [List.append_nil] at hserials hcompletions
  exact ⟨hserials, hcompletions⟩

namespace HttpServer

variable {σ B : Type} [Buffer B] (server : HttpServer σ)

/-- The callback is called in this call of `OnMessage`, and throws. -/
def callThrows (state : ServerState σ B) (arrival : Arrival) : Bool :=
  (state.connection.parse arrival).2 == .returned true &&
    server.throwsOn state.handlers
      (state.connection.parse arrival).1.context.getRequest

/-- In no call but possibly the last does the callback throw. -/
def ThrowsOnlyLast : ServerState σ B → List Arrival → Prop
  | _, [] => True
  | _, [_] => True
  | state, arrival :: next :: rest =>
      server.callThrows state arrival = false ∧
        ThrowsOnlyLast (server.onMessage state arrival).1 (next :: rest)

variable {state : ServerState σ B} (arrival : Arrival)

/-- A call that finds no request pending dispatches at most one, which it has
just completed, and leaves one pending exactly when the callback throws. -/
theorem onMessage_serials (hstate : state.connection.context.gotAll = false)
    (count : Nat) :
    (server.onMessage state arrival).1.connection.context.gotAll =
        server.callThrows state arrival ∧
      ((dispatchSerials count (server.onMessage state arrival).2 = [] ∧
          completions count (server.onMessage state arrival).2 = count ∧
          server.callThrows state arrival = false) ∨
        (dispatchSerials count (server.onMessage state arrival).2 = [count + 1] ∧
          completions count (server.onMessage state arrival).2 = count + 1)) := by
  by_cases htrue : (state.connection.parse arrival).2 = .returned true
  · obtain ⟨⟨later, hevents, hneutral⟩, hconnection⟩ := server.onMessage_dispatches htrue
    have hgot := (state.connection.parse_gotAll_iff arrival).mpr htrue
    have hlater := dispatchSerials_neutral hneutral (count + 1)
    have hthrows : server.callThrows state arrival =
        server.throwsOn state.handlers
          (state.connection.parse arrival).1.context.getRequest := by
      simp [callThrows, htrue]
    refine ⟨?_, Or.inr ?_⟩
    · rw [hconnection, hthrows]
      cases hcase : server.throwsOn state.handlers
        (state.connection.parse arrival).1.context.getRequest
      · rfl
      · exact hgot
    · rw [hevents, completedIn, hstate]
      exact ⟨congrArg ((count + 1) :: ·) hlater.1, hlater.2⟩
  · obtain ⟨hneutral, hnext⟩ := server.onMessage_idle htrue
    have hthrows : server.callThrows state arrival = false := by
      simp [callThrows, htrue]
    rw [hnext, hthrows]
    exact ⟨gotAll_of_not_true htrue,
      Or.inl ⟨(dispatchSerials_neutral hneutral count).1,
        (dispatchSerials_neutral hneutral count).2, rfl⟩⟩

/-- A call that finds a request pending dispatches that one again. -/
theorem onMessage_serials_pending (hstate : state.connection.context.gotAll = true)
    (count : Nat) :
    dispatchSerials count (server.onMessage state arrival).2 = [count] := by
  have htrue : (state.connection.parse arrival).2 = .returned true := by
    rw [state.connection.parse_pending arrival hstate]
  obtain ⟨⟨later, hevents, hneutral⟩, _⟩ := server.onMessage_dispatches htrue
  rw [hevents, completedIn, hstate]
  exact congrArg (count :: ·) (dispatchSerials_neutral hneutral count).1

/-- From a state without a pending request: where only the last call may
throw, the serials ascend. -/
theorem serials_ascend (arrivals : List Arrival) (state : ServerState σ B)
    (hstate : state.connection.context.gotAll = false)
    (hthrows : server.ThrowsOnlyLast state arrivals) (count : Nat) :
    (dispatchSerials count
        (runFrom server.onMessage state arrivals).2.flatten).Pairwise (· < ·) ∧
      ∀ serial ∈ dispatchSerials count
        (runFrom server.onMessage state arrivals).2.flatten, count < serial := by
  induction arrivals generalizing state count with
  | nil => simp [dispatchSerials]
  | cons arrival rest ih =>
      obtain ⟨hpending, hserials⟩ := server.onMessage_serials arrival hstate count
      have hrest : (dispatchSerials (completions count (server.onMessage state arrival).2)
            (runFrom server.onMessage (server.onMessage state arrival).1
              rest).2.flatten).Pairwise (· < ·) ∧
          ∀ serial ∈ dispatchSerials
              (completions count (server.onMessage state arrival).2)
              (runFrom server.onMessage (server.onMessage state arrival).1 rest).2.flatten,
            completions count (server.onMessage state arrival).2 < serial := by
        cases rest with
        | nil => simp [dispatchSerials]
        | cons next rest =>
            obtain ⟨hquiet, hlater⟩ := hthrows
            exact ih _ (hpending.trans hquiet) hlater _
      rw [runFrom_cons, List.flatten_cons, dispatchSerials_append]
      rcases hserials with ⟨hnone, hcount, _⟩ | ⟨hone, hcount⟩
      · rw [hcount] at hrest
        rwa [hnone, hcount]
      · rw [hcount] at hrest
        rw [hone, hcount, List.singleton_append]
        refine ⟨List.pairwise_cons.mpr ⟨hrest.2, hrest.1⟩, ?_⟩
        intro serial hserial
        rcases List.mem_cons.mp hserial with rfl | hserial
        · omega
        · have hlater := hrest.2 serial hserial
          omega

/-- Conversely, an exception before the last call makes a serial occur
twice. -/
theorem throwsOnlyLast_of_nodup (arrivals : List Arrival) (state : ServerState σ B)
    (hstate : state.connection.context.gotAll = false) (count : Nat)
    (hnodup : (dispatchSerials count
      (runFrom server.onMessage state arrivals).2.flatten).Nodup) :
    server.ThrowsOnlyLast state arrivals := by
  induction arrivals generalizing state count with
  | nil => trivial
  | cons arrival rest ih =>
      cases rest with
      | nil => trivial
      | cons next rest =>
          obtain ⟨hpending, hserials⟩ := server.onMessage_serials arrival hstate
            count
          rw [runFrom_cons, List.flatten_cons, dispatchSerials_append] at hnodup
          cases hthrows : server.callThrows state arrival with
          | false =>
              exact ⟨hthrows, ih _ (hpending.trans hthrows) _ hnodup.of_append_right⟩
          | true =>
              have hagain := server.onMessage_serials_pending next
                (hpending.trans hthrows) (count + 1)
              rcases hserials with ⟨_, _, hquiet⟩ | ⟨hone, hcount⟩
              · simp [hthrows] at hquiet
              · rw [hone, hcount, runFrom_cons, List.flatten_cons,
                  dispatchSerials_append, hagain] at hnodup
                simp at hnodup

end HttpServer

variable {σ B : Type} [Buffer B]

/-- Over a whole connection, each completed request is passed to the callback
at most once exactly when the callback throws in no call but possibly the
last. -/
theorem atMostOnce_iff (server : HttpServer σ) (handlers : σ)
    (indeterminate : UInt64) (arrivals : List Arrival) :
    AtMostOnce (runFrom server.onMessage
        (⟨handlers, .fresh indeterminate⟩ : ServerState σ B) arrivals).2.flatten ↔
      server.ThrowsOnlyLast
        (⟨handlers, .fresh indeterminate⟩ : ServerState σ B) arrivals := by
  have hfresh : (Connection.fresh indeterminate : Connection B).context.gotAll = false :=
    rfl
  constructor
  · exact HttpServer.throwsOnlyLast_of_nodup server arrivals _ hfresh 0
  · intro hthrows
    have hascend := (HttpServer.serials_ascend server arrivals _ hfresh hthrows 0).1
    exact hascend.imp fun hlt => Nat.ne_of_lt hlt

/-- A server whose callback always throws. -/
def HttpServer.failing : HttpServer Unit where
  httpCallback _ _ response := ⟨(), response, some ⟨ascii "failed"⟩⟩
  headerOrder := .byEntry

/-- The next bytes of the client bring the request back to the callback. -/
theorem not_atMostOnce_failing :
    ¬ AtMostOnce (runFrom HttpServer.failing.onMessage
      (⟨(), .fresh 0⟩ : ServerState Unit Bytes)
      [⟨ascii "GET / HTTP/1.1\r\n\r\n", 1⟩, ⟨ascii "G", 2⟩]).2.flatten := by
  decide +kernel

def Event.isInvoked : Event → Bool
  | .invoked _ => true
  | _ => false

theorem Event.Neutral.isInvoked {event : Event} (h : event.Neutral) :
    event.isInvoked = false := by
  cases event <;> trivial

/-- No call after one that shuts the connection down reaches the callback. -/
def SilentAfterShutdown : List (List Event) → Prop
  | [] => True
  | call :: later =>
      (.shutdown ∈ call → ∀ events ∈ later, ∀ event ∈ events, event.isInvoked = false) ∧
        SilentAfterShutdown later

instance SilentAfterShutdown.decidable :
    ∀ calls : List (List Event), Decidable (SilentAfterShutdown calls)
  | [] => inferInstanceAs (Decidable True)
  | _ :: later =>
      have := SilentAfterShutdown.decidable later
      inferInstanceAs (Decidable (_ ∧ _))

namespace HttpServer

variable (server : HttpServer σ)

/-- In the state the parser is in, the unread bytes and the new ones hold the
rest of a request. -/
def CompletesRequest (state : ServerState σ B) (arrival : Arrival) : Prop :=
  ∃ tail, state.connection.context.HoldsRest
    (Buffer.readable state.connection.buffer ++ arrival.bytes) tail

/-- No call of a run finds the rest of a request. -/
def CompletesNone : ServerState σ B → List Arrival → Prop
  | _, [] => True
  | state, arrival :: rest =>
      ¬ CompletesRequest state arrival ∧
        CompletesNone (server.onMessage state arrival).1 rest

/-- After each call that shuts the connection down, none does. -/
def CompletesNoneAfterShutdown : ServerState σ B → List Arrival → Prop
  | _, [] => True
  | state, arrival :: rest =>
      (.shutdown ∈ (server.onMessage state arrival).2 →
        server.CompletesNone (server.onMessage state arrival).1 rest) ∧
      CompletesNoneAfterShutdown (server.onMessage state arrival).1 rest

theorem completesRequest_iff (state : ServerState σ B) (arrival : Arrival) :
    CompletesRequest state arrival ↔
      (state.connection.parse arrival).2 = .returned true := by
  constructor
  · rintro ⟨tail, hrest⟩
    exact ((state.connection.parse_true_iff arrival tail).mpr hrest).1
  · intro htrue
    exact ⟨_, (state.connection.parse_true_iff arrival _).mp ⟨htrue, rfl⟩⟩

/-- A call reaches the callback exactly when it finds the rest of a request. -/
theorem invoked_mem_onMessage_iff (state : ServerState σ B) (arrival : Arrival) :
    (∃ event ∈ (server.onMessage state arrival).2, event.isInvoked = true) ↔
      CompletesRequest state arrival := by
  rw [completesRequest_iff]
  constructor
  · rintro ⟨event, hmem, hinvoked⟩
    by_contra htrue
    have hneutral := (server.onMessage_idle htrue).1 event hmem
    simp [hneutral.isInvoked] at hinvoked
  · intro htrue
    obtain ⟨⟨later, hevents, _⟩, _⟩ := server.onMessage_dispatches htrue
    refine ⟨.invoked (state.connection.parse arrival).1.context.getRequest, ?_, rfl⟩
    rw [hevents]
    exact List.mem_append_right _ List.mem_cons_self

theorem completesNone_iff (arrivals : List Arrival) (state : ServerState σ B) :
    server.CompletesNone state arrivals ↔
      ∀ events ∈ (runFrom server.onMessage state arrivals).2,
        ∀ event ∈ events, event.isInvoked = false := by
  induction arrivals generalizing state with
  | nil => simp [CompletesNone]
  | cons arrival rest ih =>
      rw [CompletesNone, runFrom_cons, List.forall_mem_cons, ih,
        ← server.invoked_mem_onMessage_iff]
      simp only [not_exists, not_and, Bool.not_eq_true]

end HttpServer

/-- In every run on one connection, no call after a shutdown reaches the
callback exactly when none of them finds the rest of a request. -/
theorem silentAfterShutdown_iff (server : HttpServer σ) (handlers : σ)
    (indeterminate : UInt64) (arrivals : List Arrival) :
    SilentAfterShutdown (runFrom server.onMessage
        (⟨handlers, .fresh indeterminate⟩ : ServerState σ B) arrivals).2 ↔
      server.CompletesNoneAfterShutdown
        (⟨handlers, .fresh indeterminate⟩ : ServerState σ B) arrivals := by
  generalize (⟨handlers, .fresh indeterminate⟩ : ServerState σ B) = state
  induction arrivals generalizing state with
  | nil => exact Iff.rfl
  | cons arrival rest ih =>
      rw [runFrom_cons, SilentAfterShutdown, HttpServer.CompletesNoneAfterShutdown,
        ih, server.completesNone_iff]

/-- A server whose callback closes every connection. -/
def HttpServer.closing : HttpServer Unit where
  httpCallback _ _ response := ⟨(), response.setCloseConnection true, none⟩
  headerOrder := .byEntry

/-- A second request after a response that closed the connection. -/
theorem not_silentAfterShutdown_closing :
    let events := (runFrom HttpServer.closing.onMessage
      (⟨(), .fresh 0⟩ : ServerState Unit Bytes)
      [⟨ascii "GET / HTTP/1.1\r\n\r\n", 1⟩,
        ⟨ascii "POST / HTTP/1.1\r\n\r\n", 2⟩]).2
    ¬ SilentAfterShutdown events := by
  decide +kernel

end CuteHttpServer
