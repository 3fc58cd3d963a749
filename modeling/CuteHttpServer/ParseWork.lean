/-
How much work the parser does over a whole connection.  A call makes one pass
for each line that it takes and one more, so all calls together make no more
passes than there are line ends and reads.
-/
import CuteHttpServer.HttpServer
import CuteHttpServer.ParseBounds

namespace CuteHttpServer

open ByteString DelimitedText StepRun

namespace HttpContext

variable {B : Type} [Buffer B] (receiveTime : Timestamp)

/-- The passes that a loop makes which may make `fuel` of them. -/
def loopPasses : Nat → HttpContext → B → Nat
  | 0, _, _ => 0
  | fuel + 1, context, buff =>
      match context.parsePass buff receiveTime with
      | .done _ => 1
      | .again context buff => loopPasses fuel context buff + 1

/-- The passes of a call of `ParseRequest`. -/
def passes (context : HttpContext) (buff : B) : Nat :=
  loopPasses receiveTime ((Buffer.readable buff).length + 1) context buff

theorem parseLoop_isSome_iff_loopPasses {enough : Nat} {context : HttpContext} {buff : B}
    (henough : (parseLoop receiveTime enough context buff).isSome) (fuel : Nat) :
    (parseLoop receiveTime fuel context buff).isSome ↔
      loopPasses receiveTime enough context buff ≤ fuel := by
  induction enough generalizing context buff fuel with
  | zero => exact absurd henough Bool.false_ne_true
  | succ enough ih =>
      rw [parseLoop] at henough
      rw [loopPasses]
      cases fuel with
      | zero =>
          refine iff_of_false Bool.false_ne_true (Nat.not_le_of_lt ?_)
          split <;> exact Nat.succ_pos _
      | succ fuel =>
          rw [parseLoop]
          cases hpass : context.parsePass buff receiveTime with
          | done result => exact iff_of_true rfl (Nat.succ_le_succ (Nat.zero_le fuel))
          | again context' buff' =>
              rw [hpass] at henough
              exact (ih henough fuel).trans Nat.succ_le_succ_iff.symm

/-- The loop of the call ends within so many passes, and not before. -/
theorem parseLoop_isSome_iff (context : HttpContext) (buff : B) (fuel : Nat) :
    (parseLoop receiveTime fuel context buff).isSome ↔
      context.passes receiveTime buff ≤ fuel :=
  parseLoop_isSome_iff_loopPasses receiveTime
    (parseLoop_isSome receiveTime (Nat.lt_succ_self _)) fuel

/-- Whatever is still to come, each pass but the last takes a line end that no
later call finds. -/
theorem loopPasses_le {fuel : Nat} {context : HttpContext} {buff : B}
    {result : ParseResult B}
    (h : parseLoop receiveTime fuel context buff = some result) (future : Bytes) :
    loopPasses receiveTime fuel context buff +
        pairCount CR LF (Buffer.readable result.buffer ++ future) ≤
      pairCount CR LF (Buffer.readable buff ++ future) + 1 := by
  induction fuel generalizing context buff with
  | zero => exact absurd h.symm (Option.some_ne_none result)
  | succ fuel ih =>
      rw [parseLoop] at h
      rw [loopPasses]
      cases hpass : context.parsePass buff receiveTime with
      | done last =>
          rw [hpass] at h
          obtain rfl : last = result := Option.some.inj h
          have htakes := parsePass_takes context receiveTime (Buffer.readable buff)
          rw [← parsePass_readable, hpass] at htakes
          obtain ⟨taken, htaken⟩ := htakes.suffix
          have hbuff : Buffer.readable buff ++ future =
              taken ++ (Buffer.readable last.buffer ++ future) := by
            rw [← htaken, List.append_assoc]
          have hfewer := pairCount_le_append CR LF taken (Buffer.readable last.buffer ++ future)
          rw [hbuff, Nat.add_comm]
          exact Nat.add_le_add_right hfewer 1
      | again context' buff' =>
          rw [hpass] at h
          obtain ⟨line, _, hbuff⟩ := parsePass_again_line hpass
          have hfewer := pairCount_lt_append CR LF line (Buffer.readable buff' ++ future)
          have hrest := ih h
          simp only [hbuff, List.append_assoc, List.cons_append]
          omega

/-- The same for a call. -/
theorem passes_le (context : HttpContext) (buff : B) (future : Bytes) :
    context.passes receiveTime buff +
        pairCount CR LF
          (Buffer.readable (context.parseRequest buff receiveTime).buffer ++ future) ≤
      pairCount CR LF (Buffer.readable buff ++ future) + 1 :=
  loopPasses_le receiveTime (Option.some_get _).symm future

end HttpContext

namespace HttpServer

variable {σ B : Type} [Buffer B]

/-- The passes of the parser in a call of `OnMessage`. -/
def parsePasses (state : ServerState σ B) (arrival : Arrival) : Nat :=
  state.connection.context.passes arrival.time
    (Buffer.append state.connection.buffer arrival.bytes)

/-- Only the parser takes bytes off the buffer. -/
theorem onMessage_buffer (server : HttpServer σ) (state : ServerState σ B)
    (arrival : Arrival) :
    (server.onMessage state arrival).1.connection.buffer =
      (state.connection.parse arrival).1.buffer := by
  by_cases htrue : (state.connection.parse arrival).2 = .returned true
  · rw [(server.onMessage_dispatches htrue).2]
    split
    · rfl
    · rfl
  · rw [(server.onMessage_idle htrue).2]

/-- Over a whole connection the parser makes no more passes than line ends have
come in and calls have been made, whatever the bytes are, wherever they are cut
and whatever the callback does.  A pass is one of the loop: it ends within so
many and not before. -/
theorem parsePasses_run (server : HttpServer σ) (state : ServerState σ B)
    (arrivals : List Arrival) :
    (∀ (state : ServerState σ B) (arrival : Arrival) (fuel : Nat),
      (HttpContext.parseLoop arrival.time fuel state.connection.context
        (Buffer.append state.connection.buffer arrival.bytes)).isSome ↔
          parsePasses state arrival ≤ fuel) ∧
    runCost server.onMessage parsePasses state arrivals ≤
      pairCount CR LF (Buffer.readable state.connection.buffer ++ received arrivals) +
        arrivals.length := by
  refine ⟨fun state arrival fuel => HttpContext.parseLoop_isSome_iff arrival.time
    state.connection.context _ fuel, ?_⟩
  let potential (state : ServerState σ B) (arrivals : List Arrival) : Nat :=
    pairCount CR LF (Buffer.readable state.connection.buffer ++ received arrivals) +
      arrivals.length
  have hstep : ∀ state arrival rest,
      parsePasses state arrival + potential (server.onMessage state arrival).1 rest ≤
        potential state (arrival :: rest) := by
    intro state arrival rest
    have hcall := state.connection.context.passes_le arrival.time
      (Buffer.append state.connection.buffer arrival.bytes) (received rest)
    rw [Buffer.readable_append, List.append_assoc] at hcall
    simp only [potential]
    rw [server.onMessage_buffer, received_cons, List.length_cons, ← Nat.add_assoc]
    exact (Nat.add_le_add_right hcall rest.length).trans (by omega)
  exact runCost_le hstep state arrivals

end HttpServer

end CuteHttpServer
