/-
When a session expires that its owner has constructed and calls by itself: the
expiry counts from the last `Refresh`, and before the first one from nothing
that can be told.
-/
import CuteHttpServer.SessionContinuity

namespace CuteHttpServer

open ByteString KeyedMap StepRun

/-- A call on one session, or time that passes between two of them. -/
inductive SessionCall
  | refresh
  | setValue (key value : Bytes)
  | remove (key : Bytes)
  | clear
  | setManager (sessionManager : Bool)
  | wait (nanoseconds : Nat)
deriving DecidableEq

namespace SessionCall

def op (ref : SessionRef) : SessionCall → SessionOp
  | .refresh => .refresh ref
  | .setValue key value => .setValue ref key value
  | .remove key => .remove ref key
  | .clear => .clear ref
  | .setManager sessionManager => .setManager ref sessionManager
  | .wait nanoseconds => .passTime nanoseconds

/-- What the call makes of the object. -/
def apply (now : ClockTime) (session : Session) : SessionCall → Session
  | .refresh => session.refresh now
  | .setValue key value =>
      { session with sessionData := assign session.sessionData key value }
  | .remove key => session.remove key
  | .clear => session.clear
  | .setManager sessionManager => session.setManager sessionManager
  | .wait _ => session

def duration : SessionCall → Nat
  | .wait nanoseconds => nanoseconds
  | _ => 0

@[simp] theorem maxAge_apply (now : ClockTime) (session : Session) (call : SessionCall) :
    (call.apply now session).maxAge = session.maxAge := by
  cases call <;> rfl

/-- Only `Refresh` changes the expiration time. -/
theorem expirationTime_apply (now : ClockTime) (session : Session) (call : SessionCall) :
    (call.apply now session).expirationTime =
      if call = .refresh then now + seconds session.maxAge else session.expirationTime := by
  cases call <;> rfl

end SessionCall

/-- The time of the last `Refresh`, if there is any, in calls that begin now. -/
def lastRefresh : ClockTime → List SessionCall → Option ClockTime
  | _, [] => none
  | now, call :: rest =>
      (lastRefresh (now + call.duration) rest).or
        (if call = .refresh then some now else none)

theorem lastRefresh_eq_none_iff (now : ClockTime) (calls : List SessionCall) :
    lastRefresh now calls = none ↔ .refresh ∉ calls := by
  induction calls generalizing now with
  | nil => simp [lastRefresh]
  | cons call rest ih =>
      rw [lastRefresh, Option.or_eq_none_iff, ih, List.mem_cons, not_or, and_comm]
      simp [eq_comm]

namespace SessionWorld

variable {ρ : Type} (source : RandomSource ρ)

theorem clock_update (world : SessionWorld ρ) (ref : SessionRef) :
    (world.update ref).clock = world.clock := by
  unfold update
  cases world.heap[ref]? <;> rfl

/-- A call changes its own object, as `apply` says, and takes its time. -/
theorem step_call {world : SessionWorld ρ} {ref : SessionRef} {session : Session}
    (h : world.heap[ref]? = some session) (call : SessionCall) :
    ∃ next, world.step source (call.op ref) = some next ∧
      next.heap[ref]? = some (call.apply world.clock session) ∧
      next.clock = world.clock + call.duration := by
  cases call with
  | setValue key value =>
      have hmodified : (world.modify ref fun session =>
          { session with sessionData := assign session.sessionData key value }).heap[ref]? =
            some (SessionCall.apply world.clock session (.setValue key value)) := by
        simp [modify, h, SessionCall.apply]
      rcases world.setValue_cases ref key value with hvalue | hvalue
      · refine ⟨_, congrArg some hvalue, hmodified, ?_⟩
        exact (Int.add_zero _).symm
      · refine ⟨_, congrArg some hvalue, ?_, ?_⟩
        · rw [(update_frame _ [] ref).1, hmodified]
        · rw [clock_update]
          exact (Int.add_zero _).symm
  | refresh => exact ⟨_, rfl, by simp [modify, h, SessionCall.apply], (Int.add_zero _).symm⟩
  | remove key => exact ⟨_, rfl, by simp [modify, h, SessionCall.apply], (Int.add_zero _).symm⟩
  | clear => exact ⟨_, rfl, by simp [modify, h, SessionCall.apply], (Int.add_zero _).symm⟩
  | setManager sessionManager =>
      exact ⟨_, rfl, by simp [modify, h, SessionCall.apply], (Int.add_zero _).symm⟩
  | wait nanoseconds => exact ⟨_, rfl, h, rfl⟩

/-- After any calls the expiration time counts from the last `Refresh`, or is
the one that was there before. -/
theorem run_calls {world : SessionWorld ρ} {ref : SessionRef} {session : Session}
    (h : world.heap[ref]? = some session) (calls : List SessionCall) :
    ∃ final session', world.run source (calls.map (SessionCall.op ref)) = some final ∧
      final.heap[ref]? = some session' ∧
      session'.expirationTime =
        ((lastRefresh world.clock calls).map (· + seconds session.maxAge)).getD
          session.expirationTime := by
  induction calls generalizing world session with
  | nil => exact ⟨world, session, rfl, h, rfl⟩
  | cons call rest ih =>
      obtain ⟨next, hnext, hheap, hclock⟩ := step_call source h call
      obtain ⟨final, session', hrun, hfinal, htime⟩ := ih hheap
      refine ⟨final, session', ?_, hfinal, ?_⟩
      · rw [run, List.map_cons, tryRun, hnext]
        exact hrun
      · rw [htime, hclock, lastRefresh, SessionCall.maxAge_apply,
          SessionCall.expirationTime_apply]
        cases lastRefresh (world.clock + call.duration) rest with
        | some time => rfl
        | none =>
            by_cases hrefresh : call = .refresh
            · simp [hrefresh]
            · simp [hrefresh]

/-- Whatever stood in the memory of the new object: after these calls it
expires once the time since the last `Refresh`, or since its construction, is
longer than its maximal age. -/
def ExpiresByAge (world : SessionWorld ρ) (sessionId : Bytes) (sessionManager : Bool)
    (maxAge : Int) (calls : List SessionCall) : Prop :=
  ∀ indeterminate, ∃ final session,
    (world.construct sessionId sessionManager maxAge indeterminate).run source
        (calls.map (SessionCall.op world.heap.length)) = some final ∧
      final.heap[world.heap.length]? = some session ∧
      ∀ now, (lastRefresh world.clock calls).getD world.clock ≤ now →
        (session.isExpired now = true ↔
          (lastRefresh world.clock calls).getD world.clock + seconds maxAge < now)

theorem run_constructed (world : SessionWorld ρ) (sessionId : Bytes) (sessionManager : Bool)
    (maxAge : Int) (indeterminate : Int32) (calls : List SessionCall) :
    ∃ final session,
      (world.construct sessionId sessionManager maxAge indeterminate).run source
          (calls.map (SessionCall.op world.heap.length)) = some final ∧
        final.heap[world.heap.length]? = some session ∧
        session.expirationTime =
          ((lastRefresh world.clock calls).map (· + seconds maxAge)).getD
            (world.clock + seconds indeterminate.toInt) := by
  have hnew : (world.construct sessionId sessionManager maxAge
      indeterminate).heap[world.heap.length]? = some (Session.new sessionId sessionManager
        maxAge world.clock indeterminate.toInt) := by
    simp [construct]
  exact run_calls source hnew calls

/-- It does so exactly if it has been refreshed at least once. -/
theorem expiresByAge_iff (world : SessionWorld ρ) (sessionId : Bytes) (sessionManager : Bool)
    (maxAge : Int) (calls : List SessionCall) :
    world.ExpiresByAge source sessionId sessionManager maxAge calls ↔ .refresh ∈ calls := by
  constructor
  · intro h
    by_contra hnever
    have hnone := (lastRefresh_eq_none_iff world.clock calls).mpr hnever
    have hage : ∀ indeterminate : Int32, ∀ now, world.clock ≤ now →
        (world.clock + seconds indeterminate.toInt < now ↔
          world.clock + seconds maxAge < now) := by
      intro indeterminate now hnow
      obtain ⟨final, session, hrun, hheap, hexpires⟩ := h indeterminate
      obtain ⟨final', session', hrun', hheap', htime⟩ :=
        run_constructed source world sessionId sessionManager maxAge indeterminate calls
      obtain rfl : final = final' := Option.some.inj (hrun.symm.trans hrun')
      obtain rfl : session = session' := Option.some.inj (hheap.symm.trans hheap')
      have hnow' := hexpires now (by rw [hnone]; exact hnow)
      rw [hnone] at htime hnow'
      rw [Session.isExpired, htime, decide_eq_true_eq] at hnow'
      exact hnow'
    -- the member may have held 0 seconds or 1, and the age is not both
    have hlater : world.clock ≤ world.clock + seconds 1 := Int.le_add_of_nonneg_right (by decide)
    have hzero := hage 0 _ hlater
    have hone := hage 1 _ hlater
    have hexpired : world.clock + seconds (0 : Int32).toInt < world.clock + seconds 1 :=
      Int.add_lt_add_left (by decide) _
    exact Int.lt_irrefl _ (hone.mpr (hzero.mp hexpired))
  · intro hrefresh indeterminate
    have hsome : lastRefresh world.clock calls ≠ none :=
      fun hnone => (lastRefresh_eq_none_iff world.clock calls).mp hnone hrefresh
    obtain ⟨time, htime⟩ := Option.ne_none_iff_exists'.mp hsome
    obtain ⟨final, session, hrun, hheap, hexpiration⟩ :=
      run_constructed source world sessionId sessionManager maxAge indeterminate calls
    refine ⟨final, session, hrun, hheap, ?_⟩
    intro now _
    rw [htime] at hexpiration ⊢
    rw [Session.isExpired, hexpiration, decide_eq_true_eq]
    rfl

/-- A session for an hour that is used as it was constructed. -/
theorem not_expiresByAge_constructed :
    ¬ (initial () 0).ExpiresByAge zeros (ascii "a") false 3600 [] := by
  intro h
  obtain ⟨final, session, hrun, hheap, hexpires⟩ := h 0
  obtain rfl := Option.some.inj hrun
  obtain rfl := Option.some.inj hheap
  have hexpired := (hexpires 1 (by decide)).mp (by decide)
  exact absurd hexpired (by decide)

end SessionWorld

end CuteHttpServer
