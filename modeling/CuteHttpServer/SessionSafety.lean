/-
What a client can do to the session manager: an id that finds nothing makes
`GetSession` dereference a null pointer, and a session that is still held by a
handler comes back to the store after it was destroyed.
-/
import CuteHttpServer.SessionContinuity

namespace CuteHttpServer

open ByteString KeyedMap StepRun

namespace SessionWorld

variable {ρ : Type} (source : RandomSource ρ) {world : SessionWorld ρ}
  {sessionId : Bytes}

/-- A session is stored under the id and has not expired. -/
def HoldsLive (world : SessionWorld ρ) (sessionId : Bytes) : Prop :=
  ∃ ref session, world.sessions.lookup sessionId = some ref ∧
    world.heap[ref]? = some session ∧ session.isExpired world.clock = false

/-- `GetSession` returns, and where the client's id has no live session it
returns an object that did not exist before, under a new id and not expired. -/
def ServesSafely (world : SessionWorld ρ) (request : HttpRequest)
    (response : HttpResponse) : Prop :=
  ∃ made ref response',
    world.getSession source request response = some (made, ref, response') ∧
      (¬ world.HoldsLive (SessionManager.getSessionIdFromRequestCookie request) →
        world.heap[ref]? = none ∧ ∃ created, made.heap[ref]? = some created ∧
          created.sessionId =
            (SessionManager.generateSessionId source world.randomGenerator).1 ∧
          created.isExpired world.clock = false)

theorem createSession_created (world : SessionWorld ρ) (response : HttpResponse) :
    (world.createSession source response).1.heap[
        (world.createSession source response).2.1]? =
      some ((Session.new (SessionManager.generateSessionId source
        world.randomGenerator).1 true Session.defaultMaxAge world.clock 0).refresh
          world.clock) := by
  simp [createSession, addSession, save]

theorem refresh_not_expired {session : Session} (hage : 0 ≤ session.maxAge)
    (now : ClockTime) : (session.refresh now).isExpired now = false := by
  have hlonger : 0 ≤ seconds session.maxAge := Int.mul_nonneg hage (by decide)
  have hlater : now ≤ now + seconds session.maxAge := Int.le_add_of_nonneg_right hlonger
  exact decide_eq_false (Int.not_lt.mpr hlater)

/-- `Load` finds exactly the live sessions whose id is not empty. -/
theorem load_eq_none_iff :
    (world.load sessionId).1 = none ↔ sessionId = [] ∨ ¬ world.HoldsLive sessionId := by
  constructor
  · intro hload
    by_cases hid : sessionId = []
    · exact Or.inl hid
    · refine Or.inr ?_
      rintro ⟨ref, session, hlookup, hheap, hexpired⟩
      rw [load_stored hid hlookup hheap hexpired] at hload
      exact absurd hload (Option.some_ne_none ref)
  · intro h
    rcases hload : world.load sessionId with ⟨found, loaded⟩
    cases found with
    | none => rfl
    | some ref =>
        exfalso
        unfold load at hload
        by_cases hid : sessionId = []
        · simp [hid] at hload
        · rw [if_neg hid] at hload
          have hdead := h.resolve_left hid
          cases hlookup : world.sessions.lookup sessionId with
          | none => simp [hlookup] at hload
          | some stored =>
              cases hheap : world.heap[stored]? with
              | none => simp [hlookup, hheap] at hload
              | some session =>
                  cases hexpired : session.isExpired world.clock with
                  | true => simp [hlookup, hheap, hexpired] at hload
                  | false => exact hdead ⟨stored, session, hlookup, hheap, hexpired⟩

/-- `GetSession` is safe exactly for clients that send no id or the id of a
live session. -/
theorem getSession_safe_iff (world : SessionWorld ρ) (request : HttpRequest)
    (response : HttpResponse) :
    world.ServesSafely source request response ↔
      SessionManager.getSessionIdFromRequestCookie request = [] ∨
        world.HoldsLive (SessionManager.getSessionIdFromRequestCookie request) := by
  unfold ServesSafely
  rw [getSession_eq]
  constructor
  · rintro ⟨made, ref, response', hget, _⟩
    rw [Option.ite_none_left_eq_some, load_eq_none_iff] at hget
    by_contra hneither
    rw [not_or] at hneither
    exact hget.1 ⟨hneither.1, Or.inr hneither.2⟩
  · intro hsafe
    rw [if_neg]
    · refine ⟨_, _, _, rfl, fun _ => ⟨?_, _, createSession_created source world response,
        rfl, ?_⟩⟩
      · exact List.getElem?_eq_none (Nat.le_refl _)
      · apply refresh_not_expired
        exact Int.natCast_nonneg 3600
    · rw [load_eq_none_iff]
      rintro ⟨hne, hdead⟩
      rcases hsafe with hnil | hlive
      · exact hne hnil
      · exact hdead.elim hne fun hnone => hnone hlive

/-- An id that was never given out. -/
theorem not_servesSafely_unknown :
    ¬ (initial () 0).ServesSafely zeros (visitor (ascii "sessionid=x"))
      (HttpResponse.new false) := by
  rintro ⟨made, ref, response', hget, _⟩
  have hnone : ((initial () 0).getSession zeros (visitor (ascii "sessionid=x"))
      (HttpResponse.new false)).isNone = true := by decide +kernel
  rw [hget] at hnone
  exact absurd hnone (by simp)

/-- The operation is one of the two that store a new session, and stores one
under this id, which is free: an entry that is there would be kept. -/
def StoresUnder (sessionId : Bytes) (world : SessionWorld ρ) : SessionOp → Prop
  | .addSession ref => sessionId ∉ world.sessions ∧ HasId ref sessionId world
  | .getSession _ _ =>
      sessionId ∉ world.sessions ∧
        (SessionManager.generateSessionId source world.randomGenerator).1 = sessionId
  | _ => False

/-- From here on `Load` returns no session for the id, until one is stored. -/
def StaysDestroyed (sessionId : Bytes) : SessionWorld ρ → List SessionOp → Prop
  | world, [] => (world.load sessionId).1 = none
  | world, op :: rest =>
      (world.load sessionId).1 = none ∧
        (StoresUnder source sessionId world op ∨
          ∀ next, world.step source op = some next →
            StaysDestroyed sessionId next rest)

/-- Every `DestroySession` of a run is for good. -/
def DestroysForGood : SessionWorld ρ → List SessionOp → Prop
  | _, [] => True
  | world, op :: rest =>
      ∀ next, world.step source op = some next →
        (∀ sessionId, op = .destroySession sessionId →
          StaysDestroyed source sessionId next rest) ∧
        DestroysForGood next rest

/-- The object that has been written back under a destroyed id: `UpdateSession`
stores a session again, and so does `SetValue` on one that knows its manager. -/
def writtenBack (sessionId : Bytes) (world : SessionWorld ρ) (held : Option SessionRef) :
    SessionOp → Option SessionRef
  | .updateSession ref =>
      match world.heap[ref]? with
      | some session => if session.sessionId = sessionId then some ref else held
      | none => held
  | .setValue ref _ _ =>
      match world.heap[ref]? with
      | some session =>
          if session.sessionManager ∧ session.sessionId = sessionId then some ref
          else held
      | none => held
  | .destroySession other => if other = sessionId then none else held
  | _ => held

/-- Nothing was written back, or what was has expired. -/
def NothingLive (held : Option SessionRef) (world : SessionWorld ρ) : Prop :=
  ∀ ref session, held = some ref → world.heap[ref]? = some session →
    session.isExpired world.clock = true

/-- Until a session is stored under the id, whatever is written back under it
has expired and stays so. -/
def WritesBackNoneLive (sessionId : Bytes) :
    Option SessionRef → SessionWorld ρ → List SessionOp → Prop
  | held, world, [] => NothingLive held world
  | held, world, op :: rest =>
      NothingLive held world ∧
        (StoresUnder source sessionId world op ∨
          ∀ next, world.step source op = some next →
            WritesBackNoneLive sessionId (writtenBack sessionId world held op) next rest)

/-- No handler brings a destroyed session back with `UpdateSession` or `SetValue`. -/
def NoneRevived : SessionWorld ρ → List SessionOp → Prop
  | _, [] => True
  | world, op :: rest =>
      ∀ next, world.step source op = some next →
        (∀ sessionId, op = .destroySession sessionId → sessionId ≠ [] →
          WritesBackNoneLive source sessionId none next rest) ∧
        NoneRevived next rest

theorem lookup_destroySession (world : SessionWorld ρ) (other : Bytes) :
    (world.destroySession other).sessions.lookup sessionId =
      if other = sessionId then none else world.sessions.lookup sessionId := by
  rw [destroySession, lookup_erase]
  simp only [eq_comm]

theorem lookup_updateSession (world : SessionWorld ρ) (ref : SessionRef) :
    (world.updateSession ref).sessions.lookup sessionId =
      writtenBack sessionId world (world.sessions.lookup sessionId) (.updateSession ref) := by
  rw [updateSession, update, writtenBack]
  cases world.heap[ref]? with
  | none => rfl
  | some session => simp only [lookup_assign, eq_comm]

/-- What `SetValue` does to the store. -/
theorem lookup_setValue (world : SessionWorld ρ) (ref : SessionRef) (key value : Bytes) :
    (world.setValue ref key value).sessions.lookup sessionId =
      writtenBack sessionId world (world.sessions.lookup sessionId)
        (.setValue ref key value) := by
  unfold setValue writtenBack
  cases hheap : world.heap[ref]? with
  | none => simp [modify, hheap]
  | some session =>
      cases hmanager : session.sessionManager with
      | false => simp [modify, hheap, hmanager]
      | true =>
          by_cases hid : session.sessionId = sessionId
          · simp [modify, updateSession, update, hheap, hmanager, hid, lookup_assign]
          · simp [modify, updateSession, update, hheap, hmanager, hid, lookup_assign,
              Ne.symm hid]

theorem lookup_createSession (world : SessionWorld ρ) (response : HttpResponse)
    (hother : ¬ (sessionId ∉ world.sessions ∧
      (SessionManager.generateSessionId source world.randomGenerator).1 = sessionId)) :
    (world.createSession source response).1.sessions.lookup sessionId =
      world.sessions.lookup sessionId := by
  simpa [createSession, addSession, save, Session.new, Session.refresh] using
    lookup_emplace_of_not hother

theorem lookup_addSession (world : SessionWorld ρ) (ref : SessionRef)
    (hother : ¬ (sessionId ∉ world.sessions ∧ HasId ref sessionId world)) :
    (world.addSession ref).sessions.lookup sessionId =
      world.sessions.lookup sessionId := by
  unfold addSession save
  cases hheap : world.heap[ref]? with
  | none => rfl
  | some session =>
      apply lookup_emplace_of_not
      rintro ⟨hfree, hid⟩
      exact hother ⟨hfree, session, hheap, hid⟩

/-- An operation that stores no new session under an id changes its entry only
by destroying it or by writing a session back. -/
theorem step_lookup {op : SessionOp} {next : SessionWorld ρ}
    (hop : ¬ StoresUnder source sessionId world op)
    (hstep : world.step source op = some next) :
    next.sessions.lookup sessionId =
      writtenBack sessionId world (world.sessions.lookup sessionId) op := by
  cases op with
  | getSession request response =>
      simp only [step, getSession_eq, Option.map_eq_some_iff, Option.ite_none_left_eq_some,
        Option.some.injEq] at hstep
      obtain ⟨result, ⟨_, rfl⟩, rfl⟩ := hstep
      exact lookup_createSession source world response hop
  | addSession ref =>
      obtain rfl := Option.some.inj hstep
      exact lookup_addSession world ref hop
  | updateSession ref =>
      obtain rfl := Option.some.inj hstep
      exact lookup_updateSession world ref
  | destroySession other =>
      obtain rfl := Option.some.inj hstep
      exact lookup_destroySession world other
  | construct other sessionManager maxAge indeterminate =>
      obtain rfl := Option.some.inj hstep
      rfl
  | setValue ref key value =>
      obtain rfl := Option.some.inj hstep
      exact lookup_setValue world ref key value
  | remove ref key =>
      obtain rfl := Option.some.inj hstep
      rfl
  | clear ref =>
      obtain rfl := Option.some.inj hstep
      rfl
  | refresh ref =>
      obtain rfl := Option.some.inj hstep
      rfl
  | setManager ref sessionManager =>
      obtain rfl := Option.some.inj hstep
      rfl
  | passTime nanoseconds =>
      obtain rfl := Option.some.inj hstep
      rfl

theorem load_eq_none_iff_nothingLive (hid : sessionId ≠ []) :
    (world.load sessionId).1 = none ↔
      NothingLive (world.sessions.lookup sessionId) world := by
  rw [load_eq_none_iff, or_iff_right hid]
  constructor
  · intro hdead ref session hlookup hheap
    by_contra hexpired
    exact hdead ⟨ref, session, hlookup, hheap, Bool.eq_false_iff.mpr hexpired⟩
  · rintro hnone ⟨ref, session, hlookup, hheap, hexpired⟩
    rw [hnone ref session hlookup hheap] at hexpired
    exact absurd hexpired (by simp)

/-- The entry of the id is what was written back, all along the run. -/
theorem staysDestroyed_iff (hid : sessionId ≠ []) (ops : List SessionOp) :
    StaysDestroyed source sessionId world ops ↔
      WritesBackNoneLive source sessionId (world.sessions.lookup sessionId) world ops := by
  induction ops generalizing world with
  | nil => exact load_eq_none_iff_nothingLive hid
  | cons op rest ih =>
      apply and_congr (load_eq_none_iff_nothingLive hid)
      by_cases hop : StoresUnder source sessionId world op
      · simp only [hop, true_or]
      · apply or_congr_right
        apply forall_congr'
        intro next
        apply imp_congr_right
        intro hstep
        rw [ih, step_lookup source hop hstep]

/-- The empty id names no session for `Load`. -/
theorem staysDestroyed_nil (ops : List SessionOp) :
    StaysDestroyed source [] world ops := by
  induction ops generalizing world with
  | nil => rfl
  | cons op rest ih => exact ⟨rfl, Or.inr fun next _ => ih⟩

/-- In a run every `DestroySession` is for good exactly when no `UpdateSession` or
`SetValue` writes a destroyed session back that is not, and does not stay,
expired. -/
theorem destroysForGood_iff (start : SessionWorld ρ) (ops : List SessionOp) :
    DestroysForGood source start ops ↔ NoneRevived source start ops := by
  induction ops generalizing start with
  | nil => exact Iff.rfl
  | cons op rest ih =>
      apply forall_congr'
      intro next
      apply imp_congr_right
      intro hstep
      refine and_congr ?_ (ih next)
      apply forall_congr'
      intro sessionId
      apply imp_congr_right
      rintro rfl
      obtain rfl := Option.some.inj hstep
      by_cases hid : sessionId = []
      · subst hid
        exact iff_of_true (staysDestroyed_nil source rest) fun hne => absurd rfl hne
      · rw [staysDestroyed_iff source hid, lookup_destroySession, if_pos rfl]
        exact ⟨fun h _ => h, fun h => h hid⟩

/-- One request logs its client out while another still holds the session and
then sets a value in it. -/
def loggedOut : List SessionOp :=
  [.getSession (visitor []) (HttpResponse.new false), .destroySession zeroId,
    .setValue 0 (ascii "user") (ascii "bob")]

theorem not_destroysForGood_loggedOut :
    ¬ DestroysForGood zeros (initial () 0) loggedOut := by
  intro h
  have hmade := (h _ rfl).2
  have hgone := (hmade _ rfl).1 zeroId rfl
  have hback := (hgone.2.resolve_left id) _ rfl
  let made := ((initial () 0).createSession zeros (HttpResponse.new false)).1
  have hfound : (((made.destroySession zeroId).setValue 0 (ascii "user")
      (ascii "bob")).load zeroId).1 = some 0 := by decide +kernel
  exact absurd (hfound.symm.trans hback) (Option.some_ne_none 0)

end SessionWorld

end CuteHttpServer
