/-
The life of one session: its data, its expiry and its place in the store are
what the operations on it have made of them, whatever happens to the other
sessions in between.
-/
import CuteHttpServer.SessionExpiry
import CuteHttpServer.SessionIds

namespace CuteHttpServer

open ByteString KeyedMap StepRun

namespace SessionOp

/-- The operation as a call on the session behind `ref`, if it is one. -/
def callOn (ref : SessionRef) : SessionOp → Option SessionCall
  | .setValue other key value => if other = ref then some (.setValue key value) else none
  | .remove other key => if other = ref then some (.remove key) else none
  | .clear other => if other = ref then some .clear else none
  | .refresh other => if other = ref then some .refresh else none
  | .setManager other sessionManager =>
      if other = ref then some (.setManager sessionManager) else none
  | _ => none

def duration : SessionOp → Nat
  | .passTime nanoseconds => nanoseconds
  | _ => 0

end SessionOp

/-- A session by itself: its object, whether the store has it, and the time. -/
structure SessionLife where
  session : Session
  stored : Bool
  now : ClockTime

namespace SessionLife

/-- What an operation makes of the object. -/
def object (ref : SessionRef) (now : ClockTime) (session : Session) (op : SessionOp) :
    Session :=
  match op.callOn ref with
  | some call => call.apply now session
  | none => session

/-- Whether the store has the session after an operation. -/
def storedAfter (ref : SessionRef) (session : Session) (stored : Bool) : SessionOp → Bool
  | .addSession other => if other = ref then true else stored
  | .updateSession other => if other = ref then true else stored
  | .destroySession sessionId => if sessionId = session.sessionId then false else stored
  | .setValue other _ _ => if other = ref then session.sessionManager || stored else stored
  | _ => stored

def step (ref : SessionRef) (life : SessionLife) (op : SessionOp) : SessionLife where
  session := object ref life.now life.session op
  stored := storedAfter ref life.session life.stored op
  now := life.now + op.duration

def run (ref : SessionRef) (life : SessionLife) (ops : List SessionOp) : SessionLife :=
  ops.foldl (step ref) life

/-- `Load` finds the session. -/
def Live (life : SessionLife) : Prop :=
  life.stored = true ∧ life.session.isExpired life.now = false

instance (life : SessionLife) : Decidable life.Live :=
  inferInstanceAs (Decidable (_ ∧ _))

theorem object_of_callOn {ref other : SessionRef} {op : SessionOp} {call : SessionCall}
    (h : op.callOn ref = if other = ref then some call else none) (now : ClockTime)
    (session : Session) :
    object ref now session op =
      if other = ref then call.apply now session else session := by
  rw [object, h]
  by_cases hother : other = ref
  · rw [if_pos hother, if_pos hother]
  · rw [if_neg hother, if_neg hother]

@[simp] theorem sessionId_object (ref : SessionRef) (now : ClockTime) (session : Session)
    (op : SessionOp) : (object ref now session op).sessionId = session.sessionId := by
  unfold object
  cases op.callOn ref with
  | none => rfl
  | some call => cases call <;> rfl

@[simp] theorem sessionId_run (ref : SessionRef) (life : SessionLife) (ops : List SessionOp) :
    (life.run ref ops).session.sessionId = life.session.sessionId := by
  induction ops generalizing life with
  | nil => rfl
  | cons op rest ih => exact (ih (life.step ref op)).trans (sessionId_object ref _ _ op)

/-- What an operation writes under a key of the session's data; what is removed
reads as empty. -/
def written (ref : SessionRef) (key : Bytes) (op : SessionOp) : Option Bytes :=
  match op.callOn ref with
  | some (.setValue other value) => if key = other then some value else none
  | some (.remove other) => if key = other then some [] else none
  | some .clear => some []
  | _ => none

/-- The last thing that is written under a key. -/
def lastWritten (ref : SessionRef) (key : Bytes) (ops : List SessionOp) : Option Bytes :=
  ops.reverse.findSome? (written ref key)

theorem getValue_object (ref : SessionRef) (now : ClockTime) (session : Session)
    (op : SessionOp) (key : Bytes) :
    (object ref now session op).getValue key =
      (written ref key op).getD (session.getValue key) := by
  unfold object written
  cases op.callOn ref with
  | none => rfl
  | some call =>
      cases call with
      | setValue other value =>
          simp only [SessionCall.apply, Session.getValue, lookup_assign]
          split <;> rfl
      | remove other =>
          simp only [SessionCall.apply, Session.remove, Session.getValue, lookup_erase]
          split <;> rfl
      | clear => simp [SessionCall.apply, Session.clear, Session.getValue]
      | refresh => rfl
      | setManager sessionManager => rfl
      | wait nanoseconds => rfl

/-- The last write decides. -/
theorem getValue_run (ref : SessionRef) (life : SessionLife) (ops : List SessionOp)
    (key : Bytes) :
    (life.run ref ops).session.getValue key =
      (lastWritten ref key ops).getD (life.session.getValue key) := by
  have hstep : ∀ (life : SessionLife) (op : SessionOp),
      (life.step ref op).session.getValue key =
        (written ref key op).getD (life.session.getValue key) :=
    fun life op => getValue_object ref life.now life.session op key
  exact @foldl_lastWrite _ _ _ (step ref) (fun life => life.session.getValue key) _ hstep
    life ops

end SessionLife

namespace SessionWorld

open SessionManager

variable {ρ : Type} (source : RandomSource ρ) {world next final : SessionWorld ρ}
  {ref : SessionRef} {session : Session}

theorem heap_modify (h : world.heap[ref]? = some session) (other : SessionRef)
    (change : Session → Session) :
    (world.modify other change).heap[ref]? =
      some (if other = ref then change session else session) := by
  simp only [modify, List.getElem?_modify, h]
  split <;> rfl

/-- A call on an object, as a step: it takes no time. -/
theorem object_modify (h : world.heap[ref]? = some session) {other : SessionRef}
    {op : SessionOp} {call : SessionCall}
    (hcall : op.callOn ref = if other = ref then some call else none)
    (hduration : op.duration = 0) :
    (world.modify other fun session => call.apply world.clock session).heap[ref]? =
        some (SessionLife.object ref world.clock session op) ∧
      world.clock = world.clock + op.duration := by
  rw [heap_modify h, SessionLife.object_of_callOn hcall, hduration]
  exact ⟨rfl, (Int.add_zero _).symm⟩

theorem clock_save (world : SessionWorld ρ) (other : SessionRef) :
    (world.save other).clock = world.clock := by
  unfold save
  cases world.heap[other]? <;> rfl

/-- A step changes the object behind a pointer as the call on it says, and lets
its time pass. -/
theorem step_object (h : world.heap[ref]? = some session) {op : SessionOp}
    (hstep : world.step source op = some next) :
    next.heap[ref]? = some (SessionLife.object ref world.clock session op) ∧
      next.clock = world.clock + op.duration := by
  cases op with
  | getSession request response =>
      simp only [step, getSession_eq, Option.map_eq_some_iff, Option.ite_none_left_eq_some,
        Option.some.injEq] at hstep
      obtain ⟨result, ⟨_, rfl⟩, rfl⟩ := hstep
      rw [createSession_eq]
      refine ⟨?_, (Int.add_zero _).symm⟩
      rw [List.getElem?_append_left (List.getElem?_eq_some_iff.mp h).1]
      exact h
  | addSession other =>
      obtain rfl := Option.some.inj hstep
      rw [addSession, (save_frame world [] other).1, clock_save]
      exact ⟨h, (Int.add_zero _).symm⟩
  | updateSession other =>
      obtain rfl := Option.some.inj hstep
      rw [updateSession, (update_frame world [] other).1, clock_update]
      exact ⟨h, (Int.add_zero _).symm⟩
  | destroySession sessionId =>
      obtain rfl := Option.some.inj hstep
      exact ⟨h, (Int.add_zero _).symm⟩
  | construct sessionId sessionManager maxAge indeterminate =>
      obtain rfl := Option.some.inj hstep
      refine ⟨?_, (Int.add_zero _).symm⟩
      exact (List.getElem?_append_left (List.getElem?_eq_some_iff.mp h).1).trans h
  | setValue other key value =>
      obtain rfl := Option.some.inj hstep
      have hcall : (SessionOp.setValue other key value).callOn ref =
          if other = ref then some (.setValue key value) else none := rfl
      have hmodified := object_modify h hcall rfl
      rcases world.setValue_cases other key value with hvalue | hvalue
      · rw [hvalue]
        exact hmodified
      · rw [hvalue, (update_frame _ [] other).1, clock_update]
        exact hmodified
  | remove other key =>
      obtain rfl := Option.some.inj hstep
      exact object_modify h (show (SessionOp.remove other key).callOn ref = _ from rfl) rfl
  | clear other =>
      obtain rfl := Option.some.inj hstep
      exact object_modify h (show (SessionOp.clear other).callOn ref = _ from rfl) rfl
  | refresh other =>
      obtain rfl := Option.some.inj hstep
      exact object_modify h (show (SessionOp.refresh other).callOn ref = _ from rfl) rfl
  | setManager other sessionManager =>
      obtain rfl := Option.some.inj hstep
      have hcall : (SessionOp.setManager other sessionManager).callOn ref = _ := rfl
      exact object_modify h hcall rfl
  | passTime nanoseconds =>
      obtain rfl := Option.some.inj hstep
      exact ⟨h, rfl⟩

/-- Only the object behind `ref` has the id that it has. -/
def AloneWithId (ref : SessionRef) (sessionId : Bytes) (world : SessionWorld ρ) : Prop :=
  ∀ other, world.sessionIds[other]? = some sessionId → other = ref

instance (ref : SessionRef) (sessionId : Bytes) (world : SessionWorld ρ) :
    Decidable (AloneWithId ref sessionId world) :=
  decidable_of_iff (∀ other < world.sessionIds.length,
      world.sessionIds[other]? = some sessionId → other = ref)
    ⟨fun h other hid => h other (List.getElem?_eq_some_iff.mp hid).1 hid,
      fun h other _ => h other⟩

/-- Later worlds only add ids. -/
theorem AloneWithId.of_prefix {sessionId : Bytes}
    (hids : world.sessionIds <+: final.sessionIds) (h : AloneWithId ref sessionId final) :
    AloneWithId ref sessionId world := by
  intro other hother
  apply h
  have hlt := (List.getElem?_eq_some_iff.mp hother).1
  obtain ⟨more, hmore⟩ := hids
  rw [← hmore, List.getElem?_append_left hlt]
  exact hother

/-- The store has the session behind `ref` under its id, or nothing. -/
def StoresAs (ref : SessionRef) (sessionId : Bytes) (stored : Bool)
    (world : SessionWorld ρ) : Prop :=
  world.sessions.lookup sessionId = if stored then some ref else none

/-- An object with the session's id is the session. -/
theorem AloneWithId.eq_ref {sessionId : Bytes} (h : AloneWithId ref sessionId world)
    {other : SessionRef} (hother : HasId other sessionId world) : other = ref := by
  obtain ⟨found, hfound, hid⟩ := hother
  apply h
  rw [getElem?_sessionIds, hfound, Option.map_some, hid]

/-- A step that stores a session under the id of the one behind `ref` is the
`addSession` of that one: a new session under it would be another object. -/
theorem step_stores (h : world.heap[ref]? = some session)
    (hworld : AloneWithId ref session.sessionId world)
    (hnext : AloneWithId ref session.sessionId next) {op : SessionOp}
    (hstores : StoresUnder source session.sessionId world op)
    (hstep : world.step source op = some next) (stored : Bool) :
    StoresAs ref session.sessionId (SessionLife.storedAfter ref session stored op) next := by
  cases op with
  | addSession other =>
      obtain ⟨hfree, hid⟩ := hstores
      obtain rfl := Option.some.inj hstep
      obtain rfl := hworld.eq_ref hid
      rw [StoresAs, addSession, save, h, SessionLife.storedAfter, if_pos rfl, if_pos rfl]
      simp only [lookup_emplace, AList.lookup_eq_none.mpr hfree, if_true, Option.none_or]
  | getSession request response =>
      exfalso
      simp only [step, getSession_eq, Option.map_eq_some_iff, Option.ite_none_left_eq_some,
        Option.some.injEq] at hstep
      obtain ⟨result, ⟨_, rfl⟩, rfl⟩ := hstep
      have hlt := (List.getElem?_eq_some_iff.mp h).1
      have hlast := hnext world.sessionIds.length (by
        rw [sessionIds_createSession, hstores.2, List.getElem?_concat_length])
      rw [length_sessionIds] at hlast
      exact absurd hlast hlt.ne'
  | _ => exact absurd hstores id

/-- What a step that stores nothing new writes back under the id. -/
theorem writtenBack_stored (h : world.heap[ref]? = some session)
    (hworld : AloneWithId ref session.sessionId world) {stored : Bool}
    (hstored : StoresAs ref session.sessionId stored world) {op : SessionOp}
    (hstores : ¬ StoresUnder source session.sessionId world op) :
    writtenBack session.sessionId world (if stored then some ref else none) op =
      if SessionLife.storedAfter ref session stored op then some ref else none := by
  cases op with
  | addSession other =>
      by_cases hsame : other = ref
      · subst hsame
        have hmem : session.sessionId ∈ world.sessions := by
          by_contra hfree
          exact hstores ⟨hfree, session, h, rfl⟩
        cases stored with
        | true => simp [writtenBack, SessionLife.storedAfter]
        | false => exact absurd hmem (AList.lookup_eq_none.mp hstored)
      · rw [SessionLife.storedAfter, if_neg hsame]
        rfl
  | updateSession other =>
      by_cases hsame : other = ref
      · subst hsame
        simp [writtenBack, SessionLife.storedAfter, h]
      · rw [SessionLife.storedAfter, if_neg hsame, writtenBack]
        cases hheap : world.heap[other]? with
        | none => rfl
        | some found =>
            have hid : found.sessionId ≠ session.sessionId :=
              fun hid => hsame (hworld.eq_ref ⟨found, hheap, hid⟩)
            simp [hid]
  | destroySession other =>
      by_cases hsame : other = session.sessionId
      · simp [writtenBack, SessionLife.storedAfter, hsame]
      · simp [writtenBack, SessionLife.storedAfter, hsame]
  | setValue other key value =>
      by_cases hsame : other = ref
      · subst hsame
        cases hmanager : session.sessionManager with
        | true => simp [writtenBack, SessionLife.storedAfter, h, hmanager]
        | false => simp [writtenBack, SessionLife.storedAfter, h, hmanager]
      · rw [SessionLife.storedAfter, if_neg hsame, writtenBack]
        cases hheap : world.heap[other]? with
        | none => rfl
        | some found =>
            have hid : found.sessionId ≠ session.sessionId :=
              fun hid => hsame (hworld.eq_ref ⟨found, hheap, hid⟩)
            simp [hid]
  | _ => rfl

/-- A step stores the session or deletes its entry as its own operations say:
no other object has its id. -/
theorem step_stored (h : world.heap[ref]? = some session)
    (halone : AloneWithId ref session.sessionId next) {stored : Bool}
    (hstored : StoresAs ref session.sessionId stored world) {op : SessionOp}
    (hstep : world.step source op = some next) :
    StoresAs ref session.sessionId (SessionLife.storedAfter ref session stored op) next := by
  have hrun : world.run source [op] = some next := by simpa [run, tryRun] using hstep
  have hbefore := halone.of_prefix (ids_run_extends source hrun)
  by_cases hstores : StoresUnder source session.sessionId world op
  · exact step_stores source h hbefore halone hstores hstep stored
  · have hlookup := step_lookup source hstores hstep
    rw [show world.sessions.lookup session.sessionId = _ from hstored] at hlookup
    exact hlookup.trans (writtenBack_stored source h hbefore hstored hstores)

/-- The session behind `ref` is as its life says. -/
structure Lives (ref : SessionRef) (world : SessionWorld ρ) (life : SessionLife) : Prop where
  object : world.heap[ref]? = some life.session
  stored : StoresAs ref life.session.sessionId life.stored world
  now : world.clock = life.now

theorem Lives.step {life : SessionLife} (h : Lives ref world life) {op : SessionOp}
    (hstep : world.step source op = some next)
    (halone : AloneWithId ref life.session.sessionId next) :
    Lives ref next (life.step ref op) := by
  obtain ⟨hobject, hclock⟩ := step_object source h.object hstep
  have hstored := step_stored source h.object halone h.stored hstep
  rw [h.now] at hobject hclock
  refine ⟨hobject, ?_, hclock⟩
  rw [SessionLife.step, SessionLife.sessionId_object]
  exact hstored

theorem Lives.run {life : SessionLife} (h : Lives ref world life) {ops : List SessionOp}
    (hrun : world.run source ops = some final)
    (halone : AloneWithId ref life.session.sessionId final) :
    Lives ref final (life.run ref ops) := by
  induction ops generalizing world life with
  | nil =>
      obtain rfl : world = final := Option.some.inj hrun
      exact h
  | cons op rest ih =>
      obtain ⟨next, hnext, hrest⟩ := tryRun_cons_eq_some hrun
      have hnextAlone := halone.of_prefix (ids_run_extends source hrest)
      apply ih (h.step source hnext hnextAlone) hrest
      rw [SessionLife.step, SessionLife.sessionId_object]
      exact halone

/-- What `Load` finds under the session's id. -/
theorem Lives.load {life : SessionLife} (h : Lives ref world life)
    (hid : life.session.sessionId ≠ []) :
    (world.load life.session.sessionId).1 = if life.Live then some ref else none := by
  have hstored := h.stored
  rw [StoresAs] at hstored
  cases hlive : life.stored with
  | false =>
      rw [hlive, if_neg Bool.false_ne_true] at hstored
      simp [SessionWorld.load, hid, hstored, SessionLife.Live, hlive]
  | true =>
      rw [hlive, if_pos rfl] at hstored
      cases hexpired : life.session.isExpired life.now with
      | false =>
          rw [load_stored hid hstored h.object (h.now ▸ hexpired)]
          simp [SessionLife.Live, hlive, hexpired]
      | true =>
          simp [SessionWorld.load, hid, hstored, h.object, h.now, hexpired, SessionLife.Live]

/-- The life of a session that `GetSession` has just made. -/
def newLife (world : SessionWorld ρ) : SessionLife where
  session := world.newSession source
  stored := true
  now := world.clock

/-- It starts so: its id is not in the store yet, where no other object has it. -/
theorem newLife_lives (hkeyed : world.StoreKeyed)
    (halone : AloneWithId world.heap.length (world.newSession source).sessionId world)
    (response : HttpResponse) :
    Lives world.heap.length (world.createSession source response).1 (world.newLife source) := by
  rw [createSession_eq]
  refine ⟨List.getElem?_concat_length, ?_, rfl⟩
  have hfree : (world.newSession source).sessionId ∉ world.sessions := by
    intro hmem
    obtain ⟨other, hother⟩ := Option.isSome_iff_exists.mp (AList.lookup_isSome.mpr hmem)
    have hid := hkeyed _ other hother
    have hlt := (List.getElem?_eq_some_iff.mp hid).1
    rw [halone other hid, length_sessionIds] at hlt
    exact absurd hlt (lt_irrefl _)
  have hlookup : (emplace world.sessions (world.newSession source).sessionId
      world.heap.length).lookup (world.newSession source).sessionId =
        some world.heap.length := by
    rw [lookup_emplace, AList.lookup_eq_none.mpr hfree, if_pos rfl, Option.none_or]
  exact hlookup

/-- A session that a run makes lives by itself from then on. -/
theorem lives_of_getSession (generator : ρ) (now : ClockTime) {before after : List SessionOp}
    (hbefore : (initial generator now).run source before = some world)
    {made : SessionWorld ρ} {request : HttpRequest} {response response' : HttpResponse}
    (hget : world.getSession source request response = some (made, ref, response'))
    (hafter : made.run source after = some final)
    (halone : AloneWithId ref (world.newSession source).sessionId final) :
    Lives ref final ((world.newLife source).run ref after) := by
  have hkeyed := storeKeyed_run source generator now hbefore
  rw [getSession_eq, Option.ite_none_left_eq_some, Option.some.injEq] at hget
  have hids := @sessionIds_createSession _ source world response
  have hcreated := createSession_eq source world response
  rw [hget.2] at hcreated hids
  obtain rfl : ref = world.heap.length := congrArg (·.2.1) hcreated
  have hworld : world.sessionIds <+: final.sessionIds := by
    apply List.IsPrefix.trans _ (ids_run_extends source hafter)
    rw [show made.sessionIds = _ from hids]
    exact List.prefix_append _ _
  have hstart := newLife_lives source hkeyed (halone.of_prefix hworld) response
  rw [hget.2] at hstart
  exact hstart.run source hafter halone

/-- `Load` under the session's id finds it exactly if it is live. -/
theorem load_of_lives {after : List SessionOp}
    (h : Lives ref final ((world.newLife source).run ref after)) :
    (final.load (world.newSession source).sessionId).1 =
      if ((world.newLife source).run ref after).Live then some ref else none := by
  have hsame : ((world.newLife source).run ref after).session.sessionId =
      (world.newSession source).sessionId := SessionLife.sessionId_run _ _ _
  rw [← hsame]
  apply h.load
  rw [hsame]
  exact generateSessionId_ne_nil source world.randomGenerator

/-- In every later world the object of a session made in a run is what the calls
on it have made of it, and `Load` finds it exactly if its own operations left it
stored and not expired. -/
theorem session_lives (generator : ρ) (now : ClockTime) {before after : List SessionOp}
    (hbefore : (initial generator now).run source before = some world)
    {made : SessionWorld ρ} {request : HttpRequest} {response response' : HttpResponse}
    (hget : world.getSession source request response = some (made, ref, response'))
    (hafter : made.run source after = some final)
    (halone : AloneWithId ref (world.newSession source).sessionId final) :
    let life := (world.newLife source).run ref after
    final.heap[ref]? = some life.session ∧
      (final.load (world.newSession source).sessionId).1 =
        if life.Live then some ref else none := by
  intro life
  have hlives := lives_of_getSession source generator now hbefore hget hafter halone
  exact ⟨hlives.object, load_of_lives source hlives⟩

/-- In every run, from any world and over operations on any sessions, a value in
the data of a session is the one last written there, and the one that was there
before if nothing was. -/
theorem getValue_lastWritten (h : world.heap[ref]? = some session) {ops : List SessionOp}
    (hrun : world.run source ops = some final) :
    ∃ session', final.heap[ref]? = some session' ∧
      session'.sessionId = session.sessionId ∧
      ∀ key, session'.getValue key =
        (SessionLife.lastWritten ref key ops).getD (session.getValue key) := by
  let life : SessionLife := ⟨session, true, world.clock⟩
  have hobject : final.heap[ref]? = some (life.run ref ops).session ∧
      final.clock = (life.run ref ops).now := by
    apply tryRun_simulation (step source) (SessionLife.step ref)
      (fun world life => world.heap[ref]? = some life.session ∧ world.clock = life.now)
      ?_ hrun ⟨h, rfl⟩
    rintro state life op next ⟨hheap, hnow⟩ hstep
    have hnext := step_object source hheap hstep
    rwa [hnow] at hnext
  exact ⟨_, hobject.1, SessionLife.sessionId_run ref life ops,
    SessionLife.getValue_run ref life ops⟩

/-- A generator whose first two ids differ. -/
def twoIds : RandomSource Nat where
  dist drawn := (if drawn < 32 then (zeros.dist ()).1 else Fin.last 15, drawn + 1)

/-- One visitor's session is filled, taken from the store and stored again by
the next value, while another one comes and logs out, and a handler makes and
stores one by itself. -/
def interleaved : List SessionOp :=
  [.setValue 0 (ascii "user") (ascii "bob"), .destroySession zeroId,
    .getSession (visitor []) (HttpResponse.new false), .passTime 1000000000,
    .setValue 1 (ascii "user") (ascii "eve"), .construct (ascii "robot") true 60 0,
    .updateSession 2, .setValue 0 (ascii "cart") (ascii "3"),
    .destroySession (List.replicate 32 102)]

theorem session_lives_interleaved :
    let world : SessionWorld Nat := initial 0 0
    ∃ made final, world.getSession twoIds (visitor []) (HttpResponse.new false) =
        some (made, 0, SessionManager.setSessionCookie zeroId (HttpResponse.new false)) ∧
      made.run twoIds interleaved = some final ∧ (final.load zeroId).1 = some 0 := by
  intro world
  have hlives := @session_lives Nat twoIds world _ 0 0 0 [] interleaved rfl _ (visitor [])
    (HttpResponse.new false) _ rfl rfl (by decide +kernel)
  have hid : (world.newSession twoIds).sessionId = zeroId := by decide +kernel
  rw [hid] at hlives
  exact ⟨_, _, rfl, rfl, hlives.2.trans (if_pos (by decide +kernel))⟩

theorem getValue_lastWritten_interleaved :
    let made := ((initial 0 0).createSession twoIds (HttpResponse.new false)).1
    ∃ final session, made.run twoIds interleaved = some final ∧
      final.heap[0]? = some session ∧ session.getValue (ascii "user") = ascii "bob" := by
  intro made
  obtain ⟨session, hsession, _, hvalue⟩ :=
    @getValue_lastWritten Nat twoIds made _ 0 _ rfl interleaved rfl
  exact ⟨_, session, rfl, hsession, (hvalue (ascii "user")).trans (by decide +kernel)⟩

end SessionWorld

end CuteHttpServer
