/-
Runs of the session manager, and what a client finds who comes back with the
id of a session: never that session.
-/
import CuteHttpServer.SessionManager

namespace CuteHttpServer

open ByteString KeyedMap StepRun

/-- What can happen to the sessions: calls of the manager, objects that handlers
construct, calls of the objects that they hold, and the passing of time. -/
inductive SessionOp
  | getSession (request : HttpRequest) (response : HttpResponse)
  | addSession (ref : SessionRef)
  | updateSession (ref : SessionRef)
  | destroySession (sessionId : Bytes)
  | construct (sessionId : Bytes) (sessionManager : Bool) (maxAge : Int)
      (indeterminate : Int32)
  | setValue (ref : SessionRef) (key value : Bytes)
  | remove (ref : SessionRef) (key : Bytes)
  | clear (ref : SessionRef)
  | refresh (ref : SessionRef)
  | setManager (ref : SessionRef) (sessionManager : Bool)
  | passTime (nanoseconds : Nat)

namespace SessionWorld

variable {ρ : Type} (source : RandomSource ρ)

/-- One operation; `none` is the null pointer dereference of `GetSession`. -/
def step (world : SessionWorld ρ) : SessionOp → Option (SessionWorld ρ)
  | .getSession request response =>
      (world.getSession source request response).map fun result => result.1
  | .addSession ref => some (world.addSession ref)
  | .updateSession ref => some (world.updateSession ref)
  | .destroySession sessionId => some (world.destroySession sessionId)
  | .construct sessionId sessionManager maxAge indeterminate =>
      some (world.construct sessionId sessionManager maxAge indeterminate)
  | .setValue ref key value => some (world.setValue ref key value)
  | .remove ref key => some (world.modify ref fun session => session.remove key)
  | .clear ref => some (world.modify ref Session.clear)
  | .refresh ref => some (world.modify ref fun session => session.refresh world.clock)
  | .setManager ref sessionManager =>
      some (world.modify ref fun session => session.setManager sessionManager)
  | .passTime nanoseconds => some { world with clock := world.clock + nanoseconds }

def run (world : SessionWorld ρ) (ops : List SessionOp) : Option (SessionWorld ρ) :=
  tryRun (step source) world ops

/-- The object behind a pointer has this id. -/
def HasId (ref : SessionRef) (sessionId : Bytes) (world : SessionWorld ρ) : Prop :=
  ∃ session, world.heap[ref]? = some session ∧ session.sessionId = sessionId

/-- What `GetSession` gives to a client it knows: the same object, refreshed,
with its data, and no new one. -/
def Continues (world : SessionWorld ρ) (ref : SessionRef) (request : HttpRequest)
    (response : HttpResponse) : Prop :=
  ∃ world' response' session session',
    world.getSession source request response = some (world', ref, response') ∧
      world'.heap.length = world.heap.length ∧
      world.heap[ref]? = some session ∧ world'.heap[ref]? = some session' ∧
      session'.expirationTime = world.clock + seconds session.maxAge ∧
      ∀ key, session'.getValue key = session.getValue key

section Frames

variable {world : SessionWorld ρ} {ref : SessionRef} {sessionId : Bytes}

theorem HasId.modify {change : Session → Session}
    (hchange : ∀ session, (change session).sessionId = session.sessionId)
    (other : SessionRef) (h : HasId ref sessionId world) :
    HasId ref sessionId (world.modify other change) := by
  obtain ⟨session, hheap, hid⟩ := h
  by_cases hsame : other = ref
  · exact ⟨change session, by simp [SessionWorld.modify, hheap, hsame],
      (hchange session).trans hid⟩
  · exact ⟨session, by simp [SessionWorld.modify, hheap, hsame], hid⟩

/-- Saving and updating change the store only, and only add to it. -/
theorem save_frame (world : SessionWorld ρ) (sessionId : Bytes) (other : SessionRef) :
    (world.save other).heap = world.heap ∧
      (sessionId ∈ world.sessions → sessionId ∈ (world.save other).sessions) := by
  unfold save
  cases world.heap[other]? with
  | none => exact ⟨rfl, id⟩
  | some session => exact ⟨rfl, fun h => (mem_emplace _ _ _ _).mpr (Or.inr h)⟩

theorem update_frame (world : SessionWorld ρ) (sessionId : Bytes) (other : SessionRef) :
    (world.update other).heap = world.heap ∧
      (sessionId ∈ world.sessions → sessionId ∈ (world.update other).sessions) := by
  unfold update
  cases world.heap[other]? with
  | none => exact ⟨rfl, id⟩
  | some session => exact ⟨rfl, fun h => (AList.mem_insert _).mpr (Or.inr h)⟩

/-- An object stays where it is when another one is made. -/
theorem HasId.append {created : List Session} (h : HasId ref sessionId world) :
    HasId ref sessionId { world with heap := world.heap ++ created } := by
  obtain ⟨session, hheap, hid⟩ := h
  have hlt := (List.getElem?_eq_some_iff.mp hheap).1
  exact ⟨session, (List.getElem?_append_left hlt).trans hheap, hid⟩

theorem setValue_cases (world : SessionWorld ρ) (other : SessionRef)
    (key value : Bytes) :
    let changed := world.modify other fun session =>
      { session with sessionData := assign session.sessionData key value }
    world.setValue other key value = changed ∨
      world.setValue other key value = changed.update other := by
  intro changed
  unfold setValue
  cases hheap : changed.heap[other]? with
  | none => exact Or.inl (by simp [changed, hheap])
  | some session =>
      cases hmanager : session.sessionManager with
      | false => exact Or.inl (by simp [changed, hheap, hmanager])
      | true => exact Or.inr (by simp [changed, hheap, hmanager, updateSession])

theorem setValue_frame (other : SessionRef) (key value : Bytes) :
    (HasId ref sessionId world → HasId ref sessionId (world.setValue other key value)) ∧
      (sessionId ∈ world.sessions →
        sessionId ∈ (world.setValue other key value).sessions) := by
  have hid : HasId ref sessionId world → HasId ref sessionId (world.modify other
      fun session => { session with sessionData := assign session.sessionData key value }) := by
    intro h
    apply h.modify
    exact fun _ => rfl
  rcases world.setValue_cases other key value with hvalue | hvalue
  · rw [hvalue]
    exact ⟨hid, id⟩
  · rw [hvalue]
    obtain ⟨hheap, hmem⟩ := update_frame (world.modify other fun session =>
      { session with sessionData := assign session.sessionData key value }) sessionId other
    refine ⟨fun h => ?_, hmem⟩
    obtain ⟨found, hfound, hsame⟩ := hid h
    exact ⟨found, by rw [hheap, hfound], hsame⟩

/-- A new session is a new object with no data, stored under the generated id
unless that is taken. -/
theorem createSession_spec (world : SessionWorld ρ) (response : HttpResponse) :
    ∃ created, created.sessionData = ∅ ∧
      (world.createSession source response).1.heap = world.heap ++ [created] ∧
      (world.createSession source response).2.1 = world.heap.length ∧
      created.sessionId =
        (SessionManager.generateSessionId source world.randomGenerator).1 ∧
      ∀ sessionId, sessionId ∈ (world.createSession source response).1.sessions ↔
        sessionId = created.sessionId ∨ sessionId ∈ world.sessions := by
  set created := (Session.new
    (SessionManager.generateSessionId source world.randomGenerator).1 true
    Session.defaultMaxAge world.clock 0).refresh world.clock with hcreated
  refine ⟨created, rfl, ?_, rfl, rfl, fun sessionId => ?_⟩
  · simp [createSession, addSession, save, ← hcreated]
  · simp [createSession, addSession, save, ← hcreated, mem_emplace]

/-- Loading either finds the entry and changes nothing, or finds nothing. -/
theorem load_some {stored : SessionRef} {loaded : SessionWorld ρ}
    (h : world.load sessionId = (some stored, loaded)) :
    loaded = world ∧ world.sessions.lookup sessionId = some stored := by
  unfold load at h
  by_cases hid : sessionId = []
  · simp [hid] at h
  · rw [if_neg hid] at h
    cases hlookup : world.sessions.lookup sessionId with
    | none => simp [hlookup] at h
    | some found =>
        cases hheap : world.heap[found]? with
        | none => simp [hlookup, hheap] at h
        | some session =>
            cases hexpired : session.isExpired world.clock with
            | true => simp [hlookup, hheap, hexpired] at h
            | false =>
                simp only [hlookup, hheap, hexpired, Bool.false_eq_true, if_false,
                  Prod.mk.injEq, Option.some.injEq] at h
                exact ⟨h.2.symm, congrArg some h.1⟩

/-- A stored session that has not expired is found. -/
theorem load_stored {stored : SessionRef} {session : Session} (hid : sessionId ≠ [])
    (hlookup : world.sessions.lookup sessionId = some stored)
    (hheap : world.heap[stored]? = some session)
    (hexpired : session.isExpired world.clock = false) :
    world.load sessionId = (some stored, world) := by
  simp [load, hid, hlookup, hheap, hexpired]

/-- All that `GetSession` does: it dereferences the null pointer where the
client's id finds nothing, and makes a new session everywhere else. -/
theorem getSession_eq (world : SessionWorld ρ) (request : HttpRequest)
    (response : HttpResponse) :
    world.getSession source request response =
      if SessionManager.getSessionIdFromRequestCookie request ≠ [] ∧
          (world.load (SessionManager.getSessionIdFromRequestCookie request)).1 = none
      then none
      else some (world.createSession source response) := by
  unfold getSession
  by_cases hid : SessionManager.getSessionIdFromRequestCookie request = []
  · simp [hid]
  · rcases hload : world.load (SessionManager.getSessionIdFromRequestCookie request) with
      ⟨found, loaded⟩
    cases found with
    | none => simp [hid, hload]
    | some stored =>
        obtain ⟨rfl, _⟩ := load_some hload
        simp [hid, hload]

/-- Sessions keep their id, and an id stays in the store until it is
destroyed. -/
theorem step_frame (ref : SessionRef) {op : SessionOp} {next : SessionWorld ρ}
    (hop : op ≠ .destroySession sessionId) (hstep : world.step source op = some next) :
    (HasId ref sessionId world → HasId ref sessionId next) ∧
      (sessionId ∈ world.sessions → sessionId ∈ next.sessions) := by
  have hmodify : ∀ (other : SessionRef) (change : Session → Session),
      (∀ session, (change session).sessionId = session.sessionId) →
      (HasId ref sessionId world → HasId ref sessionId (world.modify other change)) ∧
        (sessionId ∈ world.sessions →
          sessionId ∈ (world.modify other change).sessions) :=
    fun other change hchange => ⟨fun h => h.modify hchange other, id⟩
  cases op with
  | getSession request response =>
      simp only [step, getSession_eq, Option.map_eq_some_iff, Option.ite_none_left_eq_some,
        Option.some.injEq] at hstep
      obtain ⟨result, ⟨_, rfl⟩, rfl⟩ := hstep
      obtain ⟨created, _, hheap, _, _, hmem⟩ := createSession_spec source world response
      refine ⟨?_, fun h => (hmem sessionId).mpr (Or.inr h)⟩
      rintro ⟨session, hsession, hid⟩
      have hlt := (List.getElem?_eq_some_iff.mp hsession).1
      exact ⟨session, by rw [hheap, List.getElem?_append_left hlt, hsession], hid⟩
  | addSession other =>
      obtain rfl := Option.some.inj hstep
      obtain ⟨hheap, hmem⟩ := save_frame world sessionId other
      exact ⟨fun ⟨session, hsession, hid⟩ => ⟨session, hheap ▸ hsession, hid⟩, hmem⟩
  | updateSession other =>
      obtain rfl := Option.some.inj hstep
      obtain ⟨hheap, hmem⟩ := update_frame world sessionId other
      exact ⟨fun ⟨session, hsession, hid⟩ => ⟨session, hheap ▸ hsession, hid⟩, hmem⟩
  | destroySession other =>
      obtain rfl := Option.some.inj hstep
      refine ⟨id, fun h => AList.mem_erase.mpr ⟨?_, h⟩⟩
      rintro rfl
      exact hop rfl
  | construct other sessionManager maxAge indeterminate =>
      obtain rfl := Option.some.inj hstep
      exact ⟨HasId.append, id⟩
  | setValue other key value =>
      obtain rfl := Option.some.inj hstep
      exact setValue_frame other key value
  | remove other key =>
      obtain rfl := Option.some.inj hstep
      exact hmodify other _ fun _ => rfl
  | clear other =>
      obtain rfl := Option.some.inj hstep
      exact hmodify other _ fun _ => rfl
  | refresh other =>
      obtain rfl := Option.some.inj hstep
      exact hmodify other _ fun _ => rfl
  | setManager other sessionManager =>
      obtain rfl := Option.some.inj hstep
      exact hmodify other _ fun _ => rfl
  | passTime nanoseconds =>
      obtain rfl := Option.some.inj hstep
      exact ⟨id, id⟩

theorem run_frame (ref : SessionRef) {ops : List SessionOp} {final : SessionWorld ρ}
    (hops : .destroySession sessionId ∉ ops) (hrun : world.run source ops = some final) :
    (HasId ref sessionId world → HasId ref sessionId final) ∧
      (sessionId ∈ world.sessions → sessionId ∈ final.sessions) := by
  have hharmless : ∀ op ∈ ops, op ≠ .destroySession sessionId :=
    fun op hop hdestroy => hops (hdestroy ▸ hop)
  constructor
  · apply tryRun_invariant (step source) _ (HasId ref sessionId) _ hharmless hrun
    exact fun _ _ _ hop hstep => (step_frame source ref hop hstep).1
  · apply tryRun_invariant (step source) _ (sessionId ∈ ·.sessions) _ hharmless hrun
    exact fun _ _ _ hop hstep => (step_frame source ref hop hstep).2

theorem hexDigits_length (count : Nat) (generator : ρ) :
    (SessionManager.hexDigits source count generator).1.length = count := by
  induction count generalizing generator with
  | zero => rfl
  | succ count ih => simp [SessionManager.hexDigits, ih]

theorem generateSessionId_ne_nil (generator : ρ) :
    (SessionManager.generateSessionId source generator).1 ≠ [] := by
  intro hnil
  have hlength := hexDigits_length source 32 generator
  have hempty : (SessionManager.hexDigits source 32 generator).1 = [] := hnil
  simp [hempty] at hlength

/-- A session that `GetSession` returns is always a new one. -/
theorem getSession_some {request : HttpRequest} {response response' : HttpResponse}
    {made : SessionWorld ρ}
    (h : world.getSession source request response = some (made, ref, response')) :
    ref = world.heap.length ∧
      ∃ created, created.sessionData = ∅ ∧ made.heap = world.heap ++ [created] ∧
        created.sessionId ≠ [] ∧ created.sessionId ∈ made.sessions := by
  rw [getSession_eq, Option.ite_none_left_eq_some, Option.some.injEq] at h
  obtain ⟨created, hdata, hheap, href, hgenerated, hmem⟩ :=
    createSession_spec source world response
  rw [h.2] at hheap href hmem
  refine ⟨href, created, hdata, hheap, ?_, (hmem _).mpr (Or.inl rfl)⟩
  rw [hgenerated]
  exact generateSessionId_ne_nil source world.randomGenerator

end Frames

/-- In a run between two worlds, a `GetSession` returned `ref`, whose session
has this id, and the id was not destroyed after it. -/
def Keeps (start : SessionWorld ρ) (ref : SessionRef) (sessionId : Bytes)
    (world : SessionWorld ρ) : Prop :=
  ∃ before request response after middle made response',
    run source start before = some middle ∧
      middle.getSession source request response = some (made, ref, response') ∧
      HasId ref sessionId made ∧
      run source made after = some world ∧ .destroySession sessionId ∉ after

/-- What such a run leaves: the object with its id, and the id in the store. -/
theorem Keeps.stored {start world : SessionWorld ρ} {ref : SessionRef}
    {sessionId : Bytes} (h : Keeps source start ref sessionId world) :
    HasId ref sessionId world ∧ sessionId ∈ world.sessions ∧ sessionId ≠ [] := by
  obtain ⟨before, request, response, after, middle, made, response', _, hmade, hid,
    hrun, hkept⟩ := h
  obtain ⟨href, created, _, hheap, hne, hmem⟩ := getSession_some source hmade
  have hsame : created.sessionId = sessionId := by
    obtain ⟨session, hsession, rfl⟩ := hid
    rw [href, hheap, List.getElem?_concat_length, Option.some.injEq] at hsession
    rw [hsession]
  have hframe := run_frame source ref hkept hrun
  exact ⟨hframe.1 hid, hframe.2 (hsame ▸ hmem), hsame ▸ hne⟩

/-- A client that comes back with the id of its session never gets that session
back, whether or not it has expired.  Where the id's entry has not expired, it
gets a new session without any data. -/
theorem getSession_never_continues (start : SessionWorld ρ) {world : SessionWorld ρ}
    {ref : SessionRef} {sessionId : Bytes}
    (hkeeps : Keeps source start ref sessionId world) {request : HttpRequest}
    (hcookie : SessionManager.getSessionIdFromRequestCookie request = sessionId)
    (response : HttpResponse) :
    ¬ world.Continues source ref request response ∧
      ∃ stored, world.sessions.lookup sessionId = some stored ∧
        ∀ session, world.heap[stored]? = some session →
          session.isExpired world.clock = false →
          ∃ made response' created,
            world.getSession source request response =
                some (made, world.heap.length, response') ∧
              made.heap[world.heap.length]? = some created ∧
              ∀ key, created.getValue key = [] := by
  obtain ⟨⟨object, hobject, _⟩, hmem, hne⟩ := hkeeps.stored
  have hlt := (List.getElem?_eq_some_iff.mp hobject).1
  constructor
  · rintro ⟨world', response', session, session', hget, _⟩
    exact absurd (getSession_some source hget).1 (Nat.ne_of_lt hlt)
  · obtain ⟨stored, hlookup⟩ :=
      Option.isSome_iff_exists.mp (AList.lookup_isSome.mpr hmem)
    refine ⟨stored, hlookup, ?_⟩
    intro session hsession hexpired
    have hload := load_stored hne hlookup hsession hexpired
    have hget : world.getSession source request response =
        some (world.createSession source response) := by
      rw [getSession_eq, if_neg]
      simp [hcookie, hload]
    obtain ⟨href, created, hdata, hheap, _⟩ := getSession_some source hget
    refine ⟨_, _, created, hget, ?_, ?_⟩
    · rw [hheap, List.getElem?_concat_length]
    · intro key
      simp [Session.getValue, hdata]

/-- A generator that always draws zero. -/
def zeros : RandomSource Unit where
  dist _ := (0, ())

/-- A visitor without a cookie, and one with the id of the first session. -/
def visitor (cookie : Bytes) : HttpRequest :=
  (HttpRequest.new 0).addHeader (ascii "Cookie") cookie

def zeroId : Bytes := List.replicate 32 48

/-- The first visitor's session, with a value in it, one second later. -/
def afterLogin : SessionWorld Unit :=
  let made := (initial () 0).createSession zeros (HttpResponse.new false)
  { made.1.setValue 0 (ascii "user") (ascii "bob") with clock := seconds 1 }

theorem keeps_afterLogin : Keeps zeros (initial () 0) 0 zeroId afterLogin :=
  ⟨[], visitor [], HttpResponse.new false,
    [.setValue 0 (ascii "user") (ascii "bob"), .passTime 1000000000], initial () 0, _, _,
    rfl, rfl, ⟨_, rfl, by decide +kernel⟩, rfl, by simp⟩

theorem getSession_never_continues_afterLogin :
    ¬ afterLogin.Continues zeros 0 (visitor (ascii "sessionid=" ++ zeroId))
      (HttpResponse.new false) :=
  (getSession_never_continues zeros (initial () 0) keeps_afterLogin
    (by decide +kernel) (HttpResponse.new false)).1

/-- One second after the login the session is in the store and not expired, and
its visitor is given another one. -/
theorem getSession_forgets_login :
    let request := visitor (ascii "sessionid=" ++ zeroId)
    Keeps zeros (initial () 0) 0 zeroId afterLogin ∧
      SessionManager.getSessionIdFromRequestCookie request = zeroId ∧
      (afterLogin.load zeroId).1 = some 0 ∧
      ¬ afterLogin.Continues zeros 0 request (HttpResponse.new false) := by
  intro request
  refine ⟨keeps_afterLogin, by decide +kernel, by decide +kernel, ?_⟩
  rintro ⟨world', response', session, session', hget, _⟩
  have hother : (afterLogin.getSession zeros request (HttpResponse.new false)).map
      (fun result => result.2.1) = some 1 := by decide +kernel
  rw [hget] at hother
  exact absurd hother (by simp)

end SessionWorld

end CuteHttpServer
