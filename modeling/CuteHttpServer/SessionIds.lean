/-
The ids of the sessions over the whole life of a manager: those that it gives out
are the draws of its generator in their order, the others are those of objects
that handlers construct, and no other id finds a session.
-/
import CuteHttpServer.SessionStorage

namespace CuteHttpServer

open ByteString KeyedMap StepRun

namespace SessionManager

variable {ρ : Type} (source : RandomSource ρ)

/-- The next ids that a generator will draw. -/
def drawnIds : Nat → ρ → List Bytes
  | 0, _ => []
  | count + 1, generator =>
      let drawn := generateSessionId source generator
      drawn.1 :: drawnIds count drawn.2

@[simp] theorem length_drawnIds (count : Nat) (generator : ρ) :
    (drawnIds source count generator).length = count := by
  induction count generalizing generator with
  | zero => rfl
  | succ count ih => rw [drawnIds, List.length_cons, ih]

theorem mem_drawnIds {count : Nat} {generator : ρ} {sessionId : Bytes}
    (h : sessionId ∈ drawnIds source count generator) :
    ∃ generator', sessionId = (generateSessionId source generator').1 := by
  induction count generalizing generator with
  | zero => exact absurd h List.not_mem_nil
  | succ count ih =>
      rcases List.mem_cons.mp h with hfirst | hlater
      · exact ⟨generator, hfirst⟩
      · exact ih hlater

end SessionManager

/-- Where the id of a session object comes from: `GetSession` has drawn it, or a
handler has given it to an object that it constructed. -/
inductive SessionOrigin
  | drawn (sessionId : Bytes)
  | given (sessionId : Bytes)
deriving DecidableEq

namespace SessionOrigin

def sessionId : SessionOrigin → Bytes
  | drawn sessionId => sessionId
  | given sessionId => sessionId

def drawnId : SessionOrigin → Option Bytes
  | drawn sessionId => some sessionId
  | given _ => none

end SessionOrigin

namespace SessionOp

open SessionManager

variable {ρ : Type} (source : RandomSource ρ)

def opensSession : SessionOp → Bool
  | getSession _ _ => true
  | _ => false

/-- The object that an operation makes, if it makes one, and the generator after
it. -/
def makes (generator : ρ) : SessionOp → Option SessionOrigin × ρ
  | getSession _ _ =>
      let drawn := generateSessionId source generator
      (some (.drawn drawn.1), drawn.2)
  | construct sessionId _ _ _ => (some (.given sessionId), generator)
  | _ => (none, generator)

/-- All objects that some operations make. -/
def origins : ρ → List SessionOp → List SessionOrigin
  | _, [] => []
  | generator, op :: rest =>
      (op.makes source generator).1.toList ++ origins (op.makes source generator).2 rest

/-- Those of `GetSession` have the draws of the generator, one after the other. -/
theorem origins_drawn (generator : ρ) (ops : List SessionOp) :
    (origins source generator ops).filterMap SessionOrigin.drawnId =
      drawnIds source (ops.countP opensSession) generator := by
  induction ops generalizing generator with
  | nil => rfl
  | cons op rest ih =>
      rw [origins, List.filterMap_append, ih]
      cases op with
      | getSession request response =>
          rw [List.countP_cons_of_pos (show opensSession (.getSession request response) from rfl)]
          rfl
      | _ => rfl

/-- The others have the ids that handlers gave them. -/
theorem construct_of_given {generator : ρ} {ops : List SessionOp} {sessionId : Bytes}
    (h : .given sessionId ∈ origins source generator ops) :
    ∃ sessionManager maxAge indeterminate,
      construct sessionId sessionManager maxAge indeterminate ∈ ops := by
  induction ops generalizing generator with
  | nil => exact absurd h List.not_mem_nil
  | cons op rest ih =>
      rcases List.mem_append.mp h with hfirst | hlater
      · cases op with
        | construct other sessionManager maxAge indeterminate =>
            obtain ⟨rfl⟩ : SessionOrigin.given sessionId = .given other :=
              List.mem_singleton.mp hfirst
            exact ⟨sessionManager, maxAge, indeterminate, List.mem_cons_self⟩
        | getSession request response =>
            exact absurd (List.mem_singleton.mp hfirst) nofun
        | _ => exact absurd hfirst List.not_mem_nil
      · obtain ⟨sessionManager, maxAge, indeterminate, hmem⟩ := ih hlater
        exact ⟨sessionManager, maxAge, indeterminate, List.mem_cons_of_mem _ hmem⟩

end SessionOp

namespace SessionWorld

open SessionManager

variable {ρ : Type} (source : RandomSource ρ) {world next : SessionWorld ρ}

/-- The ids of all session objects, in the order in which they were made. -/
def sessionIds (world : SessionWorld ρ) : List Bytes := world.heap.map Session.sessionId

theorem getElem?_sessionIds (ref : SessionRef) :
    world.sessionIds[ref]? = world.heap[ref]?.map Session.sessionId :=
  List.getElem?_map

theorem length_sessionIds : world.sessionIds.length = world.heap.length :=
  List.length_map _

/-- Changes of an object that leave its id leave all ids. -/
theorem sessionIds_modify (ref : SessionRef) {change : Session → Session}
    (h : ∀ session, (change session).sessionId = session.sessionId) :
    (world.modify ref change).sessionIds = world.sessionIds := by
  apply List.ext_getElem?
  intro other
  rw [getElem?_sessionIds, getElem?_sessionIds]
  exact modify_map ref h other

theorem save_ids (ref : SessionRef) :
    (world.save ref).sessionIds = world.sessionIds ∧
      (world.save ref).randomGenerator = world.randomGenerator := by
  unfold save
  cases world.heap[ref]? with
  | none => exact ⟨rfl, rfl⟩
  | some session => exact ⟨rfl, rfl⟩

theorem update_ids (ref : SessionRef) :
    (world.update ref).sessionIds = world.sessionIds ∧
      (world.update ref).randomGenerator = world.randomGenerator := by
  unfold update
  cases world.heap[ref]? with
  | none => exact ⟨rfl, rfl⟩
  | some session => exact ⟨rfl, rfl⟩

theorem setValue_ids (ref : SessionRef) (key value : Bytes) :
    (world.setValue ref key value).sessionIds = world.sessionIds ∧
      (world.setValue ref key value).randomGenerator = world.randomGenerator := by
  have hids : (world.modify ref fun session =>
      { session with sessionData := assign session.sessionData key value }).sessionIds =
        world.sessionIds := by
    apply sessionIds_modify
    exact fun _ => rfl
  rcases world.setValue_cases ref key value with hvalue | hvalue
  · rw [hvalue]
    exact ⟨hids, rfl⟩
  · rw [hvalue]
    exact ⟨(update_ids ref).1.trans hids, (update_ids ref).2⟩

theorem sessionIds_createSession (response : HttpResponse) :
    (world.createSession source response).1.sessionIds =
      world.sessionIds ++ [(generateSessionId source world.randomGenerator).1] := by
  rw [createSession_eq, sessionIds, List.map_append]
  rfl

/-- What a step does to the ids: they are kept, and the one of the object that it
makes comes behind them. -/
theorem step_ids {op : SessionOp} (hstep : world.step source op = some next) :
    next.sessionIds = world.sessionIds ++
        (op.makes source world.randomGenerator).1.toList.map SessionOrigin.sessionId ∧
      next.randomGenerator = (op.makes source world.randomGenerator).2 := by
  have hkept : ∀ {state : SessionWorld ρ}, state.sessionIds = world.sessionIds →
      state.sessionIds = world.sessionIds ++ [] :=
    fun hids => hids.trans (List.append_nil _).symm
  cases op with
  | getSession request response =>
      simp only [step, getSession_eq, Option.map_eq_some_iff, Option.ite_none_left_eq_some,
        Option.some.injEq] at hstep
      obtain ⟨result, ⟨_, rfl⟩, rfl⟩ := hstep
      refine ⟨sessionIds_createSession source response, ?_⟩
      rw [createSession_eq]
      rfl
  | addSession ref =>
      obtain rfl := Option.some.inj hstep
      exact ⟨hkept (save_ids ref).1, (save_ids ref).2⟩
  | updateSession ref =>
      obtain rfl := Option.some.inj hstep
      exact ⟨hkept (update_ids ref).1, (update_ids ref).2⟩
  | destroySession sessionId =>
      obtain rfl := Option.some.inj hstep
      exact ⟨hkept rfl, rfl⟩
  | construct sessionId sessionManager maxAge indeterminate =>
      obtain rfl := Option.some.inj hstep
      exact ⟨List.map_append, rfl⟩
  | setValue ref key value =>
      obtain rfl := Option.some.inj hstep
      exact ⟨hkept (setValue_ids ref key value).1, (setValue_ids ref key value).2⟩
  | remove ref key =>
      obtain rfl := Option.some.inj hstep
      exact ⟨hkept (sessionIds_modify ref fun _ => rfl), rfl⟩
  | clear ref =>
      obtain rfl := Option.some.inj hstep
      exact ⟨hkept (sessionIds_modify ref fun _ => rfl), rfl⟩
  | refresh ref =>
      obtain rfl := Option.some.inj hstep
      exact ⟨hkept (sessionIds_modify ref fun _ => rfl), rfl⟩
  | setManager ref sessionManager =>
      obtain rfl := Option.some.inj hstep
      exact ⟨hkept (sessionIds_modify ref fun _ => rfl), rfl⟩
  | passTime nanoseconds =>
      obtain rfl := Option.some.inj hstep
      exact ⟨hkept rfl, rfl⟩

/-- After a run the objects are those that were there and those that its
operations have made, in their order. -/
theorem run_ids {ops : List SessionOp} {final : SessionWorld ρ}
    (hrun : world.run source ops = some final) :
    final.sessionIds = world.sessionIds ++
      (SessionOp.origins source world.randomGenerator ops).map SessionOrigin.sessionId := by
  induction ops generalizing world with
  | nil =>
      obtain rfl := Option.some.inj hrun
      exact (List.append_nil _).symm
  | cons op rest ih =>
      obtain ⟨middle, hfirst, hrest⟩ := tryRun_cons_eq_some hrun
      obtain ⟨hids, hgenerator⟩ := step_ids source hfirst
      rw [ih hrest, hids, hgenerator, SessionOp.origins, List.map_append, List.append_assoc]

/-- Objects keep their ids, and new ones come after them. -/
theorem ids_run_extends {ops : List SessionOp} {final : SessionWorld ρ}
    (hrun : world.run source ops = some final) : world.sessionIds <+: final.sessionIds := by
  rw [run_ids source hrun]
  exact List.prefix_append _ _

/-- Every entry of the store stands under the id of its object. -/
def StoreKeyed (world : SessionWorld ρ) : Prop :=
  ∀ sessionId ref, world.sessions.lookup sessionId = some ref →
    world.sessionIds[ref]? = some sessionId

section Keyed

variable (h : world.StoreKeyed)

include h

theorem StoreKeyed.modify (ref : SessionRef) {change : Session → Session}
    (hchange : ∀ session, (change session).sessionId = session.sessionId) :
    (world.modify ref change).StoreKeyed := by
  rw [StoreKeyed, sessionIds_modify ref hchange]
  exact h

theorem StoreKeyed.append (created : List Session) :
    StoreKeyed { world with heap := world.heap ++ created } := by
  intro sessionId ref hstored
  have hid := h sessionId ref hstored
  rw [sessionIds, List.map_append]
  exact (List.getElem?_append_left (List.getElem?_eq_some_iff.mp hid).1).trans hid

theorem StoreKeyed.update (ref : SessionRef) : (world.update ref).StoreKeyed := by
  unfold SessionWorld.update
  cases hheap : world.heap[ref]? with
  | none => exact h
  | some session =>
      have hid : world.sessionIds[ref]? = some session.sessionId := by
        rw [getElem?_sessionIds, hheap, Option.map_some]
      exact forall_lookup_assign h hid

theorem StoreKeyed.save (ref : SessionRef) : (world.save ref).StoreKeyed := by
  unfold SessionWorld.save
  cases hheap : world.heap[ref]? with
  | none => exact h
  | some session =>
      have hid : world.sessionIds[ref]? = some session.sessionId := by
        rw [getElem?_sessionIds, hheap, Option.map_some]
      exact forall_lookup_emplace h hid

theorem StoreKeyed.createSession (response : HttpResponse) :
    (world.createSession source response).1.StoreKeyed := by
  rw [createSession_eq, StoreKeyed, sessionIds, List.map_append]
  have hlength : world.heap.length = (world.heap.map Session.sessionId).length :=
    (List.length_map _).symm
  apply forall_lookup_emplace
  · intro sessionId ref hstored
    have hid : (world.heap.map Session.sessionId)[ref]? = some sessionId :=
      h sessionId ref hstored
    rw [List.getElem?_append_left (List.getElem?_eq_some_iff.mp hid).1]
    exact hid
  · rw [hlength, List.map_singleton, List.getElem?_concat_length]
    rfl

theorem StoreKeyed.step {op : SessionOp} (hstep : world.step source op = some next) :
    next.StoreKeyed := by
  cases op with
  | getSession request response =>
      simp only [SessionWorld.step, getSession_eq, Option.map_eq_some_iff,
        Option.ite_none_left_eq_some, Option.some.injEq] at hstep
      obtain ⟨result, ⟨_, rfl⟩, rfl⟩ := hstep
      exact h.createSession source response
  | addSession ref =>
      obtain rfl := Option.some.inj hstep
      exact h.save ref
  | updateSession ref =>
      obtain rfl := Option.some.inj hstep
      exact h.update ref
  | destroySession other =>
      obtain rfl := Option.some.inj hstep
      exact forall_lookup_erase h other
  | construct sessionId sessionManager maxAge indeterminate =>
      obtain rfl := Option.some.inj hstep
      exact h.append _
  | setValue ref key value =>
      obtain rfl := Option.some.inj hstep
      rcases world.setValue_cases ref key value with hvalue | hvalue
      · rw [hvalue]
        exact h.modify ref fun _ => rfl
      · rw [hvalue]
        apply StoreKeyed.update
        exact h.modify ref fun _ => rfl
  | remove ref key =>
      obtain rfl := Option.some.inj hstep
      exact h.modify ref fun _ => rfl
  | clear ref =>
      obtain rfl := Option.some.inj hstep
      exact h.modify ref fun _ => rfl
  | refresh ref =>
      obtain rfl := Option.some.inj hstep
      exact h.modify ref fun _ => rfl
  | setManager ref sessionManager =>
      obtain rfl := Option.some.inj hstep
      exact h.modify ref fun _ => rfl
  | passTime nanoseconds =>
      obtain rfl := Option.some.inj hstep
      exact h

end Keyed

/-- So it is in every world that a manager reaches. -/
theorem storeKeyed_run (generator : ρ) (now : ClockTime) {ops : List SessionOp}
    (hrun : (initial generator now).run source ops = some world) : world.StoreKeyed := by
  refine tryRun_invariant (SessionWorld.step source) (fun _ => True) StoreKeyed ?_
    (fun _ _ => trivial) hrun ?_
  · exact fun _ _ _ _ hstep h => h.step source hstep
  · intro sessionId ref hlookup
    exact absurd hlookup (by simp [initial])

/-- The session that an id finds is the one it was drawn for, or given to. -/
theorem origin_of_load {generator : ρ} {now : ClockTime} {ops : List SessionOp}
    (hrun : (initial generator now).run source ops = some world) {sessionId : Bytes}
    {ref : SessionRef} (hload : (world.load sessionId).1 = some ref) :
    ∃ origin, (SessionOp.origins source generator ops)[ref]? = some origin ∧
      origin.sessionId = sessionId := by
  have hid := storeKeyed_run source generator now hrun _ ref (load_some (Prod.ext hload rfl)).2
  rw [run_ids source hrun] at hid
  exact Option.map_eq_some_iff.mp (List.getElem?_map.symm.trans hid)

/-- An id that was drawn for a session is 32 hexadecimal digits. -/
theorem hexDigits_of_drawn {generator : ρ} {ops : List SessionOp} {sessionId : Bytes}
    (h : .drawn sessionId ∈ SessionOp.origins source generator ops) :
    sessionId.length = 32 ∧ ∀ c ∈ sessionId, ∃ digit, c = hexDigit digit := by
  have hdrawn : sessionId ∈
      (SessionOp.origins source generator ops).filterMap SessionOrigin.drawnId :=
    List.mem_filterMap.mpr ⟨_, h, rfl⟩
  rw [SessionOp.origins_drawn] at hdrawn
  obtain ⟨generator', rfl⟩ := mem_drawnIds source hdrawn
  exact ⟨hexDigits_length source 32 generator', fun _ hc => mem_hexDigits source hc⟩

/-- In every run the ids that `GetSession` gives out are those that were drawn, in
order.  An id that finds a session, from whatever request it came, is the one
that was drawn for this session, 32 hexadecimal digits, or the one that a handler
has constructed this session with. -/
theorem load_drawn (generator : ρ) (now : ClockTime) {ops : List SessionOp}
    (hrun : (initial generator now).run source ops = some world) :
    let origins := SessionOp.origins source generator ops
    world.sessionIds = origins.map SessionOrigin.sessionId ∧
      origins.filterMap SessionOrigin.drawnId =
        drawnIds source (ops.countP SessionOp.opensSession) generator ∧
      ∀ request ref,
        let sessionId := getSessionIdFromRequestCookie request
        (world.load sessionId).1 = some ref →
          (origins[ref]? = some (.drawn sessionId) ∧ sessionId.length = 32 ∧
            ∀ c ∈ sessionId, ∃ digit, c = hexDigit digit) ∨
          (origins[ref]? = some (.given sessionId) ∧
            ∃ sessionManager maxAge indeterminate,
              .construct sessionId sessionManager maxAge indeterminate ∈ ops) := by
  intro origins
  refine ⟨run_ids source hrun, SessionOp.origins_drawn source generator ops, ?_⟩
  intro request ref sessionId hload
  obtain ⟨origin, horigin, hid⟩ := origin_of_load source hrun hload
  have hmem : origin ∈ origins := List.mem_of_getElem? horigin
  cases origin with
  | drawn other =>
      obtain rfl : other = sessionId := hid
      exact Or.inl ⟨horigin, hexDigits_of_drawn source hmem⟩
  | given other =>
      obtain rfl : other = sessionId := hid
      exact Or.inr ⟨horigin, SessionOp.construct_of_given source hmem⟩

/-- A session that a handler stores by itself, one that a visitor is given, and
the visitor who comes back with its id. -/
theorem load_drawn_visitor :
    let ops := [.construct (ascii "robot") true 60 7, .addSession 0,
      .getSession (visitor []) (HttpResponse.new false)]
    let request := visitor (ascii "sessionid=" ++ zeroId)
    ∃ world, (initial () 0).run zeros ops = some world ∧
      (world.load (getSessionIdFromRequestCookie request)).1 = some 1 ∧
      (SessionOp.origins zeros () ops)[1]? =
        some (.drawn (getSessionIdFromRequestCookie request)) := by
  intro ops request
  have hload : ∃ world, (initial () 0).run zeros ops = some world ∧
      (world.load (getSessionIdFromRequestCookie request)).1 = some 1 :=
    ⟨_, rfl, by decide +kernel⟩
  obtain ⟨world, hrun, hload⟩ := hload
  refine ⟨world, hrun, hload, ?_⟩
  rcases (load_drawn zeros () 0 hrun).2.2 request 1 hload with ⟨hdrawn, _⟩ | ⟨hgiven, _⟩
  · exact hdrawn
  · exact absurd hgiven (by decide +kernel)

end SessionWorld

end CuteHttpServer
