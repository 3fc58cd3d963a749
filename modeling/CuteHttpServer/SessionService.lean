/-
A server whose handlers open sessions.  Since `GetSession` never finds one, each
call of the callback makes another, whichever connection it is for.
-/
import CuteHttpServer.HandlerOrder
import CuteHttpServer.SessionIds

namespace CuteHttpServer

open ByteString KeyedMap StepRun SessionManager

variable {ρ T B : Type} [Buffer B] {source : RandomSource ρ} {world next : SessionWorld ρ}

def SessionOp.constructs : SessionOp → Bool
  | construct _ _ _ _ => true
  | _ => false

/-- Where handlers construct no sessions, all of them have drawn ids. -/
theorem SessionOp.ids_of_unconstructed (source : RandomSource ρ) (generator : ρ)
    {ops : List SessionOp} (h : ∀ op ∈ ops, op.constructs = false) :
    (origins source generator ops).map SessionOrigin.sessionId =
      drawnIds source (ops.countP opensSession) generator := by
  rw [← origins_drawn]
  refine (List.filterMap_eq_map_iff_forall_eq_some.mpr ?_).symm
  rintro (sessionId | sessionId) horigin
  · rfl
  · obtain ⟨sessionManager, maxAge, indeterminate, hmem⟩ := construct_of_given source horigin
    exact absurd (h _ hmem) Bool.true_eq_false_eq_False

/-- What the callback does with the sessions: it asks for one session, constructs
none by itself, and does what it wants with any of them.  `none` is the end of the
process at a null pointer. -/
structure OpensOnce (source : RandomSource ρ) (server : HttpServer (Option (SessionWorld ρ))) :
    Prop where
  ended : ∀ request, (server.call none request).1 = none
  opens : ∀ {world request next}, (server.call (some world) request).1 = some next →
    ∃ ops : List SessionOp, ops.countP SessionOp.opensSession = 1 ∧
      (∀ op ∈ ops, op.constructs = false) ∧ world.run source ops = some next

namespace OpensOnce

variable {server : HttpServer (Option (SessionWorld ρ))}

theorem ended_run (h : OpensOnce source server) (requests : List HttpRequest) :
    (runFrom server.call none requests).1 = none := by
  induction requests with
  | nil => rfl
  | cons request rest ih =>
      rw [runFrom_cons, h.ended]
      exact ih

/-- Calls one after the other are a run of the session manager, with as many
sessions asked for as there are calls. -/
theorem run (h : OpensOnce source server) (requests : List HttpRequest) {final : SessionWorld ρ}
    (hrun : (runFrom server.call (some world) requests).1 = some final) :
    ∃ ops : List SessionOp, ops.countP SessionOp.opensSession = requests.length ∧
      (∀ op ∈ ops, op.constructs = false) ∧ world.run source ops = some final := by
  induction requests generalizing world with
  | nil =>
      obtain rfl := Option.some.inj hrun
      exact ⟨[], rfl, fun _ hop => absurd hop List.not_mem_nil, rfl⟩
  | cons request rest ih =>
      rw [runFrom_cons] at hrun
      cases hnext : (server.call (some world) request).1 with
      | none =>
          rw [hnext, h.ended_run] at hrun
          exact absurd hrun (Option.some_ne_none final).symm
      | some next =>
          rw [hnext] at hrun
          obtain ⟨ops, hcount, hnone, hfirst⟩ := h.opens hnext
          obtain ⟨later, hlater, hnoneLater, hrest⟩ := ih hrun
          refine ⟨ops ++ later, ?_, List.forall_mem_append.mpr ⟨hnone, hnoneLater⟩, ?_⟩
          · rw [List.countP_append, hcount, hlater, List.length_cons, Nat.add_comm]
          · rw [SessionWorld.run, tryRun_append, ← SessionWorld.run, hfirst]
            exact hrest

end OpensOnce

namespace SslServer

variable {server : HttpServer (Option (SessionWorld ρ))}

/-- In every interleaving of connections, as long as the process lives: there is
one session for each call of the callback, with the id that was drawn in it, and
a request whose cookie finds a session has the id that this call drew. -/
theorem sessions_perCall (methods : SslMethods T B) (hopens : OpensOnce source server)
    {start final : SslServer (Option (SessionWorld ρ)) T B} {events : List SslEvent}
    {outputs : List Handled}
    (hrun : tryRunFrom (step server methods) start events = some (final, outputs))
    {generator : ρ} {now : ClockTime} (hstart : start.handlers = some (.initial generator now))
    (hlives : final.handlers = some world) :
    let calls := outputs.flatMap fun handled => invocations handled.events
    world.sessionIds = drawnIds source calls.length generator ∧
      ∀ request ref,
        (world.load (getSessionIdFromRequestCookie request)).1 = some ref →
        (drawnIds source calls.length generator)[ref]? =
          some (getSessionIdFromRequestCookie request) := by
  intro calls
  obtain ⟨answers, _, hcalls⟩ := @tryRunFrom_calls _ _ _ _ _ _ _ server.call handlers _ _
    step_handles _ _ _ _ hrun
  have hfinal : (runFrom server.call (some (.initial generator now)) calls).1 = some world := by
    rw [← hstart, hcalls, hlives]
  obtain ⟨ops, hcount, hnone, hops⟩ := hopens.run calls hfinal
  have hids : world.sessionIds = drawnIds source calls.length generator := by
    rw [← hcount, ← SessionOp.ids_of_unconstructed source generator hnone]
    exact SessionWorld.run_ids source hops
  refine ⟨hids, fun request ref hload => ?_⟩
  rw [← hids]
  exact SessionWorld.storeKeyed_run source generator now hops _ ref
    (SessionWorld.load_some (Prod.ext hload rfl)).2

/-- A server that opens a session for whoever comes. -/
def welcoming : HttpServer (Option (SessionWorld Unit)) where
  httpCallback world request response :=
    let asked := world.bind fun world => world.getSession SessionWorld.zeros request response
    ⟨asked.map (·.1), asked.elim response (·.2.2), none⟩
  headerOrder := .byEntry

theorem opensOnce_welcoming : OpensOnce SessionWorld.zeros welcoming where
  ended _ := rfl
  opens {world request next} hnext := by
    let response := HttpResponse.new (closesByDefault request)
    have hstep : world.step SessionWorld.zeros (.getSession request response) = some next := hnext
    refine ⟨[.getSession request response], rfl, List.forall_mem_singleton.mpr rfl, ?_⟩
    rw [SessionWorld.run, tryRun, hstep]
    rfl

theorem sessions_perCall_visits :
    ∃ (final : SslServer (Option (SessionWorld Unit)) Unit Bytes) (world : SessionWorld Unit)
      (outputs : List Handled), final.handlers = some world ∧
      tryRunFrom (step welcoming passing) (initial (some (.initial () 0)) false) visits =
        some (final, outputs) ∧
      world.sessionIds = drawnIds SessionWorld.zeros 2 () := by
  have hids := (@sessions_perCall Unit Unit Bytes _ _ _ welcoming passing opensOnce_welcoming
    (initial (some (.initial () 0)) false) _ visits _ rfl () 0 rfl rfl).1
  exact ⟨_, _, _, rfl, rfl, hids⟩

end SslServer

end CuteHttpServer
