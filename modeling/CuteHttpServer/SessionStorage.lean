/-
Runs of the store that keeps the sessions in memory, beside a map whose items
run out.  The sessions of a run are on the heap when it starts.
-/
import CuteHttpServer.ExpiringMap
import CuteHttpServer.SessionCreation

namespace CuteHttpServer

open ByteString KeyedMap StepRun

/-- The calls of `MemorySessionStorage`, and what else changes what it does. -/
inductive StorageOp
  | save (ref : SessionRef)
  | update (ref : SessionRef)
  | load (sessionId : Bytes)
  | remove (sessionId : Bytes)
  | refresh (ref : SessionRef)
  | passTime (nanoseconds : Nat)
deriving DecidableEq

/-- The operation on the map. -/
def StorageOp.op : StorageOp → ExpiringMap.Op Bytes SessionRef ClockTime
  | .save ref => .save ref
  | .update ref => .update ref
  | .load sessionId => .load sessionId
  | .remove sessionId => .remove sessionId
  | .refresh ref => .renew ref
  | .passTime nanoseconds => .elapse nanoseconds

namespace SessionWorld

variable {ρ : Type}

/-- One call; a pointer to none of the objects is null, and not to be used. -/
def storageStep (world : SessionWorld ρ) : StorageOp → Option (SessionWorld ρ)
  | .save ref => if ref < world.heap.length then some (world.save ref) else none
  | .update ref => if ref < world.heap.length then some (world.update ref) else none
  | .load sessionId => some (world.load sessionId).2
  | .remove sessionId => some (world.destroySession sessionId)
  | .refresh ref =>
      if ref < world.heap.length then
        some (world.modify ref fun session => session.refresh world.clock)
      else none
  | .passTime nanoseconds => some { world with clock := world.clock + nanoseconds }

def storageRun (world : SessionWorld ρ) (ops : List StorageOp) : Option (SessionWorld ρ) :=
  tryRun storageStep world ops

section Abstraction

variable (world : SessionWorld ρ)

/-- The sessions as items: their ids, and how long a `Refresh` makes them last. -/
def items : ExpiringMap.Items Bytes SessionRef ClockTime where
  key ref := (world.heap[ref]?.map Session.sessionId).getD []
  lifetime ref := (world.heap[ref]?.map fun session => seconds session.maxAge).getD 0

def expires (ref : SessionRef) : ClockTime :=
  (world.heap[ref]?.map Session.expirationTime).getD 0

/-- The map before anything is stored. -/
def emptyMap : ExpiringMap.State Bytes SessionRef ClockTime where
  entries _ := none
  expires := world.expires
  now := world.clock

/-- The map that the store stands for. -/
def expiringMap : ExpiringMap.State Bytes SessionRef ClockTime where
  entries := world.sessions.lookup
  expires := world.expires
  now := world.clock

end Abstraction

/-- The map's step; a `Load` of the empty id is not for the map. -/
def mapStep (items : ExpiringMap.Items Bytes SessionRef ClockTime)
    (state : ExpiringMap.State Bytes SessionRef ClockTime) (op : StorageOp) :
    ExpiringMap.State Bytes SessionRef ClockTime :=
  if op = .load [] then state else state.step items op.op

/-- The map after the same calls. -/
def mapRun (start : SessionWorld ρ) (ops : List StorageOp) :
    ExpiringMap.State Bytes SessionRef ClockTime :=
  ops.foldl (mapStep start.items) start.emptyMap

section Steps

variable {world : SessionWorld ρ}

/-- A `Load` finds the entry that has not expired, and deletes one that has. -/
theorem load_cases (h : world.PointersValid) (sessionId : Bytes) :
    (world.load sessionId = (none, world) ∧
        (sessionId = [] ∨ world.sessions.lookup sessionId = none)) ∨
      ∃ ref session, sessionId ≠ [] ∧ world.sessions.lookup sessionId = some ref ∧
        world.heap[ref]? = some session ∧
        world.load sessionId =
          if session.isExpired world.clock then
            (none, { world with sessions := world.sessions.erase sessionId })
          else (some ref, world) := by
  by_cases hid : sessionId = []
  · exact Or.inl ⟨by rw [load, if_pos hid], Or.inl hid⟩
  · cases hlookup : world.sessions.lookup sessionId with
    | none => exact Or.inl ⟨by rw [load, if_neg hid, hlookup], Or.inr rfl⟩
    | some ref =>
        have hheap := List.getElem?_eq_getElem (h sessionId ref hlookup)
        refine Or.inr ⟨ref, _, hid, rfl, hheap, ?_⟩
        rw [load, if_neg hid, hlookup]
        simp only [hheap]

theorem expires_of_heap {ref : SessionRef} {session : Session}
    (h : world.heap[ref]? = some session) : world.expires ref = session.expirationTime := by
  simp [expires, h]

/-- Of an object that is there, being expired is what the map calls run out. -/
theorem isExpired_iff {ref : SessionRef} {session : Session}
    (h : world.heap[ref]? = some session) :
    session.isExpired world.clock = true ↔ world.expires ref < world.clock := by
  rw [Session.isExpired, decide_eq_true_eq, expires_of_heap h]

/-- What `Load` returns is what the map holds. -/
theorem load_eq_map (h : world.PointersValid) {sessionId : Bytes} (hid : sessionId ≠ []) :
    (world.load sessionId).1 = world.expiringMap.load sessionId := by
  rcases load_cases h sessionId with ⟨hload, hnone⟩ | ⟨ref, session, _, hlookup, hheap, hload⟩
  · rw [hload, ExpiringMap.State.load_of_none (hnone.resolve_left hid)]
  · have hentry : world.expiringMap.entries sessionId = some ref := hlookup
    rw [hload, ExpiringMap.State.load_of_some hentry]
    by_cases hexpired : session.isExpired world.clock = true
    · rw [if_pos hexpired]
      exact (if_pos ((isExpired_iff hheap).mp hexpired)).symm
    · rw [if_neg hexpired]
      exact (if_neg fun hout => hexpired ((isExpired_iff hheap).mpr hout)).symm

/-- It never returns an expired session. -/
theorem load_notExpired (h : world.PointersValid) {sessionId : Bytes} {ref : SessionRef}
    (hload : (world.load sessionId).1 = some ref) :
    ∃ session, world.heap[ref]? = some session ∧ session.isExpired world.clock = false := by
  rcases load_cases h sessionId with ⟨hnone, _⟩ | ⟨stored, session, _, _, hheap, hsome⟩
  · rw [hnone] at hload
    exact absurd hload.symm (Option.some_ne_none ref)
  · rw [hsome] at hload
    cases hexpired : session.isExpired world.clock with
    | true => simp [hexpired] at hload
    | false =>
        obtain rfl : stored = ref := by simpa [hexpired] using hload
        exact ⟨session, hheap, hexpired⟩

/-- And it changes nothing but to delete the entry it was asked for, expired. -/
theorem load_frame (h : world.PointersValid) (sessionId : Bytes) :
    (world.load sessionId).2 = world ∨
      ∃ ref session, world.sessions.lookup sessionId = some ref ∧
        world.heap[ref]? = some session ∧ session.isExpired world.clock = true ∧
        (world.load sessionId).2 =
          { world with sessions := world.sessions.erase sessionId } := by
  rcases load_cases h sessionId with ⟨hnone, _⟩ | ⟨ref, session, _, hstored, hheap, hsome⟩
  · exact Or.inl (by rw [hnone])
  · rw [hsome]
    cases hexpired : session.isExpired world.clock with
    | true => exact Or.inr ⟨ref, session, hstored, hheap, hexpired, rfl⟩
    | false => exact Or.inl rfl

/-- What one call does to the map, and what it leaves. -/
structure Follows (world next : SessionWorld ρ) (op : StorageOp) : Prop where
  items : next.items = world.items
  valid : next.PointersValid
  map : next.expiringMap = mapStep world.items world.expiringMap op

theorem save_follows (h : world.PointersValid) {ref : SessionRef} (href : ref < world.heap.length) :
    Follows world (world.save ref) (.save ref) := by
  have hheap := List.getElem?_eq_getElem href
  have hkey : world.items.key ref = world.heap[ref].sessionId := by simp [items, hheap]
  have hsave : world.save ref =
      { world with sessions := emplace world.sessions world.heap[ref].sessionId ref } := by
    rw [save, hheap]
  rw [hsave]
  refine ⟨rfl, hsave ▸ h.save ref, ?_⟩
  rw [mapStep, if_neg (by simp), StorageOp.op, ExpiringMap.State.step, hkey]
  cases hlookup : world.expiringMap.entries world.heap[ref].sessionId with
  | some stored =>
      have hmem := AList.lookup_isSome.mp (Option.isSome_of_eq_some hlookup)
      simp only [expiringMap, emplace, if_pos hmem]
  | none =>
      have hfree : world.heap[ref].sessionId ∉ world.sessions := AList.lookup_eq_none.mp hlookup
      have hentries := lookup_assign_eq world.sessions world.heap[ref].sessionId ref
      rw [assign] at hentries
      simp only [expiringMap, emplace, if_neg hfree, hentries]
      rfl

theorem update_follows (h : world.PointersValid) {ref : SessionRef}
    (href : ref < world.heap.length) :
    Follows world (world.update ref) (.update ref) := by
  have hheap := List.getElem?_eq_getElem href
  have hkey : world.items.key ref = world.heap[ref].sessionId := by simp [items, hheap]
  have hupdate : world.update ref =
      { world with sessions := assign world.sessions world.heap[ref].sessionId ref } := by
    rw [update, hheap]
  rw [hupdate]
  refine ⟨rfl, hupdate ▸ h.update ref, ?_⟩
  rw [mapStep, if_neg (by simp), StorageOp.op, ExpiringMap.State.step, hkey]
  simp only [expiringMap, lookup_assign_eq]
  rfl

/-- A deletion of one entry, which a `Remove` does, and a `Load` may. -/
theorem erase_map (sessionId : Bytes) :
    ({ world with sessions := world.sessions.erase sessionId } : SessionWorld ρ).expiringMap =
      { world.expiringMap with
        entries := Function.update world.expiringMap.entries sessionId none } := by
  simp only [expiringMap, lookup_erase_eq]
  rfl

theorem destroySession_follows (h : world.PointersValid) (sessionId : Bytes) :
    Follows world (world.destroySession sessionId) (.remove sessionId) := by
  refine ⟨rfl, h.destroySession sessionId, ?_⟩
  rw [destroySession, erase_map, mapStep, if_neg (by simp)]
  rfl

theorem load_follows (h : world.PointersValid) (sessionId : Bytes) :
    Follows world (world.load sessionId).2 (.load sessionId) := by
  rcases load_cases h sessionId with ⟨hload, hnone⟩ | ⟨ref, session, hid, hlookup, hheap, hload⟩
  · rw [hload]
    refine ⟨rfl, h, ?_⟩
    rcases hnone with rfl | hlookup
    · rfl
    · have hentry : world.expiringMap.entries sessionId = none := hlookup
      rw [mapStep, StorageOp.op, ExpiringMap.State.step, hentry, ite_self]
  · have hentry : world.expiringMap.entries sessionId = some ref := hlookup
    have hmap : mapStep world.items world.expiringMap (.load sessionId) =
        if world.expires ref < world.clock then
          { world.expiringMap with
            entries := Function.update world.expiringMap.entries sessionId none }
        else world.expiringMap := by
      rw [mapStep, if_neg (by simpa using hid), StorageOp.op, ExpiringMap.State.step, hentry]
      rfl
    rw [hload]
    by_cases hexpired : session.isExpired world.clock = true
    · rw [if_pos hexpired]
      refine ⟨rfl, h.destroySession sessionId, ?_⟩
      rw [erase_map, hmap, if_pos ((isExpired_iff hheap).mp hexpired)]
    · rw [if_neg hexpired]
      refine ⟨rfl, h, ?_⟩
      rw [hmap, if_neg fun hout => hexpired ((isExpired_iff hheap).mpr hout)]

/-- What a change of one object leaves alone in it, it leaves alone in all. -/
theorem modify_map {α : Type} (ref : SessionRef) {change : Session → Session}
    {field : Session → α} (h : ∀ session, field (change session) = field session)
    (other : SessionRef) :
    (world.modify ref change).heap[other]?.map field = world.heap[other]?.map field := by
  simp only [modify, List.getElem?_modify]
  cases world.heap[other]? with
  | none => rfl
  | some session =>
      by_cases hsame : ref = other
      · simp [hsame, h]
      · simp [hsame]

theorem refresh_follows (h : world.PointersValid) {ref : SessionRef}
    (href : ref < world.heap.length) :
    Follows world (world.modify ref fun session => session.refresh world.clock)
      (.refresh ref) := by
  have hheap := List.getElem?_eq_getElem href
  have hitems : (world.modify ref fun session => session.refresh world.clock).items =
      world.items := by
    simp only [items]
    congr 1
    · funext other
      apply congrArg (Option.getD · [])
      apply modify_map
      exact fun _ => rfl
    · funext other
      apply congrArg (Option.getD · 0)
      apply modify_map
      exact fun _ => rfl
  have hexpires : (world.modify ref fun session => session.refresh world.clock).expires =
      Function.update world.expires ref (world.clock + world.items.lifetime ref) := by
    funext other
    by_cases hsame : other = ref
    · rw [hsame, Function.update_self]
      simp [expires, items, modify, hheap, Session.refresh]
    · rw [Function.update_of_ne hsame]
      simp [expires, modify, Ne.symm hsame]
  refine ⟨hitems, h.modify ref _, ?_⟩
  rw [mapStep, if_neg (by simp), StorageOp.op, ExpiringMap.State.step]
  simp only [expiringMap, hexpires]
  rfl

theorem storageStep_follows (h : world.PointersValid) {op : StorageOp} {next : SessionWorld ρ}
    (hstep : world.storageStep op = some next) : Follows world next op := by
  cases op with
  | save ref =>
      obtain ⟨href, hnext⟩ := Option.ite_none_right_eq_some.mp hstep
      exact Option.some.inj hnext ▸ save_follows h href
  | update ref =>
      obtain ⟨href, hnext⟩ := Option.ite_none_right_eq_some.mp hstep
      exact Option.some.inj hnext ▸ update_follows h href
  | load sessionId =>
      obtain rfl := Option.some.inj hstep
      exact load_follows h sessionId
  | remove sessionId =>
      obtain rfl := Option.some.inj hstep
      exact destroySession_follows h sessionId
  | refresh ref =>
      obtain ⟨href, hnext⟩ := Option.ite_none_right_eq_some.mp hstep
      exact Option.some.inj hnext ▸ refresh_follows h href
  | passTime nanoseconds =>
      obtain rfl := Option.some.inj hstep
      exact ⟨rfl, h, rfl⟩

/-- A call touches no entry but the one it is about. -/
theorem storageStep_frame (h : world.PointersValid) {op : StorageOp} {next : SessionWorld ρ}
    (hstep : world.storageStep op = some next) {sessionId : Bytes}
    (hkey : op.op.key? world.items ≠ some sessionId) :
    next.sessions.lookup sessionId = world.sessions.lookup sessionId := by
  have hnext := (storageStep_follows h hstep).map
  have hentry := congrArg (fun state => state.entries sessionId) hnext
  rw [mapStep] at hentry
  by_cases hop : op = .load []
  · rw [if_pos hop] at hentry
    exact hentry
  · rw [if_neg hop, ExpiringMap.State.step_entries_of_ne _ _ hkey] at hentry
    exact hentry

/-- The store after a run stands for the map after the same calls. -/
theorem storageRun_map {start final : SessionWorld ρ} (hempty : start.sessions = ∅)
    {ops : List StorageOp} (hrun : start.storageRun ops = some final) :
    final.items = start.items ∧ final.PointersValid ∧ final.expiringMap = mapRun start ops := by
  have hstart : start.expiringMap = start.emptyMap := by
    simp only [expiringMap, hempty, AList.lookup_empty]
    rfl
  apply tryRun_simulation storageStep (mapStep start.items)
    (fun world state => world.items = start.items ∧ world.PointersValid ∧ world.expiringMap = state)
    ?_ hrun
  · refine ⟨rfl, ?_, hstart⟩
    intro sessionId ref hstored
    rw [hempty, AList.lookup_empty] at hstored
    exact absurd hstored.symm (Option.some_ne_none ref)
  · rintro world _ op next ⟨hitems, hvalid, rfl⟩ hstep
    have hnext := storageStep_follows hvalid hstep
    exact ⟨hnext.items.trans hitems, hnext.valid, hitems ▸ hnext.map⟩

theorem mapStep_keyed {items : ExpiringMap.Items Bytes SessionRef ClockTime}
    {state : ExpiringMap.State Bytes SessionRef ClockTime} (h : state.Keyed items)
    (op : StorageOp) : (mapStep items state op).Keyed items := by
  rw [mapStep]
  by_cases hop : op = .load []
  · rw [if_pos hop]
    exact h
  · rw [if_neg hop]
    exact h.step items op.op

theorem mapRun_keyed (start : SessionWorld ρ) (ops : List StorageOp) :
    (mapRun start ops).Keyed start.items := by
  apply List.foldlRecOn ops (mapStep start.items)
  · exact fun _ item hstored => absurd hstored.symm (Option.some_ne_none item)
  · exact fun state h op _ => mapStep_keyed h op

end Steps

/-- The store is the map, its entries stand under their own ids, and no call on
one id touches another. -/
structure RefinesExpiringMap (start : SessionWorld ρ) (ops : List StorageOp)
    (world : SessionWorld ρ) : Prop where
  keyed : ∀ sessionId ref, world.sessions.lookup sessionId = some ref →
    HasId ref sessionId world
  entries : ∀ sessionId, world.sessions.lookup sessionId = (mapRun start ops).entries sessionId
  load : ∀ sessionId, sessionId ≠ [] →
    (world.load sessionId).1 = (mapRun start ops).load sessionId
  notExpired : ∀ sessionId ref, (world.load sessionId).1 = some ref →
    ∃ session, world.heap[ref]? = some session ∧ session.isExpired world.clock = false
  loadFrame : ∀ sessionId, (world.load sessionId).2 = world ∨
    ∃ ref session, world.sessions.lookup sessionId = some ref ∧
      world.heap[ref]? = some session ∧ session.isExpired world.clock = true ∧
      (world.load sessionId).2 = { world with sessions := world.sessions.erase sessionId }
  frame : ∀ op next, world.storageStep op = some next → ∀ sessionId,
    op.op.key? world.items ≠ some sessionId →
    next.sessions.lookup sessionId = world.sessions.lookup sessionId

/-- After every run of calls the store is the map after the same calls. -/
theorem memorySessionStorage_refines {start final : SessionWorld ρ}
    (hempty : start.sessions = ∅) {ops : List StorageOp}
    (hrun : start.storageRun ops = some final) : RefinesExpiringMap start ops final := by
  obtain ⟨hitems, hvalid, hmap⟩ := storageRun_map hempty hrun
  have hentries : ∀ sessionId,
      final.sessions.lookup sessionId = (mapRun start ops).entries sessionId :=
    fun sessionId => congrArg (fun state => state.entries sessionId) hmap
  constructor
  case keyed =>
    intro sessionId ref hstored
    have hkey := mapRun_keyed start ops sessionId ref ((hentries sessionId).symm.trans hstored)
    have hheap := List.getElem?_eq_getElem (hvalid sessionId ref hstored)
    refine ⟨_, hheap, ?_⟩
    rw [← hitems] at hkey
    simpa [items, hheap] using hkey
  case entries => exact hentries
  case load =>
    intro sessionId hid
    rw [load_eq_map hvalid hid, hmap]
  case notExpired => exact fun _ _ hload => load_notExpired hvalid hload
  case loadFrame => exact load_frame hvalid
  case frame => exact fun _ _ hstep _ hkey => storageStep_frame hvalid hstep hkey

/-- Two sessions with one id, the first of which runs out after a second. -/
def twins : SessionWorld Unit :=
  { initial () 0 with
    heap := [Session.new (ascii "a") true 1 0 1, Session.new (ascii "a") true 1 0 9] }

/-- The first one still blocks its twin when it has run out, until it is loaded. -/
theorem memorySessionStorage_refines_twins :
    let ops : List StorageOp := [.save 0, .passTime 2000000000, .save 1, .load (ascii "a"),
      .save 1, .refresh 1]
    ∃ final, twins.storageRun ops = some final ∧ RefinesExpiringMap twins ops final ∧
      (final.load (ascii "a")).1 = some 1 :=
  ⟨_, rfl, memorySessionStorage_refines rfl rfl, by decide +kernel⟩

end SessionWorld

end CuteHttpServer
