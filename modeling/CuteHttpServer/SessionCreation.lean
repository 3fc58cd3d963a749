/-
What `GetSession` leaves behind when it makes a session: the object, its entry
in the store, and the cookie that goes out with the response.
-/
import CuteHttpServer.CookieHeader
import CuteHttpServer.ResponseText
import CuteHttpServer.SessionSafety

namespace CuteHttpServer

open ByteString DelimitedText KeyedMap StepRun

abbrev setCookieName : Bytes := ascii "Set-Cookie"

/-- The first pair of a `Set-Cookie` value. -/
def cookiePair (value : Bytes) : Option (Bytes × Bytes) :=
  let pair := value.takeWhile (· ≠ 59)
  match pair.idxOf? 61 with
  | some position => some (pair.take position, pair.drop (position + 1))
  | none => none

/-- A `Set-Cookie` value that gives the client this session id. -/
def NamesSession (sessionId value : Bytes) : Prop :=
  cookiePair value = some (Cookie.sessionidName, sessionId)

namespace HttpResponse

/-- Among the header lines of the response, in whatever order they are written,
is a `Set-Cookie` with this session id. -/
def SendsSessionId (order : IterationOrder Bytes Bytes) (response : HttpResponse)
    (sessionId : Bytes) : Prop :=
  ∃ written : List (Bytes × Bytes), response.getResponse order =
      withCrlf (response.statusLine :: written.map fieldLine) ++
        CR :: LF :: response.responseBody ∧
    written.Perm (response.connectionField :: fields response.responseHeaders) ∧
    ∃ value, (setCookieName, value) ∈ written ∧ NamesSession sessionId value

theorem sendsSessionId_iff (order : IterationOrder Bytes Bytes) (response : HttpResponse)
    (sessionId : Bytes) :
    response.SendsSessionId order sessionId ↔
      ∃ value, response.responseHeaders.lookup setCookieName = some value ∧
        NamesSession sessionId value := by
  have hconnection : ∀ value, (setCookieName, value) ≠ response.connectionField := by
    intro value hsame
    have hname : setCookieName ≠ connectionName := by decide +kernel
    exact hname (congrArg Prod.fst hsame)
  have hmem : ∀ {written : List (Bytes × Bytes)} {value : Bytes},
      written.Perm (response.connectionField :: fields response.responseHeaders) →
        ((setCookieName, value) ∈ written ↔
          response.responseHeaders.lookup setCookieName = some value) := by
    intro written value hperm
    rw [hperm.mem_iff, List.mem_cons, or_iff_right (hconnection value), mem_fields_iff]
  constructor
  · rintro ⟨written, _, hperm, value, hvalue, hnames⟩
    exact ⟨value, (hmem hperm).mp hvalue, hnames⟩
  · rintro ⟨value, hvalue, hnames⟩
    have hperm := response.writtenFields_perm order
    exact ⟨response.writtenFields order, response.getResponse_eq order, hperm, value,
      (hmem hperm).mpr hvalue, hnames⟩

end HttpResponse

namespace SessionManager

variable {ρ : Type} (source : RandomSource ρ)

theorem mem_hexDigits {count : Nat} {generator : ρ} {c : Byte}
    (h : c ∈ (hexDigits source count generator).1) : ∃ n, c = hexDigit n := by
  induction count generalizing generator with
  | zero => exact absurd h List.not_mem_nil
  | succ count ih =>
      rcases List.mem_cons.mp h with hfirst | hlater
      · exact ⟨_, hfirst⟩
      · exact ih hlater

/-- The cookie that the manager sets names the session, if no other is set. -/
theorem namesSession_generated (generator : ρ) :
    NamesSession (generateSessionId source generator).1
      (ascii "sessionid=" ++ (generateSessionId source generator).1 ++
        ascii "; Path=/; HttpOnly") := by
  have hdigit : ∀ n, hexDigit n ≠ 59 := by decide
  have hid : 59 ∉ (generateSessionId source generator).1 := by
    intro hmem
    obtain ⟨n, hn⟩ := mem_hexDigits source hmem
    exact hdigit n hn.symm
  generalize (generateSessionId source generator).1 = sessionId at hid
  have hfield : ascii "sessionid=" = Cookie.sessionidName ++ [61] := by decide +kernel
  have hrest : ascii "; Path=/; HttpOnly" = 59 :: ascii " Path=/; HttpOnly" := by
    decide +kernel
  have hname : (61 : Byte) ∉ Cookie.sessionidName := by decide +kernel
  have hpair : 59 ∉ Cookie.sessionidName ++ 61 :: sessionId := by
    have hfree : (59 : Byte) ∉ Cookie.sessionidName := by decide +kernel
    simp [hfree, hid]
  rw [NamesSession, cookiePair, hfield, hrest, List.append_assoc, List.append_assoc,
    List.singleton_append, ← List.cons_append, ← List.append_assoc, takeWhile_ne hpair]
  simp only [idxOf?_append_cons hname, List.take_left, drop_append_cons]

end SessionManager

namespace SessionWorld

variable {ρ : Type} (source : RandomSource ρ)

/-- Every pointer in the store points to an object. -/
def PointersValid (world : SessionWorld ρ) : Prop :=
  ∀ sessionId ref, world.sessions.lookup sessionId = some ref → ref < world.heap.length

/-- The object that `GetSession` makes. -/
def newSession (world : SessionWorld ρ) : Session :=
  (Session.new (SessionManager.generateSessionId source world.randomGenerator).1 true
    Session.defaultMaxAge world.clock 0).refresh world.clock

theorem createSession_eq (world : SessionWorld ρ) (response : HttpResponse) :
    world.createSession source response =
      ({ heap := world.heap ++ [world.newSession source]
         sessions := emplace world.sessions
          (SessionManager.generateSessionId source world.randomGenerator).1 world.heap.length
         randomGenerator :=
          (SessionManager.generateSessionId source world.randomGenerator).2
         clock := world.clock },
        world.heap.length,
        SessionManager.setSessionCookie
          (SessionManager.generateSessionId source world.randomGenerator).1 response) := by
  simp [createSession, addSession, save, newSession, Session.new, Session.refresh]

section Reached

variable {world next : SessionWorld ρ}

theorem PointersValid.modify (h : world.PointersValid) (ref : SessionRef)
    (change : Session → Session) : (world.modify ref change).PointersValid := by
  intro sessionId stored hstored
  rw [SessionWorld.modify, List.length_modify]
  exact h sessionId stored hstored

theorem PointersValid.append {created : List Session} (h : world.PointersValid) :
    PointersValid { world with heap := world.heap ++ created } := by
  intro sessionId stored hstored
  rw [List.length_append]
  exact Nat.lt_add_right _ (h sessionId stored hstored)

theorem PointersValid.save (h : world.PointersValid) (ref : SessionRef) :
    (world.save ref).PointersValid := by
  unfold SessionWorld.save
  cases hheap : world.heap[ref]? with
  | none => exact h
  | some session =>
      have hvalid : ref < world.heap.length := (List.getElem?_eq_some_iff.mp hheap).1
      exact forall_lookup_emplace h hvalid

theorem PointersValid.update (h : world.PointersValid) (ref : SessionRef) :
    (world.update ref).PointersValid := by
  unfold SessionWorld.update
  cases hheap : world.heap[ref]? with
  | none => exact h
  | some session =>
      have hvalid : ref < world.heap.length := (List.getElem?_eq_some_iff.mp hheap).1
      exact forall_lookup_assign h hvalid

theorem PointersValid.destroySession (h : world.PointersValid) (sessionId : Bytes) :
    (world.destroySession sessionId).PointersValid :=
  forall_lookup_erase h sessionId

theorem PointersValid.step (h : world.PointersValid) {op : SessionOp}
    (hstep : world.step source op = some next) : next.PointersValid := by
  cases op with
  | getSession request response =>
      simp only [SessionWorld.step, getSession_eq, Option.map_eq_some_iff,
        Option.ite_none_left_eq_some, Option.some.injEq] at hstep
      obtain ⟨result, ⟨_, rfl⟩, rfl⟩ := hstep
      rw [createSession_eq, PointersValid, List.length_append, List.length_singleton]
      have hold : ∀ sessionId stored, world.sessions.lookup sessionId = some stored →
          stored < world.heap.length + 1 :=
        fun sessionId stored hstored => Nat.lt_succ_of_lt (h sessionId stored hstored)
      exact forall_lookup_emplace hold (Nat.lt_succ_self _)
  | addSession ref =>
      obtain rfl := Option.some.inj hstep
      exact h.save ref
  | updateSession ref =>
      obtain rfl := Option.some.inj hstep
      exact h.update ref
  | destroySession other =>
      obtain rfl := Option.some.inj hstep
      exact h.destroySession other
  | construct other sessionManager maxAge indeterminate =>
      obtain rfl := Option.some.inj hstep
      exact h.append
  | setValue ref key value =>
      obtain rfl := Option.some.inj hstep
      rcases world.setValue_cases ref key value with hvalue | hvalue
      · exact hvalue ▸ h.modify ref _
      · exact hvalue ▸ (h.modify ref _).update ref
  | remove ref key =>
      obtain rfl := Option.some.inj hstep
      exact h.modify ref _
  | clear ref =>
      obtain rfl := Option.some.inj hstep
      exact h.modify ref _
  | refresh ref =>
      obtain rfl := Option.some.inj hstep
      exact h.modify ref _
  | setManager ref sessionManager =>
      obtain rfl := Option.some.inj hstep
      exact h.modify ref _
  | passTime nanoseconds =>
      obtain rfl := Option.some.inj hstep
      exact h

/-- The store of a manager never holds a pointer to nothing. -/
theorem pointersValid_run (generator : ρ) (now : ClockTime) {ops : List SessionOp}
    (hrun : (initial generator now).run source ops = some next) : next.PointersValid := by
  refine tryRun_invariant (SessionWorld.step source) (fun _ => True) PointersValid ?_
    (fun _ _ => trivial) hrun ?_
  · exact fun _ _ _ _ hstep h => h.step source hstep
  · intro sessionId ref hlookup
    exact absurd hlookup (by simp [initial])

end Reached

/-- The session behind `ref` is the one that is loaded for its id, the sessions
stored before are all there, and the response sends the session's id. -/
def NewSessionAgrees (order : IterationOrder Bytes Bytes) (world made : SessionWorld ρ)
    (ref : SessionRef) (response : HttpResponse) : Prop :=
  ∃ session, made.heap[ref]? = some session ∧
    (made.load session.sessionId).1 = some ref ∧
    (∀ sessionId stored, world.sessions.lookup sessionId = some stored →
      made.sessions.lookup sessionId = some stored ∧
        made.heap[stored]? = world.heap[stored]?) ∧
    response.SendsSessionId order session.sessionId

/-- The new session is found under its id exactly if the id was free. -/
theorem load_createSession_iff {world : SessionWorld ρ} (hvalid : world.PointersValid)
    (response : HttpResponse) :
    ((world.createSession source response).1.load
        (SessionManager.generateSessionId source world.randomGenerator).1).1 =
        some world.heap.length ↔
      (SessionManager.generateSessionId source world.randomGenerator).1 ∉
        world.sessions := by
  rw [createSession_eq]
  set sessionId := (SessionManager.generateSessionId source world.randomGenerator).1
    with hsessionId
  constructor
  · intro hload hmem
    obtain ⟨stored, hstored⟩ :=
      Option.isSome_iff_exists.mp (AList.lookup_isSome.mpr hmem)
    have hfound := (load_some (Prod.ext hload rfl)).2
    rw [lookup_emplace, hstored, Option.some_or, Option.some.injEq] at hfound
    exact (hvalid sessionId stored hstored).ne hfound
  · intro hfree
    have hne : sessionId ≠ [] := generateSessionId_ne_nil source world.randomGenerator
    have hexpired : (world.newSession source).isExpired world.clock = false := by
      apply refresh_not_expired
      exact Int.natCast_nonneg 3600
    have hlookup : (emplace world.sessions sessionId world.heap.length).lookup sessionId =
        some world.heap.length := by
      rw [lookup_emplace, AList.lookup_eq_none.mpr hfree, if_pos rfl, Option.none_or]
    have hheap : (world.heap ++ [world.newSession source])[world.heap.length]? =
        some (world.newSession source) := List.getElem?_concat_length
    have hload : (⟨world.heap ++ [world.newSession source],
        emplace world.sessions sessionId world.heap.length,
        (SessionManager.generateSessionId source world.randomGenerator).2,
        world.clock⟩ : SessionWorld ρ).load sessionId = _ :=
      load_stored hne hlookup hheap hexpired
    exact congrArg Prod.fst hload

/-- The cookie goes out exactly if the response had none yet, or one that names
the new session already. -/
theorem sendsSessionId_setSessionCookie_iff (order : IterationOrder Bytes Bytes)
    (generator : ρ) (response : HttpResponse) :
    (SessionManager.setSessionCookie (SessionManager.generateSessionId source generator).1
        response).SendsSessionId order
          (SessionManager.generateSessionId source generator).1 ↔
      ∀ value, response.responseHeaders.lookup setCookieName = some value →
        NamesSession (SessionManager.generateSessionId source generator).1 value := by
  have hnames := SessionManager.namesSession_generated source generator
  rw [HttpResponse.sendsSessionId_iff]
  simp only [SessionManager.setSessionCookie, HttpResponse.addHeader, lookup_emplace, if_true]
  cases response.responseHeaders.lookup setCookieName with
  | none => simpa using hnames
  | some value => simp

/-- Object, store and cookie agree about a new session exactly if its id was
free in the store and no other cookie was set before. -/
theorem newSession_agrees_iff (order : IterationOrder Bytes Bytes)
    {world made : SessionWorld ρ} (hvalid : world.PointersValid) {ref : SessionRef}
    {request : HttpRequest} {response response' : HttpResponse}
    (hget : world.getSession source request response = some (made, ref, response')) :
    NewSessionAgrees order world made ref response' ↔
      (SessionManager.generateSessionId source world.randomGenerator).1 ∉ world.sessions ∧
        ∀ value, response.responseHeaders.lookup setCookieName = some value →
          NamesSession (SessionManager.generateSessionId source world.randomGenerator).1
            value := by
  rw [getSession_eq, Option.ite_none_left_eq_some, Option.some.injEq] at hget
  have hcreated := createSession_eq source world response
  have hload := load_createSession_iff source hvalid response
  rw [hget.2] at hcreated hload
  obtain ⟨rfl, hpair⟩ := Prod.mk.inj hcreated
  obtain ⟨rfl, rfl⟩ := Prod.mk.inj hpair
  rw [← hload, ← sendsSessionId_setSessionCookie_iff source order]
  constructor
  · rintro ⟨session, hsession, hfound, _, hsends⟩
    rw [List.getElem?_concat_length, Option.some.injEq] at hsession
    subst hsession
    exact ⟨hfound, hsends⟩
  · rintro ⟨hfound, hsends⟩
    refine ⟨_, List.getElem?_concat_length, hfound, ?_, hsends⟩
    intro sessionId stored hstored
    refine ⟨?_, List.getElem?_append_left (hvalid sessionId stored hstored)⟩
    rw [lookup_emplace, hstored, Option.some_or]

/-- A visitor's first session, on a response without cookies. -/
theorem newSession_agrees_first : ∃ made ref response',
    (initial () 0).getSession zeros (visitor []) (HttpResponse.new false) =
        some (made, ref, response') ∧
      NewSessionAgrees .byEntry (initial () 0) made ref response' := by
  have hget : (initial () 0).getSession zeros (visitor []) (HttpResponse.new false) =
      some ((initial () 0).createSession zeros (HttpResponse.new false)) := rfl
  have hrun : (initial () 0).run zeros [] = some (initial () 0) := rfl
  have hvalid : (initial () 0).PointersValid := pointersValid_run zeros () 0 hrun
  refine ⟨_, _, _, hget, (newSession_agrees_iff zeros .byEntry hvalid hget).mpr ⟨?_, ?_⟩⟩
  · exact AList.notMem_empty _
  · intro value hvalue
    exact absurd hvalue (by simp [HttpResponse.new])

/-- A response to which the handler has added a cookie of its own. -/
def themed : HttpResponse :=
  (HttpResponse.new false).addHeader setCookieName (ascii "theme=dark")

/-- The id of the new session is not sent. -/
theorem not_newSession_agrees_themed :
    ¬ ∀ made ref response',
      (initial () 0).getSession zeros (visitor []) themed = some (made, ref, response') →
        NewSessionAgrees .byEntry (initial () 0) made ref response' := by
  intro h
  obtain ⟨session, _, _, _, hsends⟩ := h _ _ _ rfl
  obtain ⟨value, hvalue, hnames⟩ := (HttpResponse.sendsSessionId_iff _ _ _).mp hsends
  have htheme : (SessionManager.setSessionCookie zeroId themed).responseHeaders.lookup
      setCookieName = some (ascii "theme=dark") := by decide +kernel
  obtain rfl : ascii "theme=dark" = value := Option.some.inj (htheme.symm.trans hvalue)
  have hother : (cookiePair (ascii "theme=dark")).map Prod.fst ≠
      some Cookie.sessionidName := by decide +kernel
  rw [hnames] at hother
  exact hother rfl

end SessionWorld

end CuteHttpServer
