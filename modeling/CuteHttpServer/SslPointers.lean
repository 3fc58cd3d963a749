/-
`SetSslConfig` in a run of the server: which context a TLS session points to,
and whether it is still there.  The server owns the last context that was made;
making one destroys the one before it.
-/
import CuteHttpServer.RequestDelivery
import CuteHttpServer.SslConnections
import CuteHttpServer.SslContext

namespace CuteHttpServer

open ByteString KeyedMap StepRun

/-- The contexts are numbered as they are made. -/
abbrev ContextRef := Nat

/-- The server with all contexts that it has made, and the `ssl_context_` of
each TLS session. -/
structure TlsServer (σ T B C : Type) where
  ssl : SslServer σ T B
  contexts : List (SslContext C)
  pointers : Map ConnectionId (Option ContextRef)

inductive TlsEvent
  | setSslConfig (config : SslConfig)
  | event (event : SslEvent)

namespace TlsServer

variable {σ T B C : Type} [Buffer B] (openSsl : OpenSsl C) (server : HttpServer σ)
  (methods : SslMethods T B)

def initial (handlers : σ) (useSsl : Bool) : TlsServer σ T B C where
  ssl := SslServer.initial handlers useSsl
  contexts := []
  pointers := ∅

/-- `ssl_context_.get()`. -/
def sslContext (state : TlsServer σ T B C) : Option ContextRef :=
  if state.contexts = [] then none else some (state.contexts.length - 1)

/-- `SetSslConfig`.  Without the flag it does nothing; when `Init` fails, the
program ends, which is the `none` here. -/
def setSslConfig (state : TlsServer σ T B C) (config : SslConfig) :
    Option (TlsServer σ T B C) :=
  if state.ssl.useSsl then
    let made := (SslContext.new config).init openSsl
    if made.1 then some { state with contexts := state.contexts ++ [made.2] } else none
  else some state

/-- What an event does to the pointers: `OnConnection` gives a new session the
context that there is. -/
def pointersAfter (state : TlsServer σ T B C) :
    SslEvent → Map ConnectionId (Option ContextRef)
  | .connected conn _ =>
      if state.ssl.useSsl then assign state.pointers conn state.sslContext else state.pointers
  | .disconnected conn =>
      if state.ssl.useSsl then state.pointers.erase conn else state.pointers
  | _ => state.pointers

def step (state : TlsServer σ T B C) : TlsEvent → Option (TlsServer σ T B C)
  | .setSslConfig config => state.setSslConfig openSsl config
  | .event event =>
      (state.ssl.step server methods event).map fun handled =>
        { state with ssl := handled.1, pointers := state.pointersAfter event }

def run (state : TlsServer σ T B C) (events : List TlsEvent) : Option (TlsServer σ T B C) :=
  tryRun (step openSsl server methods) state events

end TlsServer

/-- The flag after some events. -/
def flagAfter (useSsl : Bool) : List TlsEvent → Bool
  | [] => useSsl
  | .event (.enableSsl enable) :: rest => flagAfter enable rest
  | _ :: rest => flagAfter useSsl rest

/-- The configurations that are set while the flag is on. -/
def effectiveConfigs (useSsl : Bool) : List TlsEvent → List SslConfig
  | [] => []
  | .setSslConfig config :: rest =>
      if useSsl then config :: effectiveConfigs useSsl rest else effectiveConfigs useSsl rest
  | .event (.enableSsl enable) :: rest => effectiveConfigs enable rest
  | .event _ :: rest => effectiveConfigs useSsl rest

namespace TlsServer

variable {σ T B C : Type} [Buffer B] {openSsl : OpenSsl C} {server : HttpServer σ}
  {methods : SslMethods T B} {state next final : TlsServer σ T B C}

/-- An event other than `EnableSsl` leaves the flag. -/
theorem useSsl_step {event : SslEvent} {next : SslServer σ T B} {handled : Handled}
    {state : SslServer σ T B}
    (hstep : state.step server methods event = some (next, handled)) :
    next.useSsl = match event with
      | .enableSsl enable => enable
      | _ => state.useSsl := by
  cases event with
  | enableSsl enable =>
      obtain ⟨rfl, _⟩ := Prod.mk.inj (Option.some.inj hstep)
      rfl
  | connected conn indeterminate =>
      obtain ⟨_, hsome⟩ := Option.ite_none_left_eq_some.mp hstep
      obtain ⟨rfl, _⟩ := Prod.mk.inj (Option.some.inj hsome)
      rfl
  | disconnected conn =>
      obtain ⟨_, hsome⟩ := Option.ite_none_right_eq_some.mp hstep
      obtain ⟨rfl, _⟩ := Prod.mk.inj (Option.some.inj hsome)
      rfl
  | message conn arrival =>
      obtain ⟨connection, hlookup, hhandled⟩ := Option.map_eq_some_iff.mp hstep
      have hmem := AList.lookup_isSome.mp (Option.isSome_of_eq_some hlookup)
      have hkeeps := SslServer.onMessage_keepsTable server methods hmem
        ⟨connection.context, Buffer.append connection.buffer arrival.bytes⟩ .socket arrival.time
      rw [hhandled] at hkeeps
      exact hkeeps.useSsl
  | decrypted conn time =>
      obtain ⟨_, hsome⟩ := Option.ite_none_right_eq_some.mp hstep
      obtain ⟨connection, hlookup, hhandled⟩ := Option.map_eq_some_iff.mp hsome
      have hmem := AList.lookup_isSome.mp (Option.isSome_of_eq_some hlookup)
      have hkeeps := SslServer.onMessage_keepsTable server methods hmem connection .decrypted time
      rw [hhandled] at hkeeps
      exact hkeeps.useSsl

/-- A connection stays until it is disconnected. -/
theorem connections_step {event : SslEvent} {next : SslServer σ T B} {handled : Handled}
    {state : SslServer σ T B} {conn : ConnectionId} (hevent : event ≠ .disconnected conn)
    (hstep : state.step server methods event = some (next, handled))
    (hconn : conn ∈ state.connections) : conn ∈ next.connections := by
  cases event with
  | enableSsl enable =>
      obtain ⟨rfl, _⟩ := Prod.mk.inj (Option.some.inj hstep)
      exact hconn
  | connected other indeterminate =>
      obtain ⟨_, hsome⟩ := Option.ite_none_left_eq_some.mp hstep
      obtain ⟨rfl, _⟩ := Prod.mk.inj (Option.some.inj hsome)
      exact (mem_assign _ _ _ _).mpr (Or.inr hconn)
  | disconnected other =>
      obtain ⟨_, hsome⟩ := Option.ite_none_right_eq_some.mp hstep
      obtain ⟨rfl, _⟩ := Prod.mk.inj (Option.some.inj hsome)
      refine AList.mem_erase.mpr ⟨?_, hconn⟩
      rintro rfl
      exact hevent rfl
  | message other arrival =>
      obtain ⟨connection, hlookup, hhandled⟩ := Option.map_eq_some_iff.mp hstep
      have hmem := AList.lookup_isSome.mp (Option.isSome_of_eq_some hlookup)
      have hkeeps := SslServer.onMessage_keepsTable server methods hmem
        ⟨connection.context, Buffer.append connection.buffer arrival.bytes⟩ .socket arrival.time
      rw [hhandled] at hkeeps
      exact (hkeeps.connections conn).mpr hconn
  | decrypted other time =>
      obtain ⟨_, hsome⟩ := Option.ite_none_right_eq_some.mp hstep
      obtain ⟨connection, hlookup, hhandled⟩ := Option.map_eq_some_iff.mp hsome
      have hmem := AList.lookup_isSome.mp (Option.isSome_of_eq_some hlookup)
      have hkeeps := SslServer.onMessage_keepsTable server methods hmem connection .decrypted time
      rw [hhandled] at hkeeps
      exact (hkeeps.connections conn).mpr hconn

omit [Buffer B] in
/-- All that a call of `SetSslConfig` that returns can do. -/
theorem setSslConfig_cases {config : SslConfig}
    (h : state.setSslConfig openSsl config = some next) :
    (state.ssl.useSsl = false ∧ next = state) ∨
      (state.ssl.useSsl = true ∧
        ∃ context, (SslContext.new config).init openSsl = (true, context) ∧
          context.sslConfig = config ∧
          next = { state with contexts := state.contexts ++ [context] }) := by
  unfold setSslConfig at h
  cases hflag : state.ssl.useSsl with
  | false =>
      rw [hflag, if_neg Bool.false_ne_true, Option.some.injEq] at h
      exact Or.inl ⟨rfl, h.symm⟩
  | true =>
      rw [hflag, if_pos rfl] at h
      obtain ⟨hmade, hnext⟩ := Option.ite_none_right_eq_some.mp h
      obtain ⟨hsome, hcontext⟩ := @SslContext.init_eq C openSsl config
      obtain ⟨native, hnative⟩ := Option.isSome_iff_exists.mp (hsome.symm.trans hmade)
      have hconfig := congrArg SslContext.sslConfig (hcontext native hnative)
      exact Or.inr ⟨rfl, _, Prod.ext hmade rfl, hconfig, (Option.some.inj hnext).symm⟩

/-- What a run makes of the flag and the contexts. -/
theorem run_contexts {events : List TlsEvent}
    (hrun : state.run openSsl server methods events = some final) :
    final.ssl.useSsl = flagAfter state.ssl.useSsl events ∧
      ∃ made, final.contexts = state.contexts ++ made ∧
        made.map SslContext.sslConfig = effectiveConfigs state.ssl.useSsl events ∧
        ∀ context ∈ made, (SslContext.new context.sslConfig).init openSsl = (true, context) := by
  induction events generalizing state with
  | nil =>
      obtain rfl : state = final := Option.some.inj hrun
      exact ⟨rfl, [], (List.append_nil _).symm, rfl, nofun⟩
  | cons event rest ih =>
      obtain ⟨next, hstep, hrest⟩ := tryRun_cons_eq_some hrun
      obtain ⟨hflag, made, hmade, hconfigs, hinit⟩ := ih hrest
      cases event with
      | setSslConfig config =>
          rcases setSslConfig_cases hstep with ⟨hoff, rfl⟩ | ⟨hon, context, hcontext, hconfig, rfl⟩
          · refine ⟨hflag, made, hmade, ?_, hinit⟩
            rw [effectiveConfigs, hoff, if_neg Bool.false_ne_true, ← hoff]
            exact hconfigs
          · refine ⟨hflag, context :: made, ?_, ?_, ?_⟩
            · rw [hmade, List.append_assoc, List.singleton_append]
            · rw [effectiveConfigs, if_pos hon, List.map_cons, hconfigs, hconfig]
            · rw [List.forall_mem_cons, hconfig]
              exact ⟨hcontext, hinit⟩
      | event event =>
          obtain ⟨⟨ssl, handled⟩, hhandled, rfl⟩ := Option.map_eq_some_iff.mp hstep
          have huse := useSsl_step hhandled
          simp only [huse] at hflag hconfigs
          cases event <;> exact ⟨hflag, made, hmade, hconfigs, hinit⟩

/-- The pointer of a session stays what it was, until its connection goes. -/
theorem run_pointer {conn : ConnectionId} {pointer : Option ContextRef}
    {events : List TlsEvent} (hstays : .event (.disconnected conn) ∉ events)
    (hrun : state.run openSsl server methods events = some final)
    (hconn : conn ∈ state.ssl.connections) (hpointer : state.pointers.lookup conn = some pointer) :
    final.pointers.lookup conn = some pointer := by
  have hharmless : ∀ event ∈ events, event ≠ .event (.disconnected conn) :=
    fun event hevent hsame => hstays (hsame ▸ hevent)
  refine (tryRun_invariant (step openSsl server methods) _
    (fun state => conn ∈ state.ssl.connections ∧ state.pointers.lookup conn = some pointer)
    ?_ hharmless hrun ⟨hconn, hpointer⟩).2
  rintro state event next hevent hstep ⟨hconn, hpointer⟩
  cases event with
  | setSslConfig config =>
      rcases setSslConfig_cases hstep with ⟨_, rfl⟩ | ⟨_, context, _, _, rfl⟩
      · exact ⟨hconn, hpointer⟩
      · exact ⟨hconn, hpointer⟩
  | event event =>
      obtain ⟨⟨ssl, handled⟩, hhandled, rfl⟩ := Option.map_eq_some_iff.mp hstep
      have hother : event ≠ .disconnected conn := fun hsame => hevent (hsame ▸ rfl)
      refine ⟨connections_step hother hhandled hconn, ?_⟩
      cases event with
      | connected other indeterminate =>
          obtain ⟨hfree, _⟩ := Option.ite_none_left_eq_some.mp hhandled
          have hne : conn ≠ other := by
            rintro rfl
            exact hfree (Or.inl hconn)
          rw [pointersAfter]
          split
          · rw [lookup_assign, if_neg hne]
            exact hpointer
          · exact hpointer
      | disconnected other =>
          have hne : conn ≠ other := by
            rintro rfl
            exact hother rfl
          rw [pointersAfter]
          split
          · rw [lookup_erase, if_neg hne]
            exact hpointer
          · exact hpointer
      | _ => exact hpointer

/-- The context that a TLS session points to, in every run in which its
connection stays: none, exactly if none was configured before it was accepted;
otherwise the last one of those, which is still there exactly if none was
configured since.  A configuration counts only if TLS was on when it was set. -/
theorem pointer_valid_iff (handlers : σ) (useSsl : Bool) {before after : List TlsEvent}
    {conn : ConnectionId} {indeterminate : UInt64}
    (hrun : (initial handlers useSsl : TlsServer σ T B C).run openSsl server methods
      (before ++ .event (.connected conn indeterminate) :: after) = some final)
    (hflag : flagAfter useSsl before = true) (hstays : .event (.disconnected conn) ∉ after) :
    let made := effectiveConfigs useSsl before
    let later := effectiveConfigs true after
    ∃ pointer, final.pointers.lookup conn = some pointer ∧
      (pointer = none ↔ made = []) ∧
      ∀ ref, pointer = some ref →
        (final.sslContext = some ref ↔ later = []) ∧
        ∃ context, final.contexts[ref]? = some context ∧
          (SslContext.new context.sslConfig).init openSsl = (true, context) ∧
          made.getLast? = some context.sslConfig := by
  obtain ⟨middle, hbefore, hrest⟩ := tryRun_append_eq_some hrun
  obtain ⟨accepted, hstep, hafter⟩ := tryRun_cons_eq_some hrest
  obtain ⟨⟨ssl, handled⟩, hhandled, rfl⟩ := Option.map_eq_some_iff.mp hstep
  obtain ⟨_, hsome⟩ := Option.ite_none_left_eq_some.mp hhandled
  obtain ⟨rfl, _⟩ := Prod.mk.inj (Option.some.inj hsome)
  obtain ⟨hon, contexts, hcontexts, hmade, hinit⟩ := run_contexts hbefore
  obtain ⟨_, more, hmore, hlater, _⟩ := run_contexts hafter
  have hon : middle.ssl.useSsl = true := hon.trans hflag
  have hcontexts : middle.contexts = contexts := hcontexts
  have hpointer : final.pointers.lookup conn = some middle.sslContext := by
    apply run_pointer hstays hafter
    · exact (mem_assign _ _ _ _).mpr (Or.inl rfl)
    · rw [pointersAfter, if_pos hon, lookup_assign, if_pos rfl]
  have hmore : final.contexts = contexts ++ more := hcontexts ▸ hmore
  have hmade : contexts.map SslContext.sslConfig = effectiveConfigs useSsl before := hmade
  have hlater : more.map SslContext.sslConfig = effectiveConfigs true after := by
    rw [← hon]
    exact hlater
  rw [sslContext, hcontexts] at hpointer
  refine ⟨_, hpointer, ?_, ?_⟩
  · rw [← hmade, List.map_eq_nil_iff]
    by_cases hempty : contexts = []
    · simp [hempty]
    · simp [hempty]
  · intro ref href
    by_cases hempty : contexts = []
    · rw [if_pos hempty] at href
      exact absurd href.symm (Option.some_ne_none ref)
    rw [if_neg hempty, Option.some.injEq] at href
    have hpos := List.length_pos_iff.mpr hempty
    constructor
    · rw [← hlater, List.map_eq_nil_iff, sslContext, hmore, if_neg (by simp [hempty]),
        Option.some.injEq, List.length_append, ← href]
      have hlast : contexts.length + more.length - 1 = contexts.length - 1 ↔
          more.length = 0 := by omega
      exact hlast.trans List.length_eq_zero_iff
    · refine ⟨contexts.getLast hempty, ?_, hinit _ (List.getLast_mem hempty), ?_⟩
      · rw [hmore, ← href, List.getElem?_append_left (by omega), ← List.getLast?_eq_getElem?,
          List.getLast?_eq_some_getLast hempty]
      · rw [← hmade, List.getLast?_map, List.getLast?_eq_some_getLast hempty]
        rfl

/-- A session accepted between two calls of `SetSslConfig`. -/
def reconfigured : List TlsEvent :=
  [.event (.enableSsl true), .setSslConfig .new] ++
    .event (.connected 0 0) :: [.setSslConfig .new, .event (.connected 1 0)]

/-- It points to the context that the second call destroys. -/
theorem pointer_valid_iff_reconfigured :
    ∃ final ref, (initial () false : TlsServer Unit Unit Bytes (List SslOption)).run
        SslContext.willing HttpServer.greeting SslServer.passing reconfigured = some final ∧
      final.pointers.lookup 0 = some (some ref) ∧ final.sslContext ≠ some ref := by
  obtain ⟨pointer, hpointer, hnull, hvalid⟩ := @pointer_valid_iff Unit Unit Bytes _ _
    SslContext.willing HttpServer.greeting SslServer.passing _ () false
    [.event (.enableSsl true), .setSslConfig .new] [.setSslConfig .new, .event (.connected 1 0)]
    0 0 rfl rfl (by simp)
  cases pointer with
  | none => exact absurd (hnull.mp rfl) (by decide)
  | some ref =>
      refine ⟨_, ref, rfl, hpointer, fun hthere => ?_⟩
      exact absurd ((hvalid ref rfl).1.mp hthere) (by decide)

end TlsServer

end CuteHttpServer
