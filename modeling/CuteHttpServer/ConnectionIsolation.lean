/-
Many connections on one server.  A connection that was accepted with the flag
off sees of the others only what the handlers keep: its history is one of a
server that has no other connection.
-/
import CuteHttpServer.RequestOrder
import CuteHttpServer.SslConnections

namespace CuteHttpServer

open ByteString KeyedMap StepRun

/-- A server whose handlers find, at each of its calls, the state that is listed
for it. -/
def HttpServer.foreseeing {σ : Type} (server : HttpServer σ) : HttpServer (List σ) where
  httpCallback states request response :=
    match states with
    | [] => ⟨[], response, none⟩
    | handlers :: later =>
        let called := server.httpCallback handlers request response
        ⟨later, called.response, called.thrown⟩
  headerOrder := server.headerOrder

namespace HttpServer

variable {σ B : Type} [Buffer B] (server : HttpServer σ)

/-- `OnMessage` sees a buffer only through its readable bytes. -/
theorem onMessage_view (handlers : σ) (connection : Connection B) (arrival : Arrival) :
    let next := server.onMessage ⟨handlers, connection⟩ arrival
    server.onMessage (⟨handlers, connection.view⟩ : ServerState σ Bytes) arrival =
      (⟨next.1.handlers, next.1.connection.view⟩, next.2) := by
  have hview := connection.parse_view arrival
  have hdispatch := server.onRequest_bytes (B := B) handlers
    (connection.parse arrival).1.context.getRequest
  have hcontext : connection.view.context = connection.context := rfl
  have hparsed : (connection.parse arrival).1.view.context =
    (connection.parse arrival).1.context := rfl
  simp only [onMessage, hview, hdispatch, hcontext, hparsed]
  cases (connection.parse arrival).2 with
  | threw e => rfl
  | returned ok =>
      cases (connection.parse arrival).1.context.gotAll with
      | false => rfl
      | true =>
          simp only [if_true]
          cases (server.onRequest Bytes handlers
            (connection.parse arrival).1.context.getRequest).thrown <;> rfl

/-- Bytes that have been appended already, and those of an arrival. -/
theorem onMessage_appended (handlers : σ) (connection : Connection B) (arrival : Arrival) :
    server.onMessage (⟨handlers, (⟨connection.context,
        Buffer.append connection.buffer arrival.bytes⟩ : Connection B).view⟩ :
        ServerState σ Bytes) ⟨[], arrival.time⟩ =
      server.onMessage ⟨handlers, connection.view⟩ arrival := by
  have hparse : (⟨connection.context, Buffer.append connection.buffer arrival.bytes⟩ :
      Connection B).view.parse ⟨[], arrival.time⟩ = connection.view.parse arrival := by
    simp only [Connection.parse, Connection.view, Buffer.readable_append, append_bytes,
      List.append_nil]
  simp only [onMessage, hparse]
  rfl

theorem foreseeing_onRequest (handlers : σ) (later : List σ) (request : HttpRequest) :
    server.foreseeing.onRequest Bytes (handlers :: later) request =
      { server.onRequest Bytes handlers request with state := later } := by
  cases hthrown : (server.httpCallback handlers request
      (HttpResponse.new (closesByDefault request))).thrown with
  | some e =>
      rw [onRequest_threw server hthrown,
        @onRequest_threw _ Bytes _ server.foreseeing (handlers :: later) request e hthrown]
      rfl
  | none =>
      rw [onRequest_returned server hthrown,
        @onRequest_returned _ Bytes _ server.foreseeing (handlers :: later) request hthrown]
      rfl

/-- A call of `OnMessage` with the handlers' state known in advance. -/
theorem foreseeing_onMessage (handlers : σ) (later : List σ) (connection : Connection Bytes)
    (arrival : Arrival) :
    let next := server.onMessage ⟨handlers, connection⟩ arrival
    ∃ states, server.foreseeing.onMessage ⟨states, connection⟩ arrival =
      (⟨later, next.1.connection⟩, next.2) := by
  intro next
  cases houtcome : (connection.parse arrival).2 with
  | threw e =>
      refine ⟨later, ?_⟩
      rw [show next = _ from server.onMessage_threw houtcome,
        @onMessage_threw _ Bytes _ server.foreseeing ⟨later, connection⟩ arrival e houtcome]
  | returned ok =>
      cases ok with
      | false =>
          refine ⟨later, ?_⟩
          rw [show next = _ from server.onMessage_false houtcome,
            @onMessage_false _ Bytes _ server.foreseeing ⟨later, connection⟩ arrival houtcome]
      | true =>
          have hrequest := server.foreseeing_onRequest handlers later
            (connection.parse arrival).1.context.getRequest
          refine ⟨handlers :: later, ?_⟩
          cases hthrown : (server.onRequest Bytes handlers
              (connection.parse arrival).1.context.getRequest).thrown with
          | some e =>
              rw [show next = _ from server.onMessage_true_threw houtcome hthrown,
                @onMessage_true_threw _ Bytes _ server.foreseeing ⟨handlers :: later, connection⟩
                  arrival e houtcome (by rw [hrequest]; exact hthrown), hrequest]
              rfl
          | none =>
              rw [show next = _ from server.onMessage_true_returned houtcome hthrown,
                @onMessage_true_returned _ Bytes _ server.foreseeing ⟨handlers :: later, connection⟩
                  arrival houtcome (by rw [hrequest]; exact hthrown), hrequest]
              rfl

end HttpServer

/-- What arrives on one connection. -/
def SslEvent.arrivesOn (conn : ConnectionId) : SslEvent → Option Arrival
  | .enableSsl _ => none
  | .connected _ _ => none
  | .disconnected _ => none
  | .message other arrival => if other = conn then some arrival else none
  | .decrypted _ _ => none

namespace SslServer

variable {σ T B : Type} [Buffer B] {server : HttpServer σ} {methods : SslMethods T B}
  {state next : SslServer σ T B} {conn other : ConnectionId}

theorem serve_lookup_ne (hne : conn ≠ other) (connection : Connection B) (time : Timestamp)
    (buf : BufferPtr) :
    (state.serve server other connection time buf).1.connections.lookup conn =
      state.connections.lookup conn := by
  cases buf with
  | socket => rw [serve, lookup_assign, if_neg hne]
  | decrypted =>
      rw [serve]
      cases state.sslConnections.lookup other with
      | none => rfl
      | some session =>
          dsimp only
          rw [lookup_assign, if_neg hne]

/-- A message of another connection leaves this one alone. -/
theorem onMessage_lookup_ne (hne : conn ≠ other) (connection : Connection B)
    (buf : BufferPtr) (time : Timestamp) :
    (state.onMessage server methods other connection buf time).1.connections.lookup conn =
      state.connections.lookup conn := by
  by_cases htls : state.useSsl = true ∧ other ∈ state.sslConnections
  · obtain ⟨read, hread⟩ := onMessage_tls connection buf time htls.1 htls.2
    have hassign : ∀ sessions : Map ConnectionId (SslConnection T B),
        ({ state with
            sslConnections := sessions
            connections := assign state.connections other ⟨connection.context, read.buffer⟩ } :
          SslServer σ T B).connections.lookup conn = state.connections.lookup conn := by
      intro sessions
      rw [lookup_assign, if_neg hne]
    rw [hread, afterRead]
    cases read.thrown with
    | some e => exact hassign _
    | none =>
        dsimp only
        split
        · exact hassign _
        · split
          · exact hassign _
          · rw [serve_lookup_ne hne]
            exact hassign _
  · rw [onMessage_plain connection buf time htls, serve_lookup_ne hne]

/-- A connection that is there and has no TLS session. -/
structure Plain (conn : ConnectionId) (state : SslServer σ T B) : Prop where
  there : conn ∈ state.connections
  free : conn ∉ state.sslConnections

omit [Buffer B] in
theorem Plain.of_keepsTable (h : state.Plain conn) (hkeeps : state.KeepsTable next) :
    next.Plain conn where
  there := (hkeeps.connections conn).mpr h.there
  free hmem := h.free ((hkeeps.sessions conn).mp hmem)

/-- The connection as a server sees it that has no other one. -/
def Sees (conn : ConnectionId) (state : SslServer σ T B)
    (alone : ServerState (List σ) Bytes) : Prop :=
  ∃ connection, state.connections.lookup conn = some connection ∧
    alone.connection = connection.view

variable (server) (methods)

/-- What any event but its own disconnection leaves of a plain connection. -/
theorem Plain.step (h : state.Plain conn) {event : SslEvent} {handled : Handled}
    (hevent : event ≠ .disconnected conn)
    (hstep : state.step server methods event = some (next, handled)) :
    next.Plain conn ∧ (event.arrivesOn conn = none →
      next.connections.lookup conn = state.connections.lookup conn) := by
  cases event with
  | enableSsl enable =>
      obtain ⟨rfl, rfl⟩ := Prod.mk.inj (Option.some.inj hstep)
      exact ⟨⟨h.there, h.free⟩, fun _ => rfl⟩
  | connected other indeterminate =>
      obtain ⟨hfree, hnext⟩ := Option.ite_none_left_eq_some.mp hstep
      obtain ⟨rfl, rfl⟩ := Prod.mk.inj (Option.some.inj hnext)
      have hne : conn ≠ other := by
        rintro rfl
        exact hfree (Or.inl h.there)
      refine ⟨⟨?_, ?_⟩, fun _ => ?_⟩
      · rw [onConnected, mem_assign]
        exact Or.inr h.there
      · rw [onConnected]
        intro hmem
        split at hmem
        · exact ((mem_assign _ _ _ _).mp hmem).elim hne h.free
        · exact h.free hmem
      · rw [onConnected, lookup_assign, if_neg hne]
  | disconnected other =>
      obtain ⟨_, hnext⟩ := Option.ite_none_right_eq_some.mp hstep
      obtain ⟨rfl, rfl⟩ := Prod.mk.inj (Option.some.inj hnext)
      have hne : conn ≠ other := by
        rintro rfl
        exact hevent rfl
      refine ⟨⟨?_, fun hmem => h.free ((mem_onDisconnected conn).mp hmem).1⟩, fun _ => ?_⟩
      · rw [onDisconnected, AList.mem_erase]
        exact ⟨hne, h.there⟩
      · rw [onDisconnected, lookup_erase, if_neg hne]
  | message other arrival =>
      obtain ⟨connection, hlookup, hhandled⟩ := Option.map_eq_some_iff.mp hstep
      have hother := AList.lookup_isSome.mp (Option.isSome_of_eq_some hlookup)
      have hkeeps := onMessage_keepsTable server methods hother
        ⟨connection.context, Buffer.append connection.buffer arrival.bytes⟩ .socket arrival.time
      rw [hhandled] at hkeeps
      refine ⟨h.of_keepsTable hkeeps, fun hselect => ?_⟩
      have hne : conn ≠ other := by
        rintro rfl
        simp [SslEvent.arrivesOn] at hselect
      have hsame := @onMessage_lookup_ne σ T B _ server methods state _ _ hne
        ⟨connection.context, Buffer.append connection.buffer arrival.bytes⟩ .socket arrival.time
      rwa [hhandled] at hsame
  | decrypted other time =>
      obtain ⟨hmem, hsome⟩ := Option.ite_none_right_eq_some.mp hstep
      obtain ⟨connection, hlookup, hhandled⟩ := Option.map_eq_some_iff.mp hsome
      have hother := AList.lookup_isSome.mp (Option.isSome_of_eq_some hlookup)
      have hkeeps := onMessage_keepsTable server methods hother connection .decrypted time
      have hne : conn ≠ other := by
        rintro rfl
        exact h.free hmem
      have hsame := @onMessage_lookup_ne σ T B _ server methods state _ _ hne
        connection .decrypted time
      rw [hhandled] at hkeeps hsame
      exact ⟨h.of_keepsTable hkeeps, fun _ => hsame⟩

/-- A message of the plain connection itself. -/
theorem Plain.message (h : state.Plain conn) {arrival : Arrival} {handled : Handled}
    (hstep : state.step server methods (.message conn arrival) = some (next, handled))
    {later : List σ} {connection : Connection Bytes}
    (hnext : Sees conn next ⟨later, connection⟩) :
    ∃ alone, Sees conn state alone ∧
      server.foreseeing.onMessage alone arrival = (⟨later, connection⟩, handled.events) := by
  obtain ⟨before, hlookup, hhandled⟩ := Option.map_eq_some_iff.mp hstep
  rw [onMessage_plain _ _ _ fun htls => h.free htls.2, serve] at hhandled
  obtain ⟨rfl, rfl⟩ := Prod.mk.inj hhandled
  obtain ⟨after, hafter, hview⟩ := hnext
  rw [lookup_assign, if_pos rfl, Option.some.injEq] at hafter
  have hcall := server.onMessage_view state.handlers
    ⟨before.context, Buffer.append before.buffer arrival.bytes⟩ ⟨[], arrival.time⟩
  rw [server.onMessage_appended] at hcall
  obtain ⟨states, hforeseen⟩ := server.foreseeing_onMessage state.handlers later before.view
    arrival
  refine ⟨⟨states, before.view⟩, ⟨before, hlookup, rfl⟩, ?_⟩
  rw [hforeseen, hcall, hafter]
  exact Prod.ext (congrArg (ServerState.mk later) hview.symm) rfl

theorem projects_plain (conn : ConnectionId) :
    Projects (step server methods : SslServer σ T B → SslEvent → _)
      server.foreseeing.onMessage (SslEvent.arrivesOn conn) Handled.events
      (· ≠ .disconnected conn) (Plain conn) (Sees conn) where
  inv h hevent hstep := (h.step server methods hevent hstep).1
  stay h hevent hstep hselect hnext := by
    obtain ⟨connection, hlookup, hview⟩ := hnext
    rw [(h.step server methods hevent hstep).2 hselect] at hlookup
    exact ⟨connection, hlookup, hview⟩
  move {_ event _ _ seen _} h _ hstep hselect hnext := by
    cases event with
    | message other arrival =>
        obtain ⟨rfl, harrival⟩ := Option.ite_none_right_eq_some.mp hselect
        obtain rfl := Option.some.inj harrival
        exact h.message server methods hstep hnext
    | enableSsl enable => exact absurd hselect (Option.some_ne_none seen).symm
    | connected other indeterminate => exact absurd hselect (Option.some_ne_none seen).symm
    | disconnected other => exact absurd hselect (Option.some_ne_none seen).symm
    | decrypted other time => exact absurd hselect (Option.some_ne_none seen).symm

variable {server} {methods}

theorem Plain.onConnected {indeterminate : UInt64} {handled : Handled}
    (hflag : state.useSsl = false)
    (hstep : state.step server methods (.connected conn indeterminate) =
      some (next, handled)) :
    next.Plain conn ∧ next.connections.lookup conn = some (.fresh indeterminate) := by
  obtain ⟨hfree, hnext⟩ := Option.ite_none_left_eq_some.mp hstep
  obtain ⟨rfl, rfl⟩ := Prod.mk.inj (Option.some.inj hnext)
  rw [not_or] at hfree
  have hlookup : (state.onConnected methods conn indeterminate).connections.lookup conn =
      some (.fresh indeterminate) := by
    rw [SslServer.onConnected, lookup_assign, if_pos rfl]
  refine ⟨⟨AList.lookup_isSome.mp (Option.isSome_of_eq_some hlookup), ?_⟩, hlookup⟩
  rw [SslServer.onConnected, hflag]
  exact hfree.2

/-- From its acceptance on, a plain connection has the history of a connection
of a server that has no other one. -/
theorem alone_of_run {start final : SslServer σ T B} {indeterminate : UInt64}
    (hplain : start.Plain conn)
    (hlookup : start.connections.lookup conn = some (.fresh indeterminate))
    {events : List SslEvent} {outputs : List Handled}
    (hstays : ∀ event ∈ events, event ≠ .disconnected conn)
    (hrun : tryRunFrom (step server methods) start events = some (final, outputs)) :
    ∃ (states : List σ) (last : Connection B), final.connections.lookup conn = some last ∧
      runFrom server.foreseeing.onMessage
          (⟨states, .fresh indeterminate⟩ : ServerState (List σ) Bytes)
          (events.filterMap (SslEvent.arrivesOn conn)) =
        (⟨[], last.view⟩, selected (SslEvent.arrivesOn conn) Handled.events events outputs) := by
  have hprojects := projects_plain (T := T) (B := B) server methods conn
  have hthere : final.Plain conn := hprojects.inv_run hstays hplain hrun
  obtain ⟨last, hlast⟩ := Option.isSome_iff_exists.mp (AList.lookup_isSome.mpr hthere.there)
  obtain ⟨⟨states, connection⟩, ⟨first, hfirst, hview⟩, halone⟩ :=
    hprojects.run hstays hplain hrun
      (show Sees conn final ⟨[], last.view⟩ from ⟨last, hlast, rfl⟩)
  rw [hlookup, Option.some.injEq] at hfirst
  subst hfirst
  rw [Connection.view_fresh] at hview
  obtain rfl : connection = .fresh indeterminate := hview
  exact ⟨states, last, hlast, halone⟩

/-- Whatever happens on other connections, with or without TLS, and to the
flag: what a connection that was accepted with the flag off is answered, and
what is left of it, is what a server without other connections makes of its
arrivals, when its handlers find the state that they found here. -/
theorem connection_isolated (server : HttpServer σ) (methods : SslMethods T B)
    (conn : ConnectionId) (indeterminate : UInt64) {before start final : SslServer σ T B}
    {accepted : Handled} {events : List SslEvent} {outputs : List Handled}
    (hflag : before.useSsl = false)
    (haccepted : before.step server methods (.connected conn indeterminate) =
      some (start, accepted))
    (hstays : ∀ event ∈ events, event ≠ .disconnected conn)
    (hrun : tryRunFrom (step server methods) start events = some (final, outputs)) :
    ∃ (states : List σ) (last : Connection B), final.connections.lookup conn = some last ∧
      runFrom server.foreseeing.onMessage
          (⟨states, .fresh indeterminate⟩ : ServerState (List σ) Bytes)
          (events.filterMap (SslEvent.arrivesOn conn)) =
        (⟨[], last.view⟩, selected (SslEvent.arrivesOn conn) Handled.events events outputs) := by
  obtain ⟨hplain, hlookup⟩ := Plain.onConnected hflag haccepted
  exact alone_of_run hplain hlookup hstays hrun

/-- A request in two pieces, with another connection and the flag in between. -/
def crowd : List SslEvent :=
  [.connected 1 0, .message 0 ⟨RequestText.get.render.take 5, 1⟩,
    .message 1 ⟨ascii "POST", 2⟩, .enableSsl true, .connected 2 0,
    .message 0 ⟨RequestText.get.render.drop 5, 3⟩, .disconnected 1]

theorem connection_isolated_crowd :
    ∃ (final : SslServer Unit Unit Bytes) (outputs : List Handled) (states : List Unit)
      (last : Connection Bytes), final.connections.lookup 0 = some last ∧
      runFrom HttpServer.greeting.foreseeing.onMessage
          (⟨states, .fresh 0⟩ : ServerState (List Unit) Bytes)
          (crowd.filterMap (SslEvent.arrivesOn 0)) =
        (⟨[], last.view⟩,
          selected (SslEvent.arrivesOn 0) Handled.events crowd outputs) :=
  ⟨_, _, @connection_isolated _ _ _ _ HttpServer.greeting passing 0 0 (initial () false) _ _ _
    crowd _ rfl rfl (by simp [crowd]) rfl⟩

end SslServer

end CuteHttpServer
