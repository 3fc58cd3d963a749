/-
`EnableSsl`, `OnConnection` and `OnMessage` with TLS: one flag of the server, a
table of TLS sessions, and any number of connections.  The methods of
`SslConnection` have no body in the source and are parameters here.
-/
import CuteHttpServer.DispatchHistory

namespace CuteHttpServer

open ByteString KeyedMap

/-- A `TcpConnectionPtr`. -/
abbrev ConnectionId := Nat

inductive SslState
  | handshake
  | established
  | shutdown
  | error
deriving DecidableEq

/-- The members of `SslConnection` that the server can see, and the rest. -/
structure SslConnection (T B : Type) where
  sslState : SslState
  decryptedBuffer : B
  rest : T

namespace SslConnection

variable {T B : Type}

def isHandshakeCompleted (session : SslConnection T B) : Bool :=
  session.sslState == .established

def getDecryptedBuffer (session : SslConnection T B) : B := session.decryptedBuffer

end SslConnection

/-- Where the `buf` of `OnMessage` points: to the buffer of the socket, or to
the one of the TLS session. -/
inductive BufferPtr
  | socket
  | decrypted
deriving DecidableEq

/-- How a call of `OnRead` leaves the session and the buffer of the socket. -/
structure OnReadResult (T B : Type) where
  session : SslConnection T B
  buffer : B
  thrown : Option StdException

/-- What the source only declares. -/
structure SslMethods (T B : Type) where
  construct : ConnectionId → SslConnection T B
  startHandshake : SslConnection T B → SslConnection T B
  onRead : SslConnection T B → BufferPtr → B → Timestamp → OnReadResult T B

/-- The members of the server that change, and its connections. -/
structure SslServer (σ T B : Type) where
  handlers : σ
  useSsl : Bool
  sslConnections : Map ConnectionId (SslConnection T B)
  connections : Map ConnectionId (Connection B)

/-- The buffer that `ParseRequest` was given, if it was called, and what
happened. -/
structure Handled where
  parsed : Option BufferPtr
  events : List Event

/-- What the server is called for.  `decrypted` is a call of the message
callback that the TLS session was given, with its own buffer. -/
inductive SslEvent
  | enableSsl (enable : Bool)
  | connected (conn : ConnectionId) (indeterminate : UInt64)
  | disconnected (conn : ConnectionId)
  | message (conn : ConnectionId) (arrival : Arrival)
  | decrypted (conn : ConnectionId) (time : Timestamp)

namespace SslServer

variable {σ T B : Type} [Buffer B]

def initial (handlers : σ) (useSsl : Bool) : SslServer σ T B where
  handlers := handlers
  useSsl := useSsl
  sslConnections := ∅
  connections := ∅

section Handlers

variable (server : HttpServer σ) (methods : SslMethods T B) (state : SslServer σ T B)
  (conn : ConnectionId)

def enableSsl (enable : Bool) : SslServer σ T B := { state with useSsl := enable }

/-- `OnConnection` of a connection that is connected. -/
def onConnected (indeterminate : UInt64) : SslServer σ T B :=
  { state with
    sslConnections :=
      if state.useSsl then
        assign state.sslConnections conn (methods.startHandshake (methods.construct conn))
      else state.sslConnections
    connections := assign state.connections conn (.fresh indeterminate) }

/-- `OnConnection` of one that is not any more. -/
def onDisconnected : SslServer σ T B :=
  { state with
    sslConnections :=
      if state.useSsl then state.sslConnections.erase conn else state.sslConnections
    connections := state.connections.erase conn }

/-- `OnMessage` from the context on. -/
def serve (connection : Connection B) (time : Timestamp) :
    BufferPtr → SslServer σ T B × Handled
  | .socket =>
      let served := server.onMessage ⟨state.handlers, connection⟩ ⟨[], time⟩
      ({ state with
          handlers := served.1.handlers
          connections := assign state.connections conn served.1.connection },
        ⟨some .socket, served.2⟩)
  | .decrypted =>
      match state.sslConnections.lookup conn with
      | none => (state, ⟨none, []⟩)
      | some session =>
          let served := server.onMessage
            ⟨state.handlers, ⟨connection.context, session.getDecryptedBuffer⟩⟩ ⟨[], time⟩
          ({ state with
              handlers := served.1.handlers
              sslConnections := assign state.sslConnections conn
                { session with decryptedBuffer := served.1.connection.buffer }
              connections := assign state.connections conn
                ⟨served.1.connection.context, connection.buffer⟩ },
            ⟨some .decrypted, served.2⟩)

/-- `OnMessage` from the return of `OnRead` on. -/
def afterRead (read : OnReadResult T B) (connection : Connection B) (time : Timestamp) :
    SslServer σ T B × Handled :=
  let connection : Connection B := ⟨connection.context, read.buffer⟩
  let state : SslServer σ T B :=
    { state with
      sslConnections := assign state.sslConnections conn read.session
      connections := assign state.connections conn connection }
  match read.thrown with
  | some e => (state, ⟨none, .caught e :: refusal⟩)
  | none =>
      if !read.session.isHandshakeCompleted then (state, ⟨none, []⟩)
      else if Buffer.readable read.session.getDecryptedBuffer = [] then (state, ⟨none, []⟩)
      else state.serve server conn connection time .decrypted

/-- `OnMessage`.  Without an entry in the table it goes on as if there were no
TLS. -/
def onMessage (connection : Connection B) (buf : BufferPtr) (time : Timestamp) :
    SslServer σ T B × Handled :=
  match if state.useSsl then state.sslConnections.lookup conn else none with
  | none => state.serve server conn connection time buf
  | some session =>
      state.afterRead server conn (methods.onRead session buf connection.buffer time)
        connection time

/-- One event; `none` is one that never comes: a connection that is accepted
while it is there, messages of one that is not, a callback of no session. -/
def step : SslEvent → Option (SslServer σ T B × Handled)
  | .enableSsl enable => some (state.enableSsl enable, ⟨none, []⟩)
  | .connected conn indeterminate =>
      if conn ∈ state.connections ∨ conn ∈ state.sslConnections then none
      else some (state.onConnected methods conn indeterminate, ⟨none, []⟩)
  | .disconnected conn =>
      if conn ∈ state.connections then some (state.onDisconnected conn, ⟨none, []⟩) else none
  | .message conn arrival =>
      (state.connections.lookup conn).map fun connection =>
        state.onMessage server methods conn
          ⟨connection.context, Buffer.append connection.buffer arrival.bytes⟩ .socket arrival.time
  | .decrypted conn time =>
      if conn ∈ state.sslConnections then
        (state.connections.lookup conn).map fun connection =>
          state.onMessage server methods conn connection .decrypted time
      else none

end Handlers

/-- The mode in which each connection that is there was accepted. -/
def recordMode (useSsl : Bool) (accepted : Map ConnectionId Bool) :
    SslEvent → Map ConnectionId Bool
  | .enableSsl _ => accepted
  | .connected conn _ => assign accepted conn useSsl
  | .disconnected conn => accepted.erase conn
  | .message _ _ => accepted
  | .decrypted _ _ => accepted

/-- The table holds the connections that were accepted with TLS on. -/
def TableExact (state : SslServer σ T B) (accepted : Map ConnectionId Bool) : Prop :=
  ∀ conn, conn ∈ state.sslConnections ↔ accepted.lookup conn = some true

/-- Raw bytes are parsed on a connection that was accepted with TLS off, and
on no other; with TLS on, no request is served that came without a session. -/
def ServesByMode (state : SslServer σ T B) (accepted : Map ConnectionId Bool)
    (conn : ConnectionId) (handled : Handled) : Prop :=
  (handled.parsed = some .socket ↔ accepted.lookup conn = some false) ∧
    (state.useSsl = true → conn ∉ state.sslConnections →
      ∀ event ∈ handled.events, event.isInvoked = false)

def Respects (state : SslServer σ T B) (accepted : Map ConnectionId Bool)
    (handled : Handled) : SslEvent → Prop
  | .enableSsl _ => True
  | .connected _ _ => True
  | .disconnected _ => True
  | .message conn _ => state.ServesByMode accepted conn handled
  | .decrypted conn _ => state.ServesByMode accepted conn handled

/-- In every state that is reached the table is right, and every message is
handled in the mode in which its connection was accepted. -/
def ModeFixed (server : HttpServer σ) (methods : SslMethods T B) :
    SslServer σ T B → Map ConnectionId Bool → List SslEvent → Prop
  | state, accepted, [] => state.TableExact accepted
  | state, accepted, event :: rest =>
      state.TableExact accepted ∧
        ∀ next handled, state.step server methods event = some (next, handled) →
          state.Respects accepted handled event ∧
            ModeFixed server methods next (recordMode state.useSsl accepted event) rest

/-- The flag is on when something comes of a connection that was accepted with
TLS on.  While it is on, those accepted with TLS off complete no request. -/
def FlagKept (state : SslServer σ T B) (accepted : Map ConnectionId Bool) :
    SslEvent → Prop
  | .enableSsl _ => True
  | .connected _ _ => True
  | .disconnected conn => accepted.lookup conn = some true → state.useSsl = true
  | .message conn arrival =>
      (accepted.lookup conn = some true → state.useSsl = true) ∧
        (accepted.lookup conn = some false → state.useSsl = true →
          ∀ connection, state.connections.lookup conn = some connection →
            ¬ HttpServer.CompletesRequest ⟨state.handlers, connection⟩ arrival)
  | .decrypted _ _ => True

def FlagAlwaysKept (server : HttpServer σ) (methods : SslMethods T B) :
    SslServer σ T B → Map ConnectionId Bool → List SslEvent → Prop
  | _, _, [] => True
  | state, accepted, event :: rest =>
      ∀ next handled, state.step server methods event = some (next, handled) →
        state.FlagKept accepted event ∧
          FlagAlwaysKept server methods next (recordMode state.useSsl accepted event) rest

section Frames

variable {server : HttpServer σ} {methods : SslMethods T B} {state next : SslServer σ T B}
  {conn : ConnectionId}

/-- A handled message leaves the flag, the table's keys and the connections. -/
structure KeepsTable (state next : SslServer σ T B) : Prop where
  useSsl : next.useSsl = state.useSsl
  sessions : ∀ other, other ∈ next.sslConnections ↔ other ∈ state.sslConnections
  connections : ∀ other, other ∈ next.connections ↔ other ∈ state.connections

theorem serve_keepsTable (hconn : conn ∈ state.connections) (connection : Connection B)
    (time : Timestamp) (buf : BufferPtr) :
    state.KeepsTable (state.serve server conn connection time buf).1 := by
  cases buf with
  | socket => exact ⟨rfl, fun _ => Iff.rfl, mem_assign_of_mem hconn _⟩
  | decrypted =>
      rw [serve]
      cases hlookup : state.sslConnections.lookup conn with
      | none => exact ⟨rfl, fun _ => Iff.rfl, fun _ => Iff.rfl⟩
      | some session =>
          have hmem := AList.lookup_isSome.mp (Option.isSome_of_eq_some hlookup)
          exact ⟨rfl, mem_assign_of_mem hmem _, mem_assign_of_mem hconn _⟩

omit [Buffer B] in
theorem KeepsTable.trans {middle : SslServer σ T B} (h : state.KeepsTable middle)
    (h' : middle.KeepsTable next) : state.KeepsTable next where
  useSsl := h'.useSsl.trans h.useSsl
  sessions other := (h'.sessions other).trans (h.sessions other)
  connections other := (h'.connections other).trans (h.connections other)

theorem serve_parsed (connection : Connection B) (time : Timestamp) (buf : BufferPtr)
    (h : (state.serve server conn connection time buf).2.parsed = some .socket) :
    buf = .socket := by
  cases buf with
  | socket => rfl
  | decrypted =>
      rw [serve] at h
      cases hlookup : state.sslConnections.lookup conn with
      | none => simp [hlookup] at h
      | some session => simp [hlookup] at h

/-- With the flag off, or without a session, `OnMessage` parses what it is
given. -/
theorem onMessage_plain (connection : Connection B) (buf : BufferPtr) (time : Timestamp)
    (h : ¬ (state.useSsl = true ∧ conn ∈ state.sslConnections)) :
    state.onMessage server methods conn connection buf time =
      state.serve server conn connection time buf := by
  have hnone : (if state.useSsl then state.sslConnections.lookup conn else none) = none := by
    by_cases hflag : state.useSsl = true
    · rw [if_pos hflag]
      exact AList.lookup_eq_none.mpr fun hmem => h ⟨hflag, hmem⟩
    · rw [if_neg hflag]
  rw [onMessage, hnone]

/-- What comes after `OnRead` never parses the socket's bytes. -/
theorem afterRead_spec (read : OnReadResult T B) (connection : Connection B)
    (time : Timestamp) (hmem : conn ∈ state.sslConnections)
    (hconn : conn ∈ state.connections) :
    state.KeepsTable (state.afterRead server conn read connection time).1 ∧
      (state.afterRead server conn read connection time).2.parsed ≠ some .socket := by
  set connection' : Connection B := ⟨connection.context, read.buffer⟩ with hconnection
  set state' : SslServer σ T B :=
    { state with
      sslConnections := assign state.sslConnections conn read.session
      connections := assign state.connections conn connection' } with hstate
  have hkeeps : state.KeepsTable state' :=
    ⟨rfl, mem_assign_of_mem hmem _, mem_assign_of_mem hconn _⟩
  have hconn' : conn ∈ state'.connections := (hkeeps.connections conn).mpr hconn
  simp only [afterRead, ← hconnection, ← hstate]
  cases read.thrown with
  | some e => exact ⟨hkeeps, by simp⟩
  | none =>
      by_cases hhandshake : (!read.session.isHandshakeCompleted) = true
      · simp only [if_pos hhandshake]
        exact ⟨hkeeps, by simp⟩
      · by_cases hempty : Buffer.readable read.session.getDecryptedBuffer = []
        · simp only [if_neg hhandshake, if_pos hempty]
          exact ⟨hkeeps, by simp⟩
        · simp only [if_neg hhandshake, if_neg hempty]
          refine ⟨hkeeps.trans (serve_keepsTable hconn' _ _ _), fun hparsed => ?_⟩
          exact BufferPtr.noConfusion (serve_parsed _ _ _ hparsed)

/-- With the flag on and a session, `OnMessage` reads through the session. -/
theorem onMessage_tls (connection : Connection B) (buf : BufferPtr) (time : Timestamp)
    (hflag : state.useSsl = true) (hmem : conn ∈ state.sslConnections) :
    ∃ read, state.onMessage server methods conn connection buf time =
      state.afterRead server conn read connection time := by
  obtain ⟨session, hsession⟩ := Option.isSome_iff_exists.mp (AList.lookup_isSome.mpr hmem)
  exact ⟨_, by rw [onMessage, if_pos hflag, hsession]⟩

variable (server) (methods)

theorem onMessage_keepsTable (hconn : conn ∈ state.connections) (connection : Connection B)
    (buf : BufferPtr) (time : Timestamp) :
    state.KeepsTable (state.onMessage server methods conn connection buf time).1 := by
  by_cases htls : state.useSsl = true ∧ conn ∈ state.sslConnections
  · obtain ⟨read, hread⟩ := onMessage_tls connection buf time htls.1 htls.2
    rw [hread]
    exact (afterRead_spec read connection time htls.2 hconn).1
  · rw [onMessage_plain connection buf time htls]
    exact serve_keepsTable hconn connection time buf

/-- `OnMessage` parses the socket's bytes exactly when the flag is off or there
is no session. -/
theorem onMessage_raw_iff (hconn : conn ∈ state.connections) (connection : Connection B)
    (time : Timestamp) :
    (state.onMessage server methods conn connection .socket time).2.parsed = some .socket ↔
      ¬ (state.useSsl = true ∧ conn ∈ state.sslConnections) := by
  by_cases htls : state.useSsl = true ∧ conn ∈ state.sslConnections
  · obtain ⟨read, hread⟩ := onMessage_tls connection .socket time htls.1 htls.2
    rw [hread]
    exact iff_of_false (afterRead_spec read connection time htls.2 hconn).2 (not_not.mpr htls)
  · rw [onMessage_plain connection .socket time htls]
    exact iff_of_true rfl htls

/-- A call of the message callback never does. -/
theorem onMessage_decrypted_parsed (hmem : conn ∈ state.sslConnections)
    (hconn : conn ∈ state.connections) (connection : Connection B) (time : Timestamp) :
    (state.onMessage server methods conn connection .decrypted time).2.parsed ≠
      some .socket := by
  by_cases hflag : state.useSsl = true
  · obtain ⟨read, hread⟩ := onMessage_tls connection .decrypted time hflag hmem
    rw [hread]
    exact (afterRead_spec read connection time hmem hconn).2
  · rw [onMessage_plain connection .decrypted time fun htls => hflag htls.1]
    exact fun hparsed => BufferPtr.noConfusion (serve_parsed _ _ _ hparsed)

/-- Bytes that are in the buffer already complete a request like bytes that
arrive. -/
theorem completesRequest_append (handlers : σ) (connection : Connection B) (arrival : Arrival) :
    HttpServer.CompletesRequest
        ⟨handlers, ⟨connection.context, Buffer.append connection.buffer arrival.bytes⟩⟩
        ⟨[], arrival.time⟩ ↔
      HttpServer.CompletesRequest ⟨handlers, connection⟩ arrival := by
  simp only [HttpServer.CompletesRequest, Buffer.readable_append, List.append_nil]

variable {accepted : Map ConnectionId Bool}

/-- A message is handled in the mode of its connection exactly when the flag
has been kept. -/
theorem servesByMode_iff (htable : state.TableExact accepted) {connection : Connection B}
    (hlookup : state.connections.lookup conn = some connection) {mode : Bool}
    (hmode : accepted.lookup conn = some mode) (arrival : Arrival) :
    state.ServesByMode accepted conn (state.onMessage server methods conn
        ⟨connection.context, Buffer.append connection.buffer arrival.bytes⟩ .socket
        arrival.time).2 ↔
      state.FlagKept accepted (.message conn arrival) := by
  have hconn := AList.lookup_isSome.mp (Option.isSome_of_eq_some hlookup)
  rw [ServesByMode, onMessage_raw_iff server methods hconn, FlagKept, hmode]
  cases mode with
  | true =>
      have hmem : conn ∈ state.sslConnections := (htable conn).mpr hmode
      simp [hmem]
  | false =>
      have hfree : conn ∉ state.sslConnections := fun hmem => by
        rw [(htable conn).mp hmem] at hmode
        exact Bool.noConfusion (Option.some.inj hmode)
      rw [onMessage_plain _ _ _ fun htls => hfree htls.2]
      have hsilent : (∀ event ∈ (server.onMessage ⟨state.handlers, ⟨connection.context,
          Buffer.append connection.buffer arrival.bytes⟩⟩ ⟨[], arrival.time⟩).2,
          event.isInvoked = false) ↔
          ¬ HttpServer.CompletesRequest ⟨state.handlers, connection⟩ arrival := by
        rw [← completesRequest_append, ← server.invoked_mem_onMessage_iff]
        simp only [not_exists, not_and, Bool.not_eq_true]
      simp [serve, hlookup, hfree, hsilent]

/-- What is recorded are the connections that are there. -/
def Recorded (state : SslServer σ T B) (accepted : Map ConnectionId Bool) : Prop :=
  ∀ conn, conn ∈ state.connections ↔ conn ∈ accepted

omit [Buffer B] in
theorem Recorded.exists_mode (h : state.Recorded accepted) (hconn : conn ∈ state.connections) :
    ∃ mode, accepted.lookup conn = some mode :=
  Option.isSome_iff_exists.mp (AList.lookup_isSome.mpr ((h conn).mp hconn))

omit [Buffer B] in
theorem TableExact.of_keepsTable (h : state.TableExact accepted)
    (hkeeps : state.KeepsTable next) : next.TableExact accepted :=
  fun other => (hkeeps.sessions other).trans (h other)

omit [Buffer B] in
theorem Recorded.of_keepsTable (h : state.Recorded accepted)
    (hkeeps : state.KeepsTable next) : next.Recorded accepted :=
  fun other => (hkeeps.connections other).trans (h other)

/-- A new connection gets an entry exactly when the flag is on. -/
theorem TableExact.onConnected (h : state.TableExact accepted)
    (hfree : conn ∉ state.sslConnections) (indeterminate : UInt64) :
    (state.onConnected methods conn indeterminate).TableExact
      (assign accepted conn state.useSsl) := by
  intro other
  rw [lookup_assign, SslServer.onConnected]
  by_cases hsame : other = conn
  · subst hsame
    cases state.useSsl <;> simp [assign, hfree]
  · have hother := h other
    cases state.useSsl <;> simp [assign, hsame, hother]

omit [Buffer B] in
theorem mem_onDisconnected (other : ConnectionId) :
    other ∈ (state.onDisconnected conn).sslConnections ↔
      other ∈ state.sslConnections ∧ (state.useSsl = true → other ≠ conn) := by
  rw [onDisconnected]
  cases hflag : state.useSsl with
  | true => simp [AList.mem_erase, and_comm]
  | false => simp

omit [Buffer B] in
/-- A disconnection leaves the table right exactly when the flag has been
kept. -/
theorem tableExact_onDisconnected_iff (h : state.TableExact accepted) :
    (state.onDisconnected conn).TableExact (accepted.erase conn) ↔
      (accepted.lookup conn = some true → state.useSsl = true) := by
  constructor
  · intro hnext hmode
    by_contra hflag
    have hleft : conn ∈ (state.onDisconnected conn).sslConnections :=
      (mem_onDisconnected conn).mpr ⟨(h conn).mpr hmode, fun hon => absurd hon hflag⟩
    have hgone := (hnext conn).mp hleft
    rw [lookup_erase, if_pos rfl] at hgone
    exact absurd hgone (Option.some_ne_none true).symm
  · intro hkept other
    rw [mem_onDisconnected, lookup_erase, h other]
    by_cases hsame : other = conn
    · subst hsame
      rw [if_pos rfl]
      refine iff_of_false ?_ (Option.some_ne_none true).symm
      rintro ⟨hmode, hother⟩
      exact hother (hkept hmode) rfl
    · rw [if_neg hsame]
      exact and_iff_left fun _ => hsame

/-- The record stays right whatever happens; the event keeps to the modes
exactly when the flag has been kept. -/
theorem step_spec (htable : state.TableExact accepted) (hrecorded : state.Recorded accepted)
    {event : SslEvent} {handled : Handled}
    (hstep : state.step server methods event = some (next, handled)) :
    next.Recorded (recordMode state.useSsl accepted event) ∧
      ((state.Respects accepted handled event ∧
          next.TableExact (recordMode state.useSsl accepted event)) ↔
        state.FlagKept accepted event) := by
  cases event with
  | enableSsl enable =>
      obtain ⟨rfl, rfl⟩ := Prod.mk.inj (Option.some.inj hstep)
      exact ⟨hrecorded, iff_of_true ⟨trivial, htable⟩ trivial⟩
  | connected conn indeterminate =>
      obtain ⟨hfree, hnext⟩ := Option.ite_none_left_eq_some.mp hstep
      obtain ⟨rfl, rfl⟩ := Prod.mk.inj (Option.some.inj hnext)
      rw [not_or] at hfree
      refine ⟨fun other => ?_,
        iff_of_true ⟨trivial, htable.onConnected methods hfree.2 indeterminate⟩ trivial⟩
      rw [onConnected, recordMode, mem_assign, mem_assign, hrecorded other]
  | disconnected conn =>
      obtain ⟨_, hnext⟩ := Option.ite_none_right_eq_some.mp hstep
      obtain ⟨rfl, rfl⟩ := Prod.mk.inj (Option.some.inj hnext)
      refine ⟨fun other => ?_,
        (and_iff_right trivial).trans (tableExact_onDisconnected_iff htable)⟩
      rw [onDisconnected, recordMode, AList.mem_erase, AList.mem_erase, hrecorded other]
  | message conn arrival =>
      obtain ⟨connection, hlookup, hhandled⟩ := Option.map_eq_some_iff.mp hstep
      have hconn := AList.lookup_isSome.mp (Option.isSome_of_eq_some hlookup)
      obtain ⟨mode, hmode⟩ := hrecorded.exists_mode hconn
      have hserves := servesByMode_iff server methods htable hlookup hmode arrival
      have hkeeps := onMessage_keepsTable server methods hconn
        ⟨connection.context, Buffer.append connection.buffer arrival.bytes⟩ .socket arrival.time
      rw [hhandled] at hserves hkeeps
      exact ⟨hrecorded.of_keepsTable hkeeps,
        (and_iff_left (htable.of_keepsTable hkeeps)).trans hserves⟩
  | decrypted conn time =>
      obtain ⟨hmem, hsome⟩ := Option.ite_none_right_eq_some.mp hstep
      obtain ⟨connection, hlookup, hhandled⟩ := Option.map_eq_some_iff.mp hsome
      have hconn := AList.lookup_isSome.mp (Option.isSome_of_eq_some hlookup)
      have hparsed := onMessage_decrypted_parsed server methods hmem hconn connection time
      have hkeeps := onMessage_keepsTable server methods hconn connection .decrypted time
      rw [hhandled] at hparsed hkeeps
      have hmode : ¬ accepted.lookup conn = some false := by
        rw [(htable conn).mp hmem]
        simp
      exact ⟨hrecorded.of_keepsTable hkeeps,
        iff_of_true ⟨⟨iff_of_false hparsed hmode, fun _ hfree => absurd hmem hfree⟩,
          htable.of_keepsTable hkeeps⟩ trivial⟩

end Frames

variable (server : HttpServer σ) (methods : SslMethods T B)

theorem ModeFixed.tableExact {state : SslServer σ T B} {accepted : Map ConnectionId Bool}
    {events : List SslEvent} (h : ModeFixed server methods state accepted events) :
    state.TableExact accepted := by
  cases events with
  | nil => exact h
  | cons event rest => exact h.1

theorem modeFixed_iff_of_recorded (events : List SslEvent) {state : SslServer σ T B}
    {accepted : Map ConnectionId Bool} (htable : state.TableExact accepted)
    (hrecorded : state.Recorded accepted) :
    ModeFixed server methods state accepted events ↔
      FlagAlwaysKept server methods state accepted events := by
  induction events generalizing state accepted with
  | nil => exact iff_of_true htable trivial
  | cons event rest ih =>
      constructor
      · rintro ⟨_, hfixed⟩ next handled hstep
        obtain ⟨hrespects, hrest⟩ := hfixed next handled hstep
        obtain ⟨hrecord, hmodes⟩ := step_spec server methods htable hrecorded hstep
        have hnext := hrest.tableExact
        exact ⟨hmodes.mp ⟨hrespects, hnext⟩, (ih hnext hrecord).mp hrest⟩
      · intro hkept
        refine ⟨htable, fun next handled hstep => ?_⟩
        obtain ⟨hflag, hrest⟩ := hkept next handled hstep
        obtain ⟨hrecord, hmodes⟩ := step_spec server methods htable hrecorded hstep
        obtain ⟨hrespects, hnext⟩ := hmodes.mpr hflag
        exact ⟨hrespects, (ih hnext hrecord).mpr hrest⟩

/-- In every run of a new server the mode of every connection is fixed exactly
when the flag has been kept. -/
theorem modeFixed_iff (handlers : σ) (useSsl : Bool) (events : List SslEvent) :
    ModeFixed server methods (initial handlers useSsl : SslServer σ T B) ∅ events ↔
      FlagAlwaysKept server methods (initial handlers useSsl : SslServer σ T B) ∅ events := by
  apply modeFixed_iff_of_recorded
  · intro conn
    simp [initial]
  · intro conn
    simp [initial]

/-- A TLS session that passes bytes on as they are. -/
def passing : SslMethods Unit Bytes where
  construct _ := ⟨.handshake, [], ()⟩
  startHandshake session := { session with sslState := .established }
  onRead session buf buffer _ :=
    match buf with
    | .socket => ⟨{ session with decryptedBuffer := session.decryptedBuffer ++ buffer }, [], none⟩
    | .decrypted => ⟨session, buffer, none⟩

/-- With the flag off, the entry of a connection outlives it, and what comes of
it is parsed raw. -/
theorem not_modeFixed_disabled :
    ¬ ModeFixed HttpServer.closing passing (initial () true) ∅
        [.connected 0 0, .enableSsl false, .disconnected 0] ∧
      ¬ ModeFixed HttpServer.closing passing (initial () true) ∅
        [.connected 0 0, .enableSsl false, .message 0 ⟨ascii "hello", 1⟩] := by
  constructor
  · rintro ⟨_, hconnected⟩
    obtain ⟨_, _, hdisabled⟩ := hconnected _ _ rfl
    obtain ⟨_, _, hdisconnected⟩ := hdisabled _ _ rfl
    obtain ⟨_, htable⟩ := hdisconnected _ _ rfl
    exact absurd ((htable 0).mp (by decide)) (by decide)
  · rintro ⟨_, hconnected⟩
    obtain ⟨_, _, hdisabled⟩ := hconnected _ _ rfl
    obtain ⟨_, _, hmessage⟩ := hdisabled _ _ rfl
    obtain ⟨⟨hraw, _⟩, _⟩ := hmessage _ _ rfl
    exact absurd (hraw.mp rfl) (by decide)

end SslServer

end CuteHttpServer
