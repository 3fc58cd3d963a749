/-
Sessions, the store that keeps them in memory, and the manager that hands them
to the handlers.  Sessions are objects on a heap, shared between the store and
whoever holds a pointer to them.
-/
import CuteHttpServer.HttpResponse
import CuteHttpServer.StepRun

namespace CuteHttpServer

open ByteString KeyedMap StepRun

/-- A `time_point` of `std::chrono::system_clock`, in nanoseconds. -/
abbrev ClockTime := Int

/-- `std::chrono::seconds`. -/
def seconds (n : Int) : Int := n * 1000000000

structure Session where
  sessionId : Bytes
  sessionData : StringMap
  expirationTime : ClockTime
  maxAge : Int
  sessionManager : Bool
deriving DecidableEq

namespace Session

/-- The constructor.  `expiration_time_` comes before `max_age_` in the class
and is computed from the member of that name, which holds an arbitrary value
by then. -/
def new (sessionId : Bytes) (sessionManager : Bool) (maxAge : Int)
    (now : ClockTime) (indeterminate : Int) : Session where
  sessionId := sessionId
  sessionData := ∅
  expirationTime := now + seconds indeterminate
  maxAge := maxAge
  sessionManager := sessionManager

/-- The default of the constructor's last parameter. -/
def defaultMaxAge : Int := 3600

def refresh (session : Session) (now : ClockTime) : Session :=
  { session with expirationTime := now + seconds session.maxAge }

def isExpired (session : Session) (now : ClockTime) : Bool :=
  session.expirationTime < now

def getValue (session : Session) (key : Bytes) : Bytes :=
  (session.sessionData.lookup key).getD []

/-- Whether `session_manager_` points to the manager. -/
def setManager (session : Session) (sessionManager : Bool) : Session :=
  { session with sessionManager := sessionManager }

def remove (session : Session) (key : Bytes) : Session :=
  { session with sessionData := session.sessionData.erase key }

def clear (session : Session) : Session :=
  { session with sessionData := ∅ }

end Session

/-- A `std::shared_ptr<Session>` that is not null. -/
abbrev SessionRef := Nat

/-- The random generator of the manager: `dist(random_generator_)`. -/
structure RandomSource (ρ : Type) where
  dist : ρ → Fin 16 × ρ

/-- All that the manager and the sessions can change: the session objects, the
store `sessions_`, the generator and the clock. -/
structure SessionWorld (ρ : Type) where
  heap : List Session
  sessions : Map Bytes SessionRef
  randomGenerator : ρ
  clock : ClockTime

/-- One digit written with `std::hex`. -/
def hexDigit (n : Fin 16) : Byte :=
  if n.val < 10 then UInt8.ofNat (48 + n.val) else UInt8.ofNat (87 + n.val)

namespace SessionManager

/-- The loop of `GenerateSessionId` with `count` rounds to go. -/
def hexDigits {ρ : Type} (source : RandomSource ρ) : Nat → ρ → Bytes × ρ
  | 0, generator => ([], generator)
  | count + 1, generator =>
      let drawn := source.dist generator
      let rest := hexDigits source count drawn.2
      (hexDigit drawn.1 :: rest.1, rest.2)

def generateSessionId {ρ : Type} (source : RandomSource ρ) (generator : ρ) : Bytes × ρ :=
  hexDigits source 32 generator

def sessionidField : Bytes := ascii "sessionid="

def getSessionIdFromRequestCookie (request : HttpRequest) : Bytes :=
  let cookie := request.getHeader (ascii "Cookie")
  if cookie = [] then []
  else
    match findSubstring sessionidField cookie with
    | some beginPos =>
        let past := cookie.drop beginPos
        match past.idxOf? 59 with
        | some endPos =>
            (past.drop sessionidField.length).take (endPos - sessionidField.length)
        | none => past.drop sessionidField.length
    | none => []

def setSessionCookie (sessionId : Bytes) (response : HttpResponse) : HttpResponse :=
  response.addHeader (ascii "Set-Cookie")
    (ascii "sessionid=" ++ sessionId ++ ascii "; Path=/; HttpOnly")

end SessionManager

namespace SessionWorld

variable {ρ : Type} (world : SessionWorld ρ)

/-- An empty store. -/
def initial (generator : ρ) (now : ClockTime) : SessionWorld ρ where
  heap := []
  sessions := ∅
  randomGenerator := generator
  clock := now

/-- Change one object in place. -/
def modify (ref : SessionRef) (change : Session → Session) : SessionWorld ρ :=
  { world with heap := world.heap.modify ref change }

/-- `MemorySessionStorage::Save`: an entry that is there is kept. -/
def save (ref : SessionRef) : SessionWorld ρ :=
  match world.heap[ref]? with
  | some session =>
      { world with sessions := emplace world.sessions session.sessionId ref }
  | none => world

/-- `MemorySessionStorage::Update`. -/
def update (ref : SessionRef) : SessionWorld ρ :=
  match world.heap[ref]? with
  | some session =>
      { world with sessions := assign world.sessions session.sessionId ref }
  | none => world

/-- `MemorySessionStorage::Load`.  An expired entry is erased. -/
def load (sessionId : Bytes) : Option SessionRef × SessionWorld ρ :=
  if sessionId = [] then (none, world)
  else
    match world.sessions.lookup sessionId with
    | none => (none, world)
    | some ref =>
        match world.heap[ref]? with
        | none => (none, world)
        | some session =>
            if session.isExpired world.clock then
              (none, { world with sessions := world.sessions.erase sessionId })
            else (some ref, world)

/-- `SessionManager::DestroySession`, which is `MemorySessionStorage::Remove`. -/
def destroySession (sessionId : Bytes) : SessionWorld ρ :=
  { world with sessions := world.sessions.erase sessionId }

def addSession (ref : SessionRef) : SessionWorld ρ := world.save ref

def updateSession (ref : SessionRef) : SessionWorld ρ := world.update ref

/-- The world after a session has been constructed. -/
def construct (sessionId : Bytes) (sessionManager : Bool) (maxAge : Int)
    (indeterminate : Int32) : SessionWorld ρ :=
  { world with
    heap := world.heap ++
      [Session.new sessionId sessionManager maxAge world.clock indeterminate.toInt] }

/-- `Session::SetValue`: the object changes, and its manager, if it has one,
stores it again. -/
def setValue (ref : SessionRef) (key value : Bytes) : SessionWorld ρ :=
  let changed := world.modify ref fun session =>
    { session with sessionData := assign session.sessionData key value }
  match changed.heap[ref]? with
  | some session => if session.sessionManager then changed.updateSession ref else changed
  | none => changed

/-- The part of `GetSession` that makes a new session. -/
def createSession (source : RandomSource ρ) (response : HttpResponse) :
    SessionWorld ρ × SessionRef × HttpResponse :=
  let generated := SessionManager.generateSessionId source world.randomGenerator
  let session := Session.new generated.1 true Session.defaultMaxAge world.clock 0
  let response := SessionManager.setSessionCookie generated.1 response
  let ref := world.heap.length
  let allocated : SessionWorld ρ :=
    { world with
      heap := world.heap ++ [session.refresh world.clock]
      randomGenerator := generated.2 }
  (allocated.addSession ref, ref, response)

/-- `SessionManager::GetSession`.  The condition on the loaded pointer reads
`!session_ptr && !session_ptr->IsExpired()`: with a null pointer it goes on to
dereference it, which is the `none` here, and with any other it is false, so
that the session is not used. -/
def getSession (source : RandomSource ρ) (request : HttpRequest)
    (response : HttpResponse) : Option (SessionWorld ρ × SessionRef × HttpResponse) :=
  let sessionId := SessionManager.getSessionIdFromRequestCookie request
  if sessionId ≠ [] then
    match world.load sessionId with
    | (none, _) => none
    | (some _, loaded) => some (loaded.createSession source response)
  else some (world.createSession source response)

end SessionWorld

end CuteHttpServer
