/-
The calls by which a server is set up, in any order and also between requests.
What a request meets is what the calls so far say: the callback that was set
last, or else the middlewares in their order and the routes by their history.
-/
import CuteHttpServer.RequestHandling
import CuteHttpServer.SslConnections

namespace CuteHttpServer

open ByteString KeyedMap StepRun Registration

/-- The public calls about callbacks, routes and middlewares.  `Get` and `Post`
come with a callback and with a handler object, like `AddRoute`. -/
inductive FacadeCall (σ : Type)
  | setHttpCallback (cb : HttpCallback σ)
  | get (path : Bytes) (cb : RequestHandler σ)
  | getHandler (path : Bytes) (handler : RequestHandler σ)
  | post (path : Bytes) (cb : RequestHandler σ)
  | postHandler (path : Bytes) (handler : RequestHandler σ)
  | addRoute (method : HttpRequestMethod) (path : Bytes) (handler : RequestHandler σ)
  | addRouteCallback (method : HttpRequestMethod) (path : Bytes) (cb : RequestHandler σ)
  | addMiddleware (middleware : Middleware σ)

/-- The members that these calls change.  Without a callback of its own the
server has the constructor's, which looks at the other two when it is called. -/
structure ServerFacade (σ : Type) where
  httpCallback : Option (HttpCallback σ)
  router : Router (RequestHandler σ)
  middlewareChain : List (Middleware σ)

namespace ServerFacade

variable {σ : Type}

def new : ServerFacade σ := ⟨none, Router.empty, []⟩

def setHttpCallback (facade : ServerFacade σ) (cb : HttpCallback σ) : ServerFacade σ :=
  { facade with httpCallback := some cb }

def get (facade : ServerFacade σ) (path : Bytes) (cb : RequestHandler σ) : ServerFacade σ :=
  { facade with router := facade.router.registerCallback .kGet path cb }

def getHandler (facade : ServerFacade σ) (path : Bytes) (handler : RequestHandler σ) :
    ServerFacade σ :=
  { facade with router := facade.router.registerHandler .kGet path handler }

def post (facade : ServerFacade σ) (path : Bytes) (cb : RequestHandler σ) : ServerFacade σ :=
  { facade with router := facade.router.registerCallback .kPost path cb }

def postHandler (facade : ServerFacade σ) (path : Bytes) (handler : RequestHandler σ) :
    ServerFacade σ :=
  { facade with router := facade.router.registerHandler .kPost path handler }

def addRoute (facade : ServerFacade σ) (method : HttpRequestMethod) (path : Bytes)
    (handler : RequestHandler σ) : Except EcmaScript.SyntaxError (ServerFacade σ) := do
  let router ← facade.router.registerRegexHandler method path handler
  .ok { facade with router := router }

def addRouteCallback (facade : ServerFacade σ) (method : HttpRequestMethod) (path : Bytes)
    (cb : RequestHandler σ) : Except EcmaScript.SyntaxError (ServerFacade σ) := do
  let router ← facade.router.registerRegexCallback method path cb
  .ok { facade with router := router }

def addMiddleware (facade : ServerFacade σ) (middleware : Middleware σ) : ServerFacade σ :=
  { facade with middlewareChain := facade.middlewareChain ++ [middleware] }

/-- A call of any of them.  One that throws has changed nothing. -/
def apply (facade : ServerFacade σ) : FacadeCall σ → ServerFacade σ
  | .setHttpCallback cb => facade.setHttpCallback cb
  | .get path cb => facade.get path cb
  | .getHandler path handler => facade.getHandler path handler
  | .post path cb => facade.post path cb
  | .postHandler path handler => facade.postHandler path handler
  | .addRoute method path handler =>
      match facade.addRoute method path handler with
      | .ok facade => facade
      | .error _ => facade
  | .addRouteCallback method path cb =>
      match facade.addRouteCallback method path cb with
      | .ok facade => facade
      | .error _ => facade
  | .addMiddleware middleware => facade.addMiddleware middleware

/-- What `http_callback_` does. -/
def callback (facade : ServerFacade σ) : HttpCallback σ :=
  facade.httpCallback.getD (HttpServer.handleRequest facade.middlewareChain facade.router)

end ServerFacade

namespace FacadeCall

variable {σ : Type}

def callback : FacadeCall σ → Option (HttpCallback σ)
  | setHttpCallback cb => some cb
  | _ => none

def middleware : FacadeCall σ → Option (Middleware σ)
  | addMiddleware middleware => some middleware
  | _ => none

def registration : FacadeCall σ → Option (Registration (RequestHandler σ))
  | get path cb => some ⟨.callbacks, .kGet, path, cb⟩
  | getHandler path handler => some ⟨.handlers, .kGet, path, handler⟩
  | post path cb => some ⟨.callbacks, .kPost, path, cb⟩
  | postHandler path handler => some ⟨.handlers, .kPost, path, handler⟩
  | addRoute method path handler => some ⟨.regexHandlers, method, path, handler⟩
  | addRouteCallback method path cb => some ⟨.regexCallbacks, method, path, cb⟩
  | _ => none

/-- What a call does to each of the members. -/
theorem apply_eq (facade : ServerFacade σ) (call : FacadeCall σ) :
    facade.apply call =
      ⟨call.callback.or facade.httpCallback,
        call.registration.toList.foldl Router.register facade.router,
        facade.middlewareChain ++ call.middleware.toList⟩ := by
  obtain ⟨cb, router, chain⟩ := facade
  have hkept : chain = chain ++ [] := (List.append_nil chain).symm
  cases call with
  | setHttpCallback cb' => exact congrArg (ServerFacade.mk _ _) hkept
  | get path cb' => exact congrArg (ServerFacade.mk _ _) hkept
  | getHandler path handler => exact congrArg (ServerFacade.mk _ _) hkept
  | post path cb' => exact congrArg (ServerFacade.mk _ _) hkept
  | postHandler path handler => exact congrArg (ServerFacade.mk _ _) hkept
  | addRoute method path handler =>
      rw [ServerFacade.apply, ServerFacade.addRoute]
      simp only [registration, Option.toList_some, List.foldl_cons, List.foldl_nil,
        Router.register]
      cases hregex : router.registerRegexHandler method path handler with
      | error e => exact congrArg (ServerFacade.mk _ _) hkept
      | ok router' => exact congrArg (ServerFacade.mk _ _) hkept
  | addRouteCallback method path cb' =>
      rw [ServerFacade.apply, ServerFacade.addRouteCallback]
      simp only [registration, Option.toList_some, List.foldl_cons, List.foldl_nil,
        Router.register]
      cases hregex : router.registerRegexCallback method path cb' with
      | error e => exact congrArg (ServerFacade.mk _ _) hkept
      | ok router' => exact congrArg (ServerFacade.mk _ _) hkept
  | addMiddleware middleware => rfl

end FacadeCall

variable {σ T B : Type} [Buffer B]

/-- The callback that a history of calls makes. -/
def servedBy (calls : List (FacadeCall σ)) : HttpCallback σ :=
  (calls.reverse.findSome? FacadeCall.callback).getD
    (HttpServer.handleRequest (calls.filterMap FacadeCall.middleware)
      (Router.ofRegistrations (calls.filterMap FacadeCall.registration)))

theorem ServerFacade.foldl_apply (calls : List (FacadeCall σ)) (facade : ServerFacade σ) :
    calls.foldl apply facade =
      ⟨(calls.reverse.findSome? FacadeCall.callback).or facade.httpCallback,
        (calls.filterMap FacadeCall.registration).foldl Router.register facade.router,
        facade.middlewareChain ++ calls.filterMap FacadeCall.middleware⟩ := by
  have hsplit : ∀ {β : Type} (f : FacadeCall σ → Option β) call rest,
      (call :: rest).filterMap f = (f call).toList ++ rest.filterMap f := by
    intro β f call rest
    cases hfield : f call <;> simp [hfield]
  induction calls generalizing facade with
  | nil => simp
  | cons call rest ih =>
      rw [List.foldl_cons, ih, FacadeCall.apply_eq, List.reverse_cons, List.findSome?_append,
        List.findSome?_singleton, Option.or_assoc, hsplit, hsplit, List.foldl_append,
        List.append_assoc]

theorem ServerFacade.callback_ofCalls (calls : List (FacadeCall σ)) :
    (calls.foldl apply new).callback = servedBy calls := by
  rw [foldl_apply, callback, new, Option.or_none, List.nil_append]
  rfl

/-- A call, or what the server is called for by its connections. -/
inductive HostEvent (σ : Type)
  | setUp (call : FacadeCall σ)
  | serve (event : SslEvent)

def HostEvent.call : HostEvent σ → Option (FacadeCall σ)
  | setUp call => some call
  | serve _ => none

/-- A server with its members and its connections. -/
structure Host (σ T B : Type) where
  facade : ServerFacade σ
  state : SslServer σ T B

/-- A server that only remembers the calls. -/
structure HistoryHost (σ T B : Type) where
  calls : List (FacadeCall σ)
  state : SslServer σ T B

/-- The members after these calls. -/
def HistoryHost.built (history : HistoryHost σ T B) : Host σ T B :=
  ⟨history.calls.foldl ServerFacade.apply .new, history.state⟩

section Steps

variable (order : IterationOrder Bytes Bytes) (methods : SslMethods T B)

def Host.step (host : Host σ T B) : HostEvent σ → Option (Host σ T B × Handled)
  | .setUp call => some ({ host with facade := host.facade.apply call }, ⟨none, []⟩)
  | .serve event =>
      (host.state.step ⟨host.facade.callback, order⟩ methods event).map fun next =>
        ({ host with state := next.1 }, next.2)

def HistoryHost.step (host : HistoryHost σ T B) :
    HostEvent σ → Option (HistoryHost σ T B × Handled)
  | .setUp call => some ({ host with calls := host.calls ++ [call] }, ⟨none, []⟩)
  | .serve event =>
      (host.state.step ⟨servedBy host.calls, order⟩ methods event).map fun next =>
        ({ host with state := next.1 }, next.2)

/-- One call or event: the members are always those that the calls have made. -/
theorem HistoryHost.step_built (history : HistoryHost σ T B) (event : HostEvent σ) :
    history.built.step order methods event =
      (history.step order methods event).map fun next => (next.1.built, next.2) := by
  cases event with
  | setUp call =>
      have happly : (history.calls ++ [call]).foldl ServerFacade.apply .new =
          (history.calls.foldl ServerFacade.apply .new).apply call := List.foldl_append
      rw [Host.step, HistoryHost.step, Option.map_some, built, built, happly]
  | serve event =>
      simp only [Host.step, HistoryHost.step, built, ServerFacade.callback_ofCalls,
        Option.map_map]
      rfl

variable {order methods} in
/-- The members are changed by the calls of a run and by nothing else in it. -/
theorem Host.facade_run {start final : Host σ T B} {events : List (HostEvent σ)}
    {outputs : List Handled}
    (hrun : tryRunFrom (Host.step order methods) start events = some (final, outputs)) :
    final.facade = (events.filterMap HostEvent.call).foldl ServerFacade.apply start.facade := by
  refine @tryRunFrom_history_invariant _ _ _ (Host.step order methods)
    (fun history host => host.facade =
      (history.filterMap HostEvent.call).foldl ServerFacade.apply start.facade)
    ?_ [] _ _ _ _ rfl hrun
  intro history host event next output hfacade hstep
  rw [List.filterMap_append, List.foldl_append, ← hfacade]
  cases event with
  | setUp call =>
      obtain ⟨rfl, _⟩ := Prod.mk.inj (Option.some.inj hstep)
      rfl
  | serve event =>
      obtain ⟨served, _, hnext⟩ := Option.map_eq_some_iff.mp hstep
      obtain ⟨rfl, _⟩ := Prod.mk.inj hnext
      rfl

end Steps

/-- In every interleaving of calls with what happens on any number of
connections, each request is served as the history of the calls before it says,
routes and middlewares that were added while the server was running included. -/
theorem host_refines_history (order : IterationOrder Bytes Bytes) (methods : SslMethods T B)
    (state : SslServer σ T B) (events : List (HostEvent σ)) :
    let host := tryRunFrom (Host.step order methods) ⟨.new, state⟩ events
    let history := tryRunFrom (HistoryHost.step order methods) ⟨[], state⟩ events
    (host = history.map fun final => (final.1.built, final.2)) ∧
      ∀ final ∈ host,
        final.1.facade.callback = servedBy (events.filterMap HostEvent.call) := by
  intro host history
  have hhost : host = history.map fun final => (final.1.built, final.2) :=
    tryRunFrom_map (HistoryHost.step_built order methods) ⟨[], state⟩ events
  refine ⟨hhost, fun final hfinal => ?_⟩
  rw [Host.facade_run hfinal]
  exact ServerFacade.callback_ofCalls (events.filterMap HostEvent.call)

/-- The place of a table in the order in which `Route` looks at them. -/
def RouteTable.rank : RouteTable → Nat
  | handlers => 0
  | callbacks => 1
  | regexHandlers => 2
  | regexCallbacks => 3

namespace Registration

variable {H : Type}

/-- Of two routes for a request, the later one gets it: it is of an earlier table,
or there is no other. -/
def takesOver : Option (Registration H) → Option (Registration H) → Bool
  | some old, some new => new.table.rank < old.table.rank
  | none, some _ => true
  | _, none => false

theorem table_of_firstIn {registrations : List (Registration H)} {request : HttpRequest}
    {table : RouteTable} {registration : Registration H}
    (h : firstIn registrations request table = some registration) :
    registration.table = table := by
  have hfound := List.find?_some h
  rw [Bool.and_eq_true] at hfound
  exact of_decide_eq_true hfound.1

/-- What a search through tables finds is of one of them. -/
theorem table_mem_of_findSome? {search : RouteTable → Option (Registration H)}
    (hsearch : ∀ table registration, search table = some registration →
      registration.table = table)
    {tables : List RouteTable} {registration : Registration H}
    (h : tables.findSome? search = some registration) : registration.table ∈ tables := by
  obtain ⟨table, htable, hregistration⟩ := List.exists_of_findSome?_eq_some h
  rwa [hsearch table registration hregistration]

/-- Two searches at once find what is in the earlier table, or else what the first
one finds. -/
theorem findSome?_or {search search' : RouteTable → Option (Registration H)}
    (hsearch : ∀ table registration, search table = some registration →
      registration.table = table)
    (hsearch' : ∀ table registration, search' table = some registration →
      registration.table = table)
    {tables : List RouteTable} (htables : tables.Pairwise (·.rank < ·.rank)) :
    tables.findSome? (fun table => (search table).or (search' table)) =
      if takesOver (tables.findSome? search) (tables.findSome? search') then
        tables.findSome? search'
      else tables.findSome? search := by
  induction tables with
  | nil => rfl
  | cons table rest ih =>
      obtain ⟨hfirst, hrest⟩ := List.pairwise_cons.mp htables
      cases hold : search table with
      | some old =>
          have hnot : ∀ new, (table :: rest).findSome? search' = some new →
              ¬ new.table.rank < old.table.rank := by
            intro new hnew
            rw [hsearch table old hold]
            rcases List.mem_cons.mp (table_mem_of_findSome? hsearch' hnew) with hsame | hmem
            · rw [hsame]
              exact Nat.lt_irrefl _
            · exact Nat.not_lt_of_lt (hfirst _ hmem)
          rw [List.findSome?_cons_of_isSome (by simp [hold]), List.findSome?_cons_of_isSome
            (by simp [hold]), hold]
          cases hnew : (table :: rest).findSome? search' with
          | none => rfl
          | some new =>
              have hkept : takesOver (some old) (some new) = false :=
                decide_eq_false (hnot new hnew)
              rw [hkept]
              rfl
      | none =>
          cases hnew : search' table with
          | some new =>
              have hlt : ∀ old, rest.findSome? search = some old →
                  new.table.rank < old.table.rank := by
                intro old hold
                rw [hsearch' table new hnew]
                exact hfirst _ (table_mem_of_findSome? hsearch hold)
              rw [List.findSome?_cons, List.findSome?_cons, List.findSome?_cons, hold, hnew]
              simp only [Option.none_or]
              cases hrestOld : rest.findSome? search with
              | none => rfl
              | some old =>
                  have htaken : takesOver (some old) (some new) = true :=
                    decide_eq_true (hlt old hrestOld)
                  rw [htaken]
                  rfl
          | none =>
              rw [List.findSome?_cons, List.findSome?_cons, List.findSome?_cons, hold, hnew]
              exact ih hrest

/-- Routes that come later get a request only from an earlier table. -/
theorem chosen_append (before after : List (Registration H)) (request : HttpRequest) :
    chosen (before ++ after) request =
      if takesOver (chosen before request) (chosen after request) then chosen after request
      else chosen before request := by
  have hfirst : firstIn (before ++ after) request = fun table =>
      (firstIn before request table).or (firstIn after request table) := by
    funext table
    exact List.find?_append
  rw [chosen, hfirst]
  apply findSome?_or
  · exact fun _ _ => table_of_firstIn
  · exact fun _ _ => table_of_firstIn
  · decide

end Registration

/-- The routes that the calls of a run add. -/
def HostEvent.registrations (events : List (HostEvent σ)) :
    List (Registration (RequestHandler σ)) :=
  (events.filterMap HostEvent.call).filterMap FacadeCall.registration

/-- The router that the calls of a run make. -/
theorem ServerFacade.router_ofCalls (events : List (HostEvent σ)) :
    ((events.filterMap HostEvent.call).foldl apply (new : ServerFacade σ)).router =
      Router.ofRegistrations (HostEvent.registrations events) := by
  rw [foldl_apply]
  rfl

/-- Over any interleaving of calls and events: later the server routes a request as
a new one that is only given the later calls, if these have a route for it of an
earlier table than the one it had, or it had none; otherwise as it did before. -/
theorem route_takenOver (order : IterationOrder Bytes Bytes) (methods : SslMethods T B)
    {start : SslServer σ T B} {before after : List (HostEvent σ)} {middle final : Host σ T B}
    {outputs later : List Handled}
    (hbefore : tryRunFrom (Host.step order methods) ⟨.new, start⟩ before =
      some (middle, outputs))
    (hafter : tryRunFrom (Host.step order methods) middle after = some (final, later))
    (request : HttpRequest) {m : Type → Type} [Monad m]
    (call : RequestHandler σ → HttpRequest → m Unit) :
    let added := (after.filterMap HostEvent.call).foldl ServerFacade.apply .new
    final.facade.router.route call request =
      if takesOver (chosen (HostEvent.registrations before) request)
          (chosen (HostEvent.registrations after) request) then
        added.router.route call request
      else middle.facade.router.route call request := by
  intro added
  have hmiddle : middle.facade.router =
      Router.ofRegistrations (HostEvent.registrations before) := by
    rw [Host.facade_run hbefore, ServerFacade.router_ofCalls]
  have hfinal : final.facade.router =
      Router.ofRegistrations
        (HostEvent.registrations before ++ HostEvent.registrations after) := by
    rw [Host.facade_run hafter, ServerFacade.foldl_apply, hmiddle, Router.ofRegistrations,
      Router.ofRegistrations, List.foldl_append]
    rfl
  have hadded : added.router = Router.ofRegistrations (HostEvent.registrations after) :=
    ServerFacade.router_ofCalls after
  rw [hfinal, hmiddle, hadded, Router.route_ofRegistrations, Router.route_ofRegistrations,
    Router.route_ofRegistrations, chosen_append]
  exact apply_ite (fun found => Router.invoke call request found (pure false)) _ _ _

/-- A page that says the same to each visitor. -/
def page (text : Bytes) : RequestHandler Unit := fun _ =>
  changeResponse fun response => response.setResponseBody text

/-- A page with a callback, on a server that has a visitor. -/
def opened : List (HostEvent Unit) :=
  [.setUp (.get (ascii "/a") (page (ascii "old"))), .serve (.connected 0 0)]

/-- In the middle of a request, the page is given a handler and then another one. -/
def refurbished : List (HostEvent Unit) :=
  [.serve (.message 0 ⟨ascii "GET /a HT", 1⟩),
    .setUp (.getHandler (ascii "/a") (page (ascii "new"))),
    .setUp (.getHandler (ascii "/a") (page (ascii "newer")))]

/-- The visitor is shown the first of them. -/
theorem route_takenOver_refurbished :
    ∃ (middle final : Host Unit Unit Bytes) (outputs later : List Handled),
      tryRunFrom (Host.step .byEntry SslServer.passing) ⟨.new, SslServer.initial () false⟩
        opened = some (middle, outputs) ∧
      tryRunFrom (Host.step .byEntry SslServer.passing) middle refurbished =
        some (final, later) ∧
      let request := { HttpRequest.new 0 with method := .kGet, path := ascii "/a" }
      final.facade.router.route RequestHandler.handle request =
        (do page (ascii "new") request; pure true) := by
  refine ⟨_, _, _, _, rfl, rfl, ?_⟩
  intro request
  have hroute := @route_takenOver Unit Unit Bytes _ .byEntry SslServer.passing
    (SslServer.initial () false) opened refurbished _ _ _ _ rfl rfl request _ _
    RequestHandler.handle
  exact hroute.trans (if_pos (by decide +kernel))

end CuteHttpServer
