/-
Which handler a request gets, said of the history of registrations: the four
tables are what a search through that history sees.
-/
import CuteHttpServer.Router

namespace CuteHttpServer

open ByteString EcmaScript KeyedMap

namespace Registration

variable {H : Type}

/-- What the groups of a dynamic route capture on the path of a request. -/
def captures (registration : Registration H) (request : HttpRequest) :
    Option (List (Option Bytes)) :=
  match Router.convertToRegex registration.path with
  | .ok pathRegex => pathRegex.regexMatch request.getPath
  | .error _ => none

/-- The registered route is one for this request: an equal path for a static
route, a pattern that compiles and matches for a dynamic one. -/
def accepts (request : HttpRequest) (registration : Registration H) : Bool :=
  registration.method = request.getMethod &&
    if registration.table.isDynamic then (registration.captures request).isSome
    else registration.path = request.getPath

/-- The request as the handler of the route gets it. -/
def requestFor (registration : Registration H) (request : HttpRequest) : HttpRequest :=
  if registration.table.isDynamic then
    match registration.captures request with
    | some captures => Router.extractPathParams 1 captures request
    | none => request
  else request

/-- The first registration in a table that is one for the request. -/
def firstIn (registrations : List (Registration H)) (request : HttpRequest)
    (table : RouteTable) : Option (Registration H) :=
  registrations.find? fun registration =>
    registration.table = table && registration.accepts request

/-- The registration whose handler gets the request: the earliest one of the
first table that has any. -/
def chosen (registrations : List (Registration H)) (request : HttpRequest) :
    Option (Registration H) :=
  RouteTable.all.findSome? (firstIn registrations request)

theorem of_chosen {registrations : List (Registration H)} {request : HttpRequest}
    {registration : Registration H} (h : chosen registrations request = some registration) :
    registration ∈ registrations ∧ registration.accepts request = true := by
  obtain ⟨table, _, hfirst⟩ := List.exists_of_findSome?_eq_some h
  have hfound := List.find?_some hfirst
  rw [Bool.and_eq_true] at hfound
  exact ⟨List.mem_of_find?_eq_some hfirst, hfound.2⟩

theorem chosen_singleton {registration : Registration H} {request : HttpRequest}
    (h : registration.accepts request = true) :
    chosen [registration] request = some registration := by
  cases htable : registration.table with
  | handlers => simp [chosen, RouteTable.all, firstIn, htable, h]
  | callbacks => simp [chosen, RouteTable.all, firstIn, htable, h]
  | regexHandlers => simp [chosen, RouteTable.all, firstIn, htable, h]
  | regexCallbacks => simp [chosen, RouteTable.all, firstIn, htable, h]

/-- The same registration of another handler. -/
def mapHandler {H' : Type} (f : H → H') (registration : Registration H) : Registration H' :=
  ⟨registration.table, registration.method, registration.path, f registration.handler⟩

/-- Which route is chosen does not depend on the handlers. -/
theorem chosen_map {H' : Type} (f : H → H') (registrations : List (Registration H))
    (request : HttpRequest) :
    chosen (registrations.map (mapHandler f)) request =
      (chosen registrations request).map (mapHandler f) := by
  have hfirst : firstIn (registrations.map (mapHandler f)) request =
      fun table => (firstIn registrations request table).map (mapHandler f) := by
    funext table
    unfold firstIn
    rw [List.find?_map]
    rfl
  rw [chosen, hfirst, chosen, List.map_findSome?]
  rfl

/-- The key and handler of a registration in a static table. -/
def staticField (table : RouteTable) (registration : Registration H) :
    Option (RouteKey × H) :=
  if registration.table = table then
    some (⟨registration.method, registration.path⟩, registration.handler)
  else none

/-- The entry that a registration makes in a dynamic table. -/
def dynamicEntry (table : RouteTable) (registration : Registration H) :
    Option (DynamicRoute H) :=
  if registration.table = table then
    match Router.convertToRegex registration.path with
    | .ok pathRegex => some ⟨registration.method, pathRegex, registration.handler⟩
    | .error _ => none
  else none

end Registration

namespace Router

open Registration

variable {H : Type}

/-- What a registration does to each of the tables. -/
theorem register_tables (router : Router H) (registration : Registration H) :
    (router.register registration).handlers =
        emplaceAll router.handlers (staticField .handlers registration).toList ∧
      (router.register registration).callbacks =
        emplaceAll router.callbacks (staticField .callbacks registration).toList ∧
      (router.register registration).regexHandlers =
        router.regexHandlers ++ (dynamicEntry .regexHandlers registration).toList ∧
      (router.register registration).regexCallbacks =
        router.regexCallbacks ++ (dynamicEntry .regexCallbacks registration).toList := by
  obtain ⟨table, method, path, handler⟩ := registration
  cases table with
  | handlers => simp [register, registerHandler, staticField, dynamicEntry, emplaceAll]
  | callbacks => simp [register, registerCallback, staticField, dynamicEntry, emplaceAll]
  | regexHandlers =>
      cases hregex : convertToRegex path with
      | error e =>
          simp [register, registerRegexHandler, staticField, dynamicEntry, emplaceAll, hregex,
            Except.bind, bind]
      | ok pathRegex =>
          simp [register, registerRegexHandler, staticField, dynamicEntry, emplaceAll, hregex,
            Except.bind, bind]
  | regexCallbacks =>
      cases hregex : convertToRegex path with
      | error e =>
          simp [register, registerRegexCallback, staticField, dynamicEntry, emplaceAll, hregex,
            Except.bind, bind]
      | ok pathRegex =>
          simp [register, registerRegexCallback, staticField, dynamicEntry, emplaceAll, hregex,
            Except.bind, bind]

/-- And what a history of registrations does. -/
theorem foldl_register_tables (router : Router H) (registrations : List (Registration H)) :
    (registrations.foldl register router).handlers =
        emplaceAll router.handlers (registrations.filterMap (staticField .handlers)) ∧
      (registrations.foldl register router).callbacks =
        emplaceAll router.callbacks (registrations.filterMap (staticField .callbacks)) ∧
      (registrations.foldl register router).regexHandlers =
        router.regexHandlers ++ registrations.filterMap (dynamicEntry .regexHandlers) ∧
      (registrations.foldl register router).regexCallbacks =
        router.regexCallbacks ++ registrations.filterMap (dynamicEntry .regexCallbacks) := by
  induction registrations generalizing router with
  | nil => simp [emplaceAll]
  | cons registration rest ih =>
      have hsplit : ∀ {β : Type} (f : Registration H → Option β),
          (registration :: rest).filterMap f = (f registration).toList ++ rest.filterMap f := by
        intro β f
        cases hfield : f registration <;> simp [hfield]
      obtain ⟨hhandlers, hcallbacks, hregexHandlers, hregexCallbacks⟩ :=
        register_tables router registration
      have hlater := ih (router.register registration)
      rw [hhandlers, hcallbacks, hregexHandlers, hregexCallbacks] at hlater
      simp only [List.foldl_cons, hsplit, emplaceAll_append, ← List.append_assoc]
      exact hlater

/-- A lookup in a static table is a search through the history. -/
theorem fieldValue_staticField (registrations : List (Registration H)) (request : HttpRequest)
    {table : RouteTable} (htable : table.isDynamic = false) :
    fieldValue (registrations.filterMap (staticField table))
        ⟨request.getMethod, request.getPath⟩ =
      (firstIn registrations request table).map Registration.handler := by
  induction registrations with
  | nil => rfl
  | cons registration rest ih =>
      unfold firstIn at ih ⊢
      by_cases hmine : registration.table = table
      · have hfield : staticField table registration =
            some (⟨registration.method, registration.path⟩, registration.handler) :=
          if_pos hmine
        rw [List.filterMap_cons_some hfield, fieldValue_cons, ih, List.find?_cons]
        by_cases hkey : registration.method = request.getMethod ∧
            registration.path = request.getPath
        · simp [hmine, htable, accepts, hkey]
        · have hother : (⟨request.getMethod, request.getPath⟩ : RouteKey) ≠
              ⟨registration.method, registration.path⟩ := by
            rw [ne_eq, RouteKey.mk.injEq]
            exact fun hsame => hkey ⟨hsame.1.symm, hsame.2.symm⟩
          have hrefused : registration.accepts request = false := by
            simpa [accepts, hmine, htable] using hkey
          simp [hother, hrefused]
      · have hfield : staticField table registration = none := if_neg hmine
        rw [List.filterMap_cons_none hfield, ih, List.find?_cons]
        simp [hmine]

section Route

variable {m : Type → Type} [Monad m] (call : H → HttpRequest → m Unit)

/-- Invoke the handler of a registration, if there is one. -/
def invoke (request : HttpRequest) : Option (Registration H) → m Bool → m Bool
  | some registration, _ => do
      call registration.handler (registration.requestFor request)
      pure true
  | none, otherwise => otherwise

/-- The search through a dynamic table is one through the history, too. -/
theorem tryRoutes_dynamicEntry (registrations : List (Registration H))
    (request : HttpRequest) {table : RouteTable} (htable : table.isDynamic = true)
    (otherwise : m Bool) :
    tryRoutes call request (registrations.filterMap (dynamicEntry table)) otherwise =
      invoke call request (firstIn registrations request table) otherwise := by
  induction registrations with
  | nil => rfl
  | cons registration rest ih =>
      unfold firstIn at ih ⊢
      rw [List.find?_cons]
      by_cases hmine : registration.table = table
      · cases hregex : convertToRegex registration.path with
        | error e =>
            have hentry : dynamicEntry table registration = none := by
              simp [dynamicEntry, hmine, hregex]
            have hrefused : registration.accepts request = false := by
              simp [accepts, hmine, htable, captures, hregex]
            rw [List.filterMap_cons_none hentry, ih]
            simp [hrefused]
        | ok pathRegex =>
            have hentry : dynamicEntry table registration =
                some ⟨registration.method, pathRegex, registration.handler⟩ := by
              simp [dynamicEntry, hmine, hregex]
            have hcaptures : registration.captures request =
                pathRegex.regexMatch request.getPath := by simp [captures, hregex]
            rw [List.filterMap_cons_some hentry, tryRoutes]
            by_cases hmethod : registration.method = request.getMethod
            · cases hmatch : pathRegex.regexMatch request.getPath with
              | none => simp [accepts, hmine, htable, hcaptures, hmatch, hmethod, ih]
              | some captured =>
                  simp [accepts, hmine, htable, hcaptures, hmatch, hmethod, invoke, requestFor]
            · simp [accepts, hmethod, ih]
      · have hentry : dynamicEntry table registration = none := by
          simp [dynamicEntry, hmine]
        rw [List.filterMap_cons_none hentry, ih]
        simp [hmine]

/-- `Route` on the router that a history of registrations makes. -/
theorem route_ofRegistrations (registrations : List (Registration H))
    (request : HttpRequest) :
    (ofRegistrations registrations).route call request =
      invoke call request (chosen registrations request) (pure false) := by
  obtain ⟨hhandlers, hcallbacks, hregexHandlers, hregexCallbacks⟩ :=
    foldl_register_tables empty registrations
  have hhandler : (ofRegistrations registrations).handlers.lookup
      ⟨request.getMethod, request.getPath⟩ =
        (firstIn registrations request .handlers).map Registration.handler := by
    rw [ofRegistrations, hhandlers, lookup_emplaceAll, fieldValue_staticField _ _ rfl]
    rfl
  have hcallback : (ofRegistrations registrations).callbacks.lookup
      ⟨request.getMethod, request.getPath⟩ =
        (firstIn registrations request .callbacks).map Registration.handler := by
    rw [ofRegistrations, hcallbacks, lookup_emplaceAll, fieldValue_staticField _ _ rfl]
    rfl
  have hdynamic : tryRoutes call request (ofRegistrations registrations).regexHandlers
      (tryRoutes call request (ofRegistrations registrations).regexCallbacks (pure false)) =
        invoke call request (firstIn registrations request .regexHandlers)
          (invoke call request (firstIn registrations request .regexCallbacks)
            (pure false)) := by
    rw [ofRegistrations, hregexHandlers, hregexCallbacks]
    exact (tryRoutes_dynamicEntry call registrations request rfl _).trans
      (congrArg _ (tryRoutes_dynamicEntry call registrations request rfl _))
  have hstatic : ∀ {table : RouteTable} {registration : Registration H},
      table.isDynamic = false → firstIn registrations request table = some registration →
        registration.requestFor request = request := by
    intro table registration htable hfirst
    have hmine := List.find?_some hfirst
    simp only [Bool.and_eq_true, decide_eq_true_eq] at hmine
    simp [requestFor, hmine.1, htable]
  simp only [route, chosen, RouteTable.all, List.findSome?_cons, List.findSome?_nil,
    hhandler, hcallback, hdynamic]
  cases hfirst : firstIn registrations request .handlers with
  | some registration => simp [invoke, hstatic rfl hfirst]
  | none =>
      cases hsecond : firstIn registrations request .callbacks with
      | some registration => simp [invoke, hstatic rfl hsecond]
      | none =>
          cases firstIn registrations request .regexHandlers with
          | some registration => rfl
          | none =>
              cases firstIn registrations request .regexCallbacks with
              | some registration => rfl
              | none => rfl

end Route

/-- Two histories with the same registrations of each dynamic table in the same
order, and the same first registration of every key of each static one. -/
structure AgreeInTables (registrations registrations' : List (Registration H)) : Prop where
  dynamicTable : ∀ table : RouteTable, table.isDynamic = true →
    registrations.filter (fun registration => registration.table = table) =
      registrations'.filter (fun registration => registration.table = table)
  staticTable : ∀ table : RouteTable, table.isDynamic = false → ∀ method path,
    let isFor (registration : Registration H) : Bool :=
      registration.table = table && (registration.method = method && registration.path = path)
    registrations.find? isFor = registrations'.find? isFor

theorem AgreeInTables.firstIn_eq {registrations registrations' : List (Registration H)}
    (h : AgreeInTables registrations registrations') (request : HttpRequest)
    (table : RouteTable) :
    firstIn registrations request table = firstIn registrations' request table := by
  cases htable : table.isDynamic with
  | true =>
      have hfilter : ∀ history : List (Registration H), firstIn history request table =
          (history.filter fun registration => registration.table = table).find?
            (Registration.accepts request) := by
        intro history
        rw [firstIn, List.find?_filter]
        simp only [Bool.decide_and, decide_eq_true_eq, Bool.decide_eq_true]
      rw [hfilter, hfilter, h.dynamicTable table htable]
  | false =>
      have hkey : ∀ history : List (Registration H), firstIn history request table =
          history.find? fun registration => registration.table = table &&
            (registration.method = request.getMethod &&
              registration.path = request.getPath) := by
        intro history
        apply congrArg fun isFor => history.find? isFor
        funext registration
        by_cases hmine : registration.table = table
        · simp [accepts, hmine, htable]
        · simp [hmine]
      rw [hkey, hkey]
      exact h.staticTable table htable request.getMethod request.getPath

/-- A request goes to the handler of one registration and to no other, or to
none; which one depends on the four tables alone. -/
theorem route_resolves (registrations : List (Registration H)) :
    (∀ (request : HttpRequest) {m : Type → Type} [Monad m]
        (call : H → HttpRequest → m Unit),
      (ofRegistrations registrations).route call request =
        match chosen registrations request with
        | some registration => do
            call registration.handler (registration.requestFor request)
            pure true
        | none => pure false) ∧
      ∀ registrations' : List (Registration H),
        AgreeInTables registrations registrations' →
          ∀ (request : HttpRequest) {m : Type → Type} [Monad m]
            (call : H → HttpRequest → m Unit),
          (ofRegistrations registrations).route call request =
            (ofRegistrations registrations').route call request := by
  refine ⟨?_, ?_⟩
  · intro request m _ call
    rw [route_ofRegistrations]
    cases chosen registrations request with
    | some registration => rfl
    | none => rfl
  · intro registrations' hagree request m _ call
    have hchosen : chosen registrations request = chosen registrations' request := by
      have hfirst : firstIn registrations request = firstIn registrations' request :=
        funext (hagree.firstIn_eq request)
      rw [chosen, chosen, hfirst]
    rw [route_ofRegistrations, route_ofRegistrations, hchosen]

/-- A static route between two dynamic ones, registered twice. -/
def mixedHistory : List (Registration Nat) :=
  [⟨.regexHandlers, .kGet, ascii "/:page", 1⟩, ⟨.handlers, .kGet, ascii "/a", 2⟩,
    ⟨.regexCallbacks, .kGet, ascii "/:page", 3⟩, ⟨.handlers, .kGet, ascii "/a", 4⟩]

/-- The same tables from another order of calls. -/
def sortedHistory : List (Registration Nat) :=
  [⟨.handlers, .kGet, ascii "/a", 2⟩, ⟨.regexCallbacks, .kGet, ascii "/:page", 3⟩,
    ⟨.regexHandlers, .kGet, ascii "/:page", 1⟩]

theorem agreeInTables_sorted : AgreeInTables mixedHistory sortedHistory where
  dynamicTable := by
    intro table htable
    cases table with
    | handlers => exact absurd htable (by decide)
    | callbacks => exact absurd htable (by decide)
    | regexHandlers => rfl
    | regexCallbacks => rfl
  staticTable := by
    intro table htable method path
    cases table with
    | handlers =>
        cases hkey : (decide (HttpRequestMethod.kGet = method) && decide (ascii "/a" = path)) with
        | true => simp [mixedHistory, sortedHistory, hkey]
        | false => simp [mixedHistory, sortedHistory, hkey]
    | callbacks => rfl
    | regexHandlers => exact absurd htable (by decide)
    | regexCallbacks => exact absurd htable (by decide)

theorem route_resolves_sorted :
    let request := { HttpRequest.new 0 with method := .kGet, path := ascii "/a" }
    let call : Nat → HttpRequest → StateM (List Nat) Unit :=
      fun handler _ => modify (handler :: ·)
    (ofRegistrations mixedHistory).route call request =
        (ofRegistrations sortedHistory).route call request ∧
      ((ofRegistrations mixedHistory).route call request).run [] = (true, [2]) :=
  ⟨(route_resolves mixedHistory).2 sortedHistory agreeInTables_sorted _ _, rfl⟩

end Router

end CuteHttpServer
