/-
The whole way of a request for a resource: from the path that is written with
values in a route's placeholders, over the reads, the middlewares, the router
and the handler, to what the client reads back.
-/
import CuteHttpServer.RequestExchange
import CuteHttpServer.ReverseRouting

namespace CuteHttpServer

open ByteString DelimitedText KeyedMap StepRun Registration

variable {σ B : Type} [Buffer B]

namespace CorsMiddleware

/-- The headers that a middleware adds to the response of a handler. -/
def actualFields (config : CorsConfig) : List (Bytes × Bytes) :=
  config.allowedOrigins.head?.elim [] fun first =>
    corsFields config (if isOriginAllowed config anyOrigin then anyOrigin else first)

theorem corsResponse_fields (config : CorsConfig) (response : HttpResponse) :
    corsResponse config response =
      { response with
        responseHeaders := emplaceAll response.responseHeaders (actualFields config) } := by
  have hany : isOriginAllowed config anyOrigin = true ↔ anyOrigin ∈ config.allowedOrigins := by
    rw [isOriginAllowed_iff, or_self]
  unfold corsResponse actualFields
  simp only [hany]
  cases config.allowedOrigins with
  | nil => rfl
  | cons first rest =>
      simp only [addCorsHeaders_eq]
      split
      · rfl
      · rfl

/-- A response with the headers of these middlewares, in the order in which they
add them. -/
def addActualFields (configs : List CorsConfig) (response : HttpResponse) : HttpResponse :=
  { response with
    responseHeaders := emplaceAll response.responseHeaders (configs.flatMap actualFields) }

theorem handleResponses_fields (configs : List CorsConfig) (memory : HandlerMemory σ) :
    MiddlewareChain.handleResponses (configs.map new) memory =
      .ok () ⟨memory.handlers, addActualFields configs memory.response⟩ := by
  induction configs generalizing memory with
  | nil => rfl
  | cons config configs ih =>
      have hchange : (new config : Middleware σ).handleResponse memory =
          .ok () ⟨memory.handlers, corsResponse config memory.response⟩ := rfl
      have hfields : addActualFields configs (corsResponse config memory.response) =
          addActualFields (config :: configs) memory.response := by
        rw [addActualFields, addActualFields, corsResponse_fields, List.flatMap_cons,
          emplaceAll_append]
      rw [List.map_cons, MiddlewareChain.handleResponses]
      simp only [bind, EStateM.bind, hchange]
      rw [ih, hfields]

/-- The last middleware of the chain adds its headers first. -/
theorem processResponse_fields (configs : List CorsConfig) (memory : HandlerMemory σ) :
    MiddlewareChain.processResponse (configs.map new) memory =
      .ok () ⟨memory.handlers, addActualFields configs.reverse memory.response⟩ := by
  rw [MiddlewareChain.processResponse, ← List.map_reverse, handleResponses_fields]

theorem headText_actualFields {config : CorsConfig} (hconfig : config.HeadClean) :
    ∀ field ∈ actualFields config, field.1 ≠ contentLengthName ∧
      HeadText field.1 ∧ HeadText field.2 ∧ 58 ∉ field.1 := by
  unfold actualFields
  cases horigins : config.allowedOrigins with
  | nil => exact fun _ hfield => absurd hfield List.not_mem_nil
  | cons first rest =>
      have hfirst : HeadText first := hconfig first (by simp [horigins])
      have hany : HeadText anyOrigin := by decide +kernel
      apply headText_corsFields hconfig
      split
      · exact hany
      · exact hfirst

end CorsMiddleware

/-- What a client is to read of a response that a handler has left, behind these
middlewares: a header of the handler's own comes before theirs. -/
structure ShowsBehind (configs : List CorsConfig) (response : HttpResponse)
    (answer : DecodedResponse) : Prop where
  version : answer.version = response.httpVersion
  statusCode : answer.statusCode = response.statusCode.toInt
  statusMessage : answer.statusMessage = response.statusMessage
  fields : ∀ name, fieldValue answer.fields name =
    ((response.responseHeaders.lookup name).or
      (fieldValue (configs.reverse.flatMap CorsMiddleware.actualFields) name)).or
        (if name = HttpResponse.connectionName then some response.connectionField.2 else none)
  body : answer.body = response.responseBody

namespace HttpServer

variable {configs : List CorsConfig} {registrations : List (Registration (RequestHandler σ))}
  {registration : Registration (RequestHandler σ)} {request : HttpRequest} {handlers : σ}
  {response : HttpResponse} {memory : HandlerMemory σ}

/-- The handler of the chosen route returns: its response is completed by the
middlewares. -/
theorem answer_returned (hpasses : configs = [] ∨ request.getMethod ≠ .kOptions)
    (hchosen : chosen registrations request = some registration)
    (hreturned : registration.handler.handle (registration.requestFor request)
      ⟨handlers, response⟩ = .ok () memory) :
    answer configs registrations handlers request response =
      CorsMiddleware.addActualFields configs.reverse memory.response := by
  have hroute := route_chosen hchosen ⟨handlers, response⟩
  rw [hreturned] at hroute
  have htried := tryHandleRequest_handled
    (CorsMiddleware.processRequest_passes hpasses ⟨handlers, response⟩) hroute
  rw [answer, handleRequest, htried, CorsMiddleware.processResponse_fields]

/-- The client can tell its end when it can tell that of the handler's. -/
theorem delimited_addActualFields (hconfigs : ∀ config ∈ configs, config.HeadClean)
    (hdelimited : response.Delimited) :
    (CorsMiddleware.addActualFields configs response).Delimited where
  toFramed := by
    apply hdelimited.toFramed.addHeaders
    intro field hfield
    obtain ⟨config, hconfig, hfield⟩ := List.mem_flatMap.mp hfield
    exact CorsMiddleware.headText_actualFields (hconfigs config hconfig) field hfield
  closes hnone := by
    rw [CorsMiddleware.addActualFields, lookup_emplaceAll] at hnone
    exact hdelimited.closes (Option.or_eq_none_iff.mp hnone).1

theorem showsBehind_decoded (configs : List CorsConfig) (response : HttpResponse)
    (order : IterationOrder Bytes Bytes) :
    ShowsBehind configs response
      ((CorsMiddleware.addActualFields configs.reverse response).decoded order) where
  version := rfl
  statusCode := rfl
  statusMessage := rfl
  fields name := by
    rw [HttpResponse.decoded, HttpResponse.fieldValue_written, CorsMiddleware.addActualFields,
      lookup_emplaceAll]
    rfl
  body := rfl

end HttpServer

namespace Registration

variable {H : Type} {request request' : HttpRequest}

/-- The choice of a route looks at the method and the path only. -/
theorem chosen_congr (registrations : List (Registration H))
    (hmethod : request.getMethod = request'.getMethod)
    (hpath : request.getPath = request'.getPath) :
    chosen registrations request = chosen registrations request' := by
  have haccepts : ∀ registration : Registration H,
      registration.accepts request = registration.accepts request' := by
    intro registration
    rw [accepts, accepts, captures, captures, hmethod, hpath]
  have hfirst : firstIn registrations request = firstIn registrations request' := by
    funext table
    simp only [firstIn, haccepts]
  rw [chosen, chosen, hfirst]

/-- The router chooses this route for a request, whose path is the route's
pattern with these values in the placeholders. -/
structure ChosenFor (registrations : List (Registration H)) (registration : Registration H)
    (segments : List Segment) (values : List Bytes) (request : HttpRequest) : Prop where
  chosen : Registration.chosen registrations request = some registration
  table : registration.table.isDynamic = true
  segments_wellFormed : ∀ segment ∈ segments, segment.WellFormed
  pattern : registration.path = Segment.pattern segments
  values_count : values.length = Segment.placeholderCount segments
  values_free : ∀ value ∈ values, value ≠ [] ∧ 47 ∉ value
  path : request.getPath = Segment.path segments values

namespace ChosenFor

variable {registrations : List (Registration H)} {registration : Registration H}
  {segments : List Segment} {values : List Bytes}
  (h : ChosenFor registrations registration segments values request)

include h

theorem congr (hmethod : request.getMethod = request'.getMethod)
    (hpath : request.getPath = request'.getPath) :
    ChosenFor registrations registration segments values request' :=
  { h with
    chosen := (chosen_congr registrations hmethod hpath).symm.trans h.chosen
    path := hpath.symm.trans h.path }

/-- The handler is given the values under their numbers, and the request as it
came apart from that. -/
theorem requestFor_eq :
    registration.requestFor request =
      Router.extractPathParams 1 (values.map some) request := by
  obtain ⟨hfits, hfree, hplaced⟩ :=
    Segment.fill_fits h.segments_wellFormed h.values_count h.values_free
  have hplain : IsPlainPattern registration.path := by
    rw [h.pattern]
    exact Segment.isPlainPattern_pattern h.segments_wellFormed
  have hsplitPattern := Segment.splitOn_pattern h.segments_wellFormed
  rw [← h.pattern] at hsplitPattern
  have hsplit : request.getPath.splitOn 47 = [] :: Segment.fill segments values := by
    rw [h.path]
    exact splitOn_append_flatMap List.not_mem_nil hfree
  have hcaptures : registration.captures request = some (values.map some) :=
    (captures_eq_some_iff hplain hsplitPattern).mpr ⟨_, hsplit, hfits, by rw [hplaced]⟩
  rw [requestFor, if_pos h.table, hcaptures]

end ChosenFor

end Registration

/-- What the handler of a route is given for a request as it was written, with
these values in the placeholders. -/
structure GivenFor (parts : RequestParts) (values : List Bytes) (request : HttpRequest) :
    Prop extends request.Holds parts where
  params : ∀ (n : Nat) (hn : n < values.length),
    request.getPathParams (Router.paramName (n + 1)) = values[n]

theorem HttpRequest.Holds.givenFor {parts : RequestParts} (h : request.Holds parts)
    (values : List Bytes) :
    GivenFor parts values (Router.extractPathParams 1 (values.map some) request) := by
  have hparams : ∀ (n : Nat) (hn : n < values.length),
      (Router.extractPathParams 1 (values.map some) request).getPathParams
        (Router.paramName (n + 1)) = values[n] := by
    intro n hn
    rw [Nat.add_comm n 1, Router.getPathParams_extract (by simpa using hn)]
    simp
  refine ⟨?_, hparams⟩
  rw [Router.extractPathParams_eq]
  exact { h with }

namespace HttpServer

variable {configs : List CorsConfig} {registrations : List (Registration (RequestHandler σ))}
  {registration : Registration (RequestHandler σ)} {segments : List Segment}
  {values : List Bytes}

theorem closesByDefault_extract (request : HttpRequest) :
    closesByDefault (Router.extractPathParams 1 (values.map some) request) =
      closesByDefault request := by
  rw [Router.extractPathParams_eq]
  rfl

/-- What a handler leaves of the response to a request that is written so. -/
def LeavesFor (handler : RequestHandler σ) (handlers : σ) (parts : RequestParts)
    (values : List Bytes) (memory : HandlerMemory σ) : Prop :=
  ∃ request, GivenFor parts values request ∧
    handler.handle request ⟨handlers, HttpResponse.new (closesByDefault request)⟩ =
      .ok () memory

/-- From the bytes of a request to what its client reads.  If the first read finds
all of it, that is first the response that the handler of the route leaves, given
the values that the path was written with, and the headers of the middlewares where
it has none of its own; if it finds less, the client only reads that it is
refused. -/
theorem resource_exchanged (hconfigs : ∀ config ∈ configs, config.HeadClean)
    (parts : RequestParts) (htarget : parts.target ≠ [])
    (hchosen : ChosenFor registrations registration segments values
      (plainRequest (HttpRequest.methodOf parts.method) parts.path))
    (hpasses : configs = [] ∨ parts.method ≠ ascii "OPTIONS")
    (order : IterationOrder Bytes Bytes) (handlers : σ) (indeterminate : UInt64)
    (hreturns : ∀ request, GivenFor parts values request → ∃ memory,
      registration.handler.handle request
          ⟨handlers, HttpResponse.new (closesByDefault request)⟩ = .ok () memory ∧
        memory.response.Delimited)
    (first : Arrival) (rest : List Arrival) :
    let server := withDefaultCallback (configs.map CorsMiddleware.new)
      (Router.ofRegistrations registrations) order
    let events := (runFrom server.onMessage
      (⟨handlers, .fresh indeterminate⟩ : ServerState σ B) (first :: rest)).2.flatten
    (parts.render <+: first.bytes → ∃ memory answer later,
        LeavesFor registration.handler handlers parts values memory ∧
        ShowsBehind configs memory.response answer ∧
        firstReceived events = some (answer, later)) ∧
      (first.bytes <+: parts.render → first.bytes ≠ parts.render →
        ended events = true ∧ firstReceived events = some (refusedAnswer, [])) := by
  intro server events
  rw [← parts.render_toText htarget]
  refine ⟨fun hwhole => ?_, received_part server handlers indeterminate rest⟩
  let request := (parts.toText htarget).readAfter (indeterminate, []) first.time
  have hholds : request.Holds parts := parts.holds_read htarget indeterminate first.time
  have hroute := hchosen.congr hholds.getMethod_eq.symm hholds.path.symm
  have hgiven := hholds.givenFor values
  obtain ⟨memory, hreturned, hdelimited⟩ := hreturns _ hgiven
  have hresponse : (server.httpCallback handlers request
      (HttpResponse.new (closesByDefault request))).response =
        CorsMiddleware.addActualFields configs.reverse memory.response := by
    apply answer_returned _ hroute.chosen
    · rw [hroute.requestFor_eq, ← @closesByDefault_extract values]
      exact hreturned
    · refine hpasses.imp_right fun hother hoptions => hother ?_
      have hsame : request.method = .kOptions := hoptions
      rw [← hholds.method, HttpRequest.getStringMethod, hsame]
  have hanswers : server.AnswersDelimited handlers request := by
    intro _
    rw [hresponse]
    exact delimited_addActualFields (fun config hconfig =>
      hconfigs config (List.mem_reverse.mp hconfig)) hdelimited
  obtain ⟨later, hreceived, _⟩ := received_whole (B := B) server handlers indeterminate rest hwhole
    (congrArg Option.isSome (handleRequest_thrown _ _ _ _ _)) hanswers
  refine ⟨memory, _, later, ⟨_, hgiven, hreturned⟩, ?_, hreceived⟩
  rw [answerTo, hresponse]
  exact showsBehind_decoded configs memory.response order

/-- A handler that answers with the first value in the path. -/
def echoHandler : RequestHandler Unit := fun request =>
  changeResponse fun response =>
    [SetterCall.setStatusCode .k200Ok,
      .setResponseBody (request.getPathParams (Router.paramName 1))].foldl
        SetterCall.apply response

def userPage : List Segment := [.literal (ascii "users"), .placeholder (ascii "id")]

def echoRoute : Registration (RequestHandler Unit) :=
  ⟨.regexCallbacks, .kGet, Segment.pattern userPage, echoHandler⟩

/-- The request for the page of one user. -/
def userParts : RequestParts :=
  .bodyless (ascii "GET") (ascii "/users/42") [(ascii "Host", ascii "localhost")]
    (by decide +kernel)

theorem echoHandler_returns {request : HttpRequest}
    (h : GivenFor userParts [ascii "42"] request) (close : Bool) :
    ∃ memory, echoHandler.handle request ⟨(), HttpResponse.new close⟩ = .ok () memory ∧
      memory.response.Delimited := by
  have hvalue : request.getPathParams (Router.paramName 1) = ascii "42" :=
    h.params 0 Nat.zero_lt_one
  have hbody : 0 ∉ ascii "42" ∧ (ascii "42").length < UInt64.size := by decide +kernel
  refine ⟨_, rfl, (HttpResponse.Framed.new close).calls ?_, fun hnone => ?_⟩
  · rw [hvalue]
    exact List.forall_mem_cons.mpr ⟨trivial, List.forall_mem_singleton.mpr hbody⟩
  · have hannounced : ∀ length : Bytes,
        (assign ∅ contentLengthName length : Map Bytes Bytes).lookup contentLengthName =
          some length := by
      intro length
      rw [lookup_assign, if_pos rfl]
    exact absurd ((hannounced _).symm.trans hnone) (Option.some_ne_none _)

/-- It arrives at once, before another one. -/
theorem resource_exchanged_user :
    let server : HttpServer Unit := withDefaultCallback
      ([CorsConfig.defaultConfig].map CorsMiddleware.new)
      (Router.ofRegistrations [echoRoute]) .byEntry
    let arrivals : List Arrival := [⟨userParts.render, 1⟩, ⟨userParts.render.take 12, 2⟩]
    let events := (runFrom server.onMessage
      (⟨(), .fresh 0⟩ : ServerState Unit Bytes) arrivals).2.flatten
    ∃ answer later, firstReceived events = some (answer, later) ∧
      answer.statusCode = 200 ∧ answer.body = ascii "42" ∧
      fieldValue answer.fields CorsMiddleware.allowOriginName =
        some CorsMiddleware.anyOrigin := by
  intro server arrivals events
  have hconfigs : ∀ config ∈ [CorsConfig.defaultConfig], config.HeadClean := by decide +kernel
  have hchosen : ChosenFor [echoRoute] echoRoute userPage [ascii "42"]
      (plainRequest (HttpRequest.methodOf userParts.method) userParts.path) :=
    ⟨chosen_singleton (by decide +kernel), rfl, by decide +kernel, rfl, rfl, by decide +kernel,
      by decide +kernel⟩
  obtain ⟨memory, answer, later, ⟨request, hgiven, hreturned⟩, hshows, hreceived⟩ :=
    (@resource_exchanged Unit Bytes _ _ _ _ _ _ hconfigs userParts (by decide +kernel) hchosen
      (.inr (by decide +kernel)) .byEntry () 0 (fun _ hgiven => echoHandler_returns hgiven _)
      ⟨userParts.render, 1⟩ [⟨userParts.render.take 12, 2⟩]).1 List.prefix_rfl
  have hvalue : request.getPathParams (Router.paramName 1) = ascii "42" :=
    hgiven.params 0 Nat.zero_lt_one
  obtain ⟨_, rfl⟩ := EStateM.Result.ok.inj hreturned
  have hnone : ∀ length : Bytes,
      (assign ∅ contentLengthName length : Map Bytes Bytes).lookup
        CorsMiddleware.allowOriginName = none := by
    intro length
    rw [lookup_assign, if_neg (by decide +kernel), AList.lookup_empty]
  have hadded : fieldValue
      ([CorsConfig.defaultConfig].reverse.flatMap CorsMiddleware.actualFields)
      CorsMiddleware.allowOriginName = some CorsMiddleware.anyOrigin := by decide +kernel
  refine ⟨answer, later, hreceived, hshows.statusCode, hshows.body.trans hvalue, ?_⟩
  rw [hshows.fields, hadded]
  exact congrArg (fun found => (Option.or found (some CorsMiddleware.anyOrigin)).or _)
    (hnone _)

end HttpServer

end CuteHttpServer
