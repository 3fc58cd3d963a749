/-
One request and what its client reads back: the answer of the callback, if the
first read finds all of the request, and otherwise that it is refused.
-/
import CuteHttpServer.CookieExchange
import CuteHttpServer.ResponseDelivery
import CuteHttpServer.StatusLines

namespace CuteHttpServer

open ByteString DelimitedText KeyedMap StepRun

variable {σ B : Type} [Buffer B]

namespace Connection

variable (indeterminate : UInt64) {text : RequestText} {arrival : Arrival}

theorem parse_fresh {outcome : ParseOutcome} {context : HttpContext} {left : Bytes}
    (h : (HttpContext.new indeterminate).parseRequest arrival.bytes arrival.time =
      ⟨outcome, context, left⟩) :
    let parsed := (Connection.fresh indeterminate : Connection B).parse arrival
    parsed.2 = outcome ∧ parsed.1.context = context := by
  have hbytes : Buffer.readable (Connection.fresh indeterminate : Connection B).buffer ++
      arrival.bytes = arrival.bytes := by
    rw [fresh, Buffer.readable_empty, List.nil_append]
  rw [← hbytes] at h
  obtain ⟨buffer, _, hparsed⟩ := Connection.parse_of_readable _ arrival h
  rw [hparsed]
  exact ⟨rfl, rfl⟩

/-- A first read with all of a request in it, whatever follows it there. -/
theorem parse_whole (hwhole : text.render <+: arrival.bytes) :
    let parsed := (Connection.fresh indeterminate : Connection B).parse arrival
    parsed.2 = .returned true ∧
      parsed.1.context.getRequest = text.readAfter (indeterminate, []) arrival.time := by
  obtain ⟨more, hmore⟩ := hwhole
  have hparse := text.parse_render (HttpRequest.requestHeaders_new indeterminate) arrival.time more
  rw [hmore] at hparse
  obtain ⟨houtcome, hcontext⟩ := parse_fresh (B := B) indeterminate hparse
  exact ⟨houtcome, congrArg HttpContext.getRequest hcontext⟩

/-- A first read with less than a request in it. -/
theorem parse_part (hpart : arrival.bytes <+: text.render) (hne : arrival.bytes ≠ text.render) :
    ((Connection.fresh indeterminate : Connection B).parse arrival).2 = .returned false := by
  obtain ⟨more, hmore⟩ := hpart
  have hrest : more ≠ [] := by
    rintro rfl
    exact hne ((List.append_nil _).symm.trans hmore)
  obtain ⟨context, left, hparse, _⟩ := RequestText.Reading.wait
    (HttpRequest.requestHeaders_new indeterminate) .requestLine arrival.time hmore hrest
  exact (parse_fresh (B := B) indeterminate hparse).1

end Connection

namespace HttpServer

variable (server : HttpServer σ) (handlers : σ) (indeterminate : UInt64) {text : RequestText}
  {first : Arrival}

/-- The answer of the callback to a request. -/
def answerTo (request : HttpRequest) : DecodedResponse :=
  (server.httpCallback handlers request
    (HttpResponse.new (closesByDefault request))).response.decoded server.headerOrder

/-- A request that the first read finds whole: whatever comes in later, the client
reads the answer of the callback first. -/
theorem received_whole (rest : List Arrival) (hwhole : text.render <+: first.bytes)
    (hreturns : server.throwsOn handlers (text.readAfter (indeterminate, []) first.time) = false)
    (hdelimited : server.AnswersDelimited handlers
      (text.readAfter (indeterminate, []) first.time)) :
    let request := text.readAfter (indeterminate, []) first.time
    let events := (runFrom server.onMessage
      (⟨handlers, .fresh indeterminate⟩ : ServerState σ B) (first :: rest)).2.flatten
    ∃ later, firstReceived events = some (server.answerTo handlers request, later) ∧
      ((server.httpCallback handlers request
          (HttpResponse.new (closesByDefault request))).response.isCloseConnection = true →
        ended events = true ∧ later = []) := by
  intro request events
  have hthrown := Option.not_isSome_iff_eq_none.mp (Bool.eq_false_iff.mp hreturns)
  obtain ⟨htrue, hrequest⟩ := Connection.parse_whole (B := B) indeterminate hwhole
  let state : ServerState σ B := ⟨handlers, .fresh indeterminate⟩
  have hcall : (server.onMessage state first).2 =
      completedIn state request ++ (server.onRequest B handlers request).events := by
    have htrue : (state.connection.parse first).2 = .returned true := htrue
    have hrequest : (state.connection.parse first).1.context.getRequest = request := hrequest
    have hdispatch := server.onRequest_returned (B := B) hthrown
    rw [server.onMessage_true_returned htrue (by rw [hrequest, hdispatch]), hrequest]
  have hreceived : ReceivedAs (server.onMessage state first).2
      (server.answerTo handlers request) := by
    rw [hcall]
    exact (receivedAs_onRequest hthrown hdelimited).behind (silent_completedIn request)
  refine ⟨_, hreceived _, fun hclose => ?_⟩
  have hended : ended (server.onMessage state first).2 = true := by
    rw [hcall, ended_append, server.onRequest_returned hthrown, hclose]
    exact Bool.or_true _
  rw [if_pos hended]
  refine ⟨?_, rfl⟩
  show ended ((server.onMessage state first).2 ++ _) = true
  rw [ended_append, hended, Bool.true_or]

/-- Where it finds only the beginning of one, the client reads that it is refused,
and nothing else: the connection has ended by the time that the rest comes in. -/
theorem received_part (rest : List Arrival) (hpart : first.bytes <+: text.render)
    (hne : first.bytes ≠ text.render) :
    let events := (runFrom server.onMessage
      (⟨handlers, .fresh indeterminate⟩ : ServerState σ B) (first :: rest)).2.flatten
    ended events = true ∧ firstReceived events = some (refusedAnswer, []) := by
  intro events
  let state : ServerState σ B := ⟨handlers, .fresh indeterminate⟩
  have hcall : (server.onMessage state first).2 = refusal := by
    rw [server.onMessage_false (Connection.parse_part indeterminate hpart hne)]
  have hevents : events =
      refusal ++ (runFrom server.onMessage (server.onMessage state first).1 rest).2.flatten := by
    rw [← hcall]
    rfl
  rw [hevents]
  exact ⟨by rw [ended_append]; rfl, receivedAs_refusal _⟩

end HttpServer

namespace HttpRequest

/-- The method of a request object that names one which a request line may have. -/
theorem getMethod_of_token {request : HttpRequest} (h : request.getStringMethod ∈ methodTokens) :
    request.getMethod = methodOf request.getStringMethod := by
  revert h
  unfold getStringMethod getMethod
  cases request.method with
  | kInvalid => exact fun h => absurd h (by decide +kernel)
  | kHead => exact fun h => absurd h (by decide +kernel)
  | _ => exact fun _ => by decide +kernel

theorem Holds.getMethod_eq {request : HttpRequest} {parts : RequestParts}
    (h : request.Holds parts) : request.getMethod = methodOf parts.method := by
  have hknown := parts.method_known
  rw [← h.method] at hknown ⊢
  exact getMethod_of_token hknown

end HttpRequest

namespace CorsMiddleware

variable (config : CorsConfig) (configs : List CorsConfig)
  (registrations : List (Registration (RequestHandler σ)))

end CorsMiddleware

end CuteHttpServer
