/-
Which requests of a stream reach the callback, in which order and how soon.
Each call of `OnMessage` serves one request at most, so that requests which
arrive together wait for later calls.
-/
import CuteHttpServer.RequestService
import CuteHttpServer.TriedInTurn
import CuteHttpServer.UnitQueue

namespace CuteHttpServer

open ByteString DelimitedText KeyedMap StepRun

def Event.invokes : Event → Option HttpRequest
  | .invoked request => some request
  | _ => none

def Event.completes : Event → Option HttpRequest
  | .completed request => some request
  | _ => none

/-- The requests that are completed, in order. -/
def completedRequests (events : List Event) : List HttpRequest :=
  events.filterMap Event.completes

theorem completedRequests_append (events later : List Event) :
    completedRequests (events ++ later) =
      completedRequests events ++ completedRequests later :=
  List.filterMap_append

theorem completedRequests_neutral {events : List Event}
    (h : ∀ event ∈ events, event.Neutral) : completedRequests events = [] := by
  refine List.filterMap_eq_nil_iff.mpr fun event hevent => ?_
  have hneutral := h event hevent
  cases event <;> first | rfl | exact hneutral.elim

theorem invocations_eq_filterMap (events : List Event) :
    invocations events = events.filterMap Event.invokes := by
  induction events with
  | nil => rfl
  | cons event events ih =>
      cases event <;> simp [invocations, Event.invokes, List.filterMap_cons, ih]

theorem invocations_append (events later : List Event) :
    invocations (events ++ later) = invocations events ++ invocations later := by
  simp [invocations_eq_filterMap]

def Event.isCaught : Event → Bool
  | .caught _ => true
  | _ => false

/-- The call of the callback in a call of `OnMessage`, and whether it threw.  Where
the callback is called, the parser has not thrown. -/
def triesIn (call : List Event) : List (HttpRequest × Bool) :=
  (invocations call).map fun request => (request, call.any Event.isCaught)

namespace RequestService

variable {σ : Type} {server : HttpServer σ} {service : RequestService σ}
  {arrival : Arrival} {text : RequestText} {later : List RequestText}

theorem refusal_neutral : ∀ event ∈ refusal, event.Neutral := by
  intro event hevent
  simp only [refusal, List.mem_cons, List.not_mem_nil, or_false] at hevent
  rcases hevent with rfl | rfl <;> trivial

/-- A call that does not find all of the first request. -/
theorem receive_refuses (h : ∀ text later, service.waiting = text :: later →
      service.unread + arrival.bytes.length < text.render.length) :
    ∃ lineTime, (service.receive server arrival) =
        ({ service with
            unread := service.unread + arrival.bytes.length
            lineTime := lineTime }, refusal) ∧
      lineTime.toList.Sublist (service.lineTime.toList ++ [arrival.time]) ∧
      (∀ time, service.lineTime = some time → lineTime = some time) := by
  obtain ⟨handlers, waiting, unread, lineTime, pending, stale⟩ := service
  cases waiting with
  | nil =>
      refine ⟨lineTime, receive_idle rfl, List.sublist_append_left _ _, ?_⟩
      exact fun time htime => htime
  | cons text later =>
      refine ⟨_, receive_part rfl (h text later rfl), ?_, ?_⟩
      · rw [lineTimeAfter]
        cases lineTime with
        | some time => exact List.sublist_append_left _ _
        | none => split <;> simp
      · rintro time rfl
        rfl

theorem lineTimeAfter_eq
    (henough : text.render.length ≤ service.unread + arrival.bytes.length) :
    service.lineTimeAfter text arrival = some (service.lineTime.getD arrival.time) := by
  rw [lineTimeAfter, if_pos (text.requestLine_lt_render.trans henough)]
  cases service.lineTime <;> rfl

/-- A call that does dispatches it. -/
theorem receive_dispatches (hwaiting : service.waiting = text :: later)
    (henough : text.render.length ≤ service.unread + arrival.bytes.length) :
    let time := service.lineTime.getD arrival.time
    let request := text.readAfter service.stale time
    let received := service.receive server arrival
    invocations received.2 = [request] ∧
      completedRequests received.2 = (if service.pending then [] else [request]) ∧
      if server.throwsOn service.handlers request then
        ∃ handlers unread, received.1 =
          ⟨handlers, text :: later, unread, some time, true, service.stale⟩
      else ∃ handlers, received.1 =
        ⟨handlers, later, service.unread + arrival.bytes.length - text.render.length, none,
          false, text.leaves service.stale⟩ := by
  intro time request received
  have hready : service.ready text arrival = request := by
    rw [ready, lineTimeAfter_eq henough]
    rfl
  have hthrows := server.onRequest_thrown_isSome (B := Bytes) service.handlers request
  obtain ⟨events, hevents, hneutral⟩ :=
    server.onRequest_events (B := Bytes) service.handlers request
  have hmarker : ∀ events : List Event, (∀ event ∈ events, event.Neutral) →
      let all := (if service.pending then [] else [.completed request]) ++
        .invoked request :: events
      invocations all = [request] ∧
        completedRequests all = (if service.pending then [] else [request]) := by
    intro events hneutral
    have hinvoked := invocations_neutral hneutral
    have hcompleted := completedRequests_neutral hneutral
    cases service.pending with
    | true => exact ⟨congrArg (_ :: ·) hinvoked, hcompleted⟩
    | false => exact ⟨congrArg (_ :: ·) hinvoked, congrArg (_ :: ·) hcompleted⟩
  cases hthrown : (server.onRequest Bytes service.handlers request).thrown with
  | some e =>
      have hreceived := receive_threw hwaiting henough (by rw [hready]; exact hthrown)
      simp only [hready, hevents, lineTimeAfter_eq henough, List.append_assoc,
        List.cons_append] at hreceived
      have hall := hmarker (events ++ .caught e :: refusal) (by
        intro event hevent
        rcases List.mem_append.mp hevent with hevent | hevent
        · exact hneutral event hevent
        · rcases List.mem_cons.mp hevent with rfl | hevent
          · trivial
          · exact refusal_neutral event hevent)
      rw [hthrown] at hthrows
      rw [show received = _ from hreceived, ← hthrows, hwaiting,
        if_pos (show (some e).isSome = true from rfl)]
      exact ⟨hall.1, hall.2, _, _, rfl⟩
  | none =>
      have hreceived := receive_returned hwaiting henough (by rw [hready]; exact hthrown)
      simp only [hready, hevents] at hreceived
      have hall := hmarker events hneutral
      rw [hthrown] at hthrows
      rw [show received = _ from hreceived, ← hthrows,
        if_neg (show ¬ (none : Option StdException).isSome = true from Bool.false_ne_true)]
      exact ⟨hall.1, hall.2, _, rfl⟩

variable (server)

end RequestService

variable {σ B : Type} [Buffer B]

namespace HttpServer

variable (server : HttpServer σ) {state : ServerState σ B} {arrival : Arrival}

/-- A callback that returns has nothing caught. -/
theorem onRequest_returns {handlers : σ} {request : HttpRequest}
    (h : (server.onRequest B handlers request).thrown = none) :
    (server.onRequest B handlers request).events.any Event.isCaught = false := by
  cases hthrown : (server.httpCallback handlers request
      (HttpResponse.new (closesByDefault request))).thrown with
  | some e =>
      rw [onRequest_threw server hthrown] at h
      exact absurd h (Option.some_ne_none e)
  | none =>
      rw [onRequest_returned server hthrown]
      show List.any (_ :: _ :: if HttpResponse.isCloseConnection _ then _ else _) _ = false
      split
      · rfl
      · rfl

/-- A call that dispatches a request is a try of it, which fails if the callback
throws. -/
theorem triesIn_onMessage (h : (state.connection.parse arrival).2 = .returned true) :
    let request := (state.connection.parse arrival).1.context.getRequest
    triesIn (server.onMessage state arrival).2 =
      [(request, server.throwsOn state.handlers request)] := by
  intro request
  have hcaught : (server.onMessage state arrival).2.any Event.isCaught =
      server.throwsOn state.handlers request := by
    rw [← server.onRequest_thrown_isSome (B := B)]
    cases hthrown : (server.onRequest B state.handlers request).thrown with
    | some e =>
        rw [server.onMessage_true_threw h hthrown, List.any_append]
        simp [Event.isCaught]
    | none =>
        rw [server.onMessage_true_returned h hthrown, List.any_append,
          server.onRequest_returns hthrown, completedIn]
        cases state.connection.context.gotAll with
        | false => rfl
        | true => rfl
  rw [triesIn, server.invocations_onMessage state arrival h, hcaught]
  rfl

end HttpServer

/-- What a connection has completed and tried; the request that is pending is the
one that was completed last. -/
structure TriedSoFar (completed : List HttpRequest) (tries : List (HttpRequest × Bool))
    (connection : Connection B) : Prop where
  tried : TriedInTurn connection.context.gotAll completed tries
  last : connection.context.gotAll = true → ∃ earlier,
    completed = earlier ++ [connection.context.getRequest]

section OneCall

variable {server : HttpServer σ} {state : ServerState σ B} {arrival : Arrival}
  {completed : List HttpRequest} {tries : List (HttpRequest × Bool)}
  (h : TriedSoFar completed tries state.connection)

include h

/-- A call that dispatches a request tries it, for the first time or again. -/
theorem TriedSoFar.dispatches (htrue : (state.connection.parse arrival).2 = .returned true) :
    let next := server.onMessage state arrival
    TriedSoFar (completed ++ completedRequests next.2) (tries ++ triesIn next.2)
      next.1.connection := by
  intro next
  obtain ⟨⟨later, hevents, hneutral⟩, hconnection⟩ := server.onMessage_dispatches htrue
  have hgot := (state.connection.parse_gotAll_iff arrival).mpr htrue
  have htries := server.triesIn_onMessage htrue
  have htried := h.tried
  set request := (state.connection.parse arrival).1.context.getRequest with hrequest
  have hpending : next.1.connection.context.gotAll = server.throwsOn state.handlers request := by
    rw [show next.1.connection = _ from hconnection]
    cases server.throwsOn state.handlers request with
    | true => exact hgot
    | false => rfl
  have hcompleted : ∃ earlier, completed ++ completedRequests next.2 = earlier ++ [request] ∧
      TriedInTurn next.1.connection.context.gotAll (earlier ++ [request])
        (tries ++ triesIn next.2) := by
    rw [show triesIn next.2 = _ from htries, show next.2 = _ from hevents, hpending,
      completedRequests_append, HttpServer.completedIn]
    have hlater := completedRequests_neutral hneutral
    have hnone : completedRequests (.invoked request :: later) = [] := hlater
    cases hbefore : state.connection.context.gotAll with
    | false =>
        rw [hbefore] at htried
        exact ⟨completed, by rw [hnone]; rfl, htried.first request _⟩
    | true =>
        obtain ⟨earlier, hearlier⟩ := h.last hbefore
        have hsame : state.connection.context.getRequest = request := by
          rw [hrequest, state.connection.parse_pending arrival hbefore]
        rw [hsame] at hearlier
        rw [hbefore, hearlier] at htried
        exact ⟨earlier, by rw [hnone, hearlier]; exact List.append_nil _, htried.again _⟩
  obtain ⟨earlier, hearlier, hnext⟩ := hcompleted
  refine ⟨hearlier ▸ hnext, fun hstays => ⟨earlier, ?_⟩⟩
  rw [hearlier, show next.1.connection = _ from hconnection,
    if_pos (hpending.symm.trans hstays)]

/-- Any other call tries none, and none is pending before it. -/
theorem TriedSoFar.refuses (hfalse : (state.connection.parse arrival).2 ≠ .returned true) :
    let next := server.onMessage state arrival
    TriedSoFar (completed ++ completedRequests next.2) (tries ++ triesIn next.2)
      next.1.connection := by
  intro next
  obtain ⟨hneutral, hnext⟩ := server.onMessage_idle hfalse
  have hbefore : state.connection.context.gotAll = false := by
    rw [Bool.eq_false_iff]
    intro hpending
    exact hfalse (by rw [state.connection.parse_pending arrival hpending])
  have htried := h.tried
  have hgot : next.1.connection.context.gotAll = false := by
    rw [show next.1 = _ from hnext]
    exact HttpServer.gotAll_of_not_true hfalse
  rw [triesIn, completedRequests_neutral hneutral, invocations_neutral hneutral]
  rw [hbefore] at htried
  refine ⟨?_, fun hpending => ?_⟩
  · rw [hgot]
    simpa using htried
  · rw [hgot] at hpending
    exact absurd hpending Bool.false_ne_true

end OneCall

/-- How many requests of a stream its first bytes hold whole. -/
def wholeRequests : List RequestText → Nat → Nat
  | [], _ => 0
  | text :: later, length =>
      if text.render.length ≤ length then
        wholeRequests later (length - text.render.length) + 1
      else 0

/-- One more than `count` of them, if the bytes reach the end of the next. -/
theorem lt_wholeRequests_iff (requests : List RequestText) (count length : Nat) :
    count < wholeRequests requests length ↔
      ∃ text later, requests.drop count = text :: later ∧
        ((requests.take count).flatMap RequestText.render).length + text.render.length ≤
          length := by
  induction requests generalizing count length with
  | nil => simp [wholeRequests]
  | cons first rest ih =>
      rw [wholeRequests]
      cases count with
      | zero => by_cases hfits : first.render.length ≤ length <;> simp [hfits]
      | succ count =>
          simp only [List.drop_succ_cons, List.take_succ_cons, List.flatMap_cons,
            List.length_append]
          by_cases hfits : first.render.length ≤ length
          · rw [if_pos hfits, Nat.succ_lt_succ_iff, ih]
            constructor
            · rintro ⟨text, later, hdrop, hlength⟩
              exact ⟨text, later, hdrop, by omega⟩
            · rintro ⟨text, later, hdrop, hlength⟩
              exact ⟨text, later, hdrop, by omega⟩
          · rw [if_neg hfits]
            refine iff_of_false (Nat.not_lt_zero _) ?_
            rintro ⟨text, later, _, hlength⟩
            omega

theorem wholeRequests_mono (requests : List RequestText) {length length' : Nat}
    (h : length ≤ length') :
    wholeRequests requests length ≤ wholeRequests requests length' := by
  by_contra hless
  obtain ⟨text, later, hdrop, hfits⟩ :=
    (lt_wholeRequests_iff requests _ _).mp (Nat.lt_of_not_le hless)
  exact Nat.lt_irrefl _ ((lt_wholeRequests_iff requests _ _).mpr
    ⟨text, later, hdrop, hfits.trans h⟩)

namespace RequestService

variable {server : HttpServer σ}

/-- Where the queue is after `count` requests, so many bytes having come in. -/
structure Behind (requests : List RequestText) (length count : Nat)
    (service : RequestService σ) : Prop where
  pending : service.pending = false
  waiting : service.waiting = requests.drop count
  unread : service.unread + ((requests.take count).flatMap RequestText.render).length = length

/-- Without exceptions, a call serves a request if the bytes of one more are
there. -/
theorem Behind.receive (hnever : ∀ handlers request, server.throwsOn handlers request = false)
    {requests : List RequestText} {length count : Nat} {service : RequestService σ}
    (h : Behind requests length count service) (arrival : Arrival) :
    let next := length + arrival.bytes.length
    Behind requests next
        (if count < wholeRequests requests next then count + 1 else count)
        (service.receive server arrival).1 ∧
      (invocations (service.receive server arrival).2).length =
        (if count < wholeRequests requests next then 1 else 0) ∧
      [(service.receive server arrival).2].count refusal =
        (if count < wholeRequests requests next then 0 else 1) := by
  intro next
  by_cases hnext : count < wholeRequests requests next
  · obtain ⟨text, later, hdrop, hfits⟩ := (lt_wholeRequests_iff requests count next).mp hnext
    have hunread := h.unread
    have hwaiting := h.waiting.trans hdrop
    have henough : text.render.length ≤ service.unread + arrival.bytes.length := by
      dsimp only [next] at hfits
      omega
    obtain ⟨hinvoked, _, hstate⟩ := @receive_dispatches σ server _ _ _ _ hwaiting henough
    rw [hnever, if_neg Bool.false_ne_true] at hstate
    obtain ⟨handlers, hstate⟩ := hstate
    rw [if_pos hnext, if_pos hnext, if_pos hnext, hinvoked, hstate]
    have hlater : later = requests.drop (count + 1) := by
      rw [← List.drop_drop, hdrop, List.drop_one, List.tail_cons]
    have htake : requests.take (count + 1) = requests.take count ++ [text] := by
      have h := List.take_add (l := requests) (i := count) (j := 1)
      rwa [hdrop] at h
    refine ⟨⟨rfl, hlater, ?_⟩, rfl, ?_⟩
    · rw [htake, List.flatMap_append, List.length_append]
      simp only [List.flatMap_singleton]
      omega
    · rw [List.count_singleton]
      refine if_neg ?_
      intro hrefused
      rw [beq_iff_eq] at hrefused
      rw [hrefused, invocations_neutral refusal_neutral] at hinvoked
      exact absurd hinvoked (List.cons_ne_nil _ _).symm
  · obtain ⟨lineTime, hreceived, _⟩ :=
      @receive_refuses σ server service arrival (by
        intro text later hwaiting
        by_contra henough
        refine hnext ((lt_wholeRequests_iff requests count next).mpr
          ⟨text, later, h.waiting.symm.trans hwaiting, ?_⟩)
        have hunread := h.unread
        dsimp only [next]
        omega)
    rw [if_neg hnext, if_neg hnext, if_neg hnext, hreceived,
      invocations_neutral refusal_neutral]
    refine ⟨⟨h.pending, h.waiting, ?_⟩, rfl, by simp⟩
    have hunread := h.unread
    dsimp only [next]
    omega

/-- How many requests the callback has been given after some calls. -/
def answered (server : HttpServer σ) (service : RequestService σ) (arrivals : List Arrival) :
    Nat :=
  (invocations (runFrom (RequestService.receive server) service arrivals).2.flatten).length

theorem answered_concat (service : RequestService σ) (arrivals : List Arrival)
    (arrival : Arrival) :
    answered server service (arrivals ++ [arrival]) =
      answered server service arrivals +
        (invocations ((runFrom (RequestService.receive server) service arrivals).1.receive
          server arrival).2).length := by
  rw [answered, answered, runFrom_append, runFrom_singleton, List.flatten_append,
    invocations_append, List.length_append, List.flatten_singleton]

section Never

variable (hnever : ∀ handlers request, server.throwsOn handlers request = false)
  (handlers : σ) (indeterminate : UInt64) (requests : List RequestText)
  (arrivals : List Arrival)

include hnever

theorem behind_run :
    let service : RequestService σ := .initial handlers requests indeterminate
    let run := runFrom (RequestService.receive server) service arrivals
    Behind requests (received arrivals).length (answered server service arrivals) run.1 ∧
      run.2.count refusal + answered server service arrivals = arrivals.length := by
  intro service run
  induction arrivals using List.reverseRecOn with
  | nil => exact ⟨⟨rfl, rfl, rfl⟩, rfl⟩
  | append_singleton arrivals arrival ih =>
      obtain ⟨hbehind, hcount⟩ := ih
      obtain ⟨hnext, hanswered, hrefused⟩ := hbehind.receive hnever arrival
      have hrun : run = ((_ : RequestService σ), (_ : List (List Event))) :=
        runFrom_append _ service arrivals [arrival]
      rw [hrun, runFrom_singleton, received_append, List.length_append, answered_concat,
        hanswered, List.count_append, hrefused, List.length_append]
      simp only [received_cons, received_nil, List.append_nil, List.length_singleton]
      by_cases hready : answered server service arrivals <
          wholeRequests requests ((received arrivals).length + arrival.bytes.length)
      · rw [if_pos hready] at hnext
        simp only [if_pos hready]
        exact ⟨hnext, by omega⟩
      · rw [if_neg hready] at hnext
        simp only [if_neg hready]
        exact ⟨hnext, by omega⟩

/-- The calls are the slots of a queue served at unit rate. -/
theorem servesOne :
    UnitQueue.ServesOne (fun arrivals => wholeRequests requests (received arrivals).length)
      (answered server (.initial handlers requests indeterminate)) where
  demand_le arrivals arrival := by
    apply wholeRequests_mono
    simp
  start := by
    have hnone : ¬ 0 < wholeRequests requests 0 := by
      intro hlt
      obtain ⟨text, _, _, hlength⟩ := (lt_wholeRequests_iff requests 0 0).mp hlt
      have hpos := text.render_pos
      omega
    exact (Nat.eq_zero_of_not_pos hnone).symm
  serve arrivals arrival := by
    have hbehind := (behind_run hnever handlers indeterminate requests arrivals).1
    have hanswered := (hbehind.receive hnever arrival).2.1
    rw [answered_concat, hanswered]
    simp only [received_append, received_cons, received_nil, List.append_nil,
      List.length_append]
    split <;> rfl

end Never

end RequestService

/-- How far a server without exceptions is behind: after some calls it has
answered the requests that were whole at one of them and one for each call
since, for the call where that is least.  Every other call is a refusal. -/
theorem answered_isLeast (server : HttpServer σ)
    (hnever : ∀ handlers request, server.throwsOn handlers request = false)
    (handlers : σ) (indeterminate : UInt64) (requests : List RequestText)
    (arrivals : List Arrival) (future : Bytes)
    (hstream : received arrivals ++ future = requests.flatMap RequestText.render) :
    let calls := (runFrom server.onMessage
      (⟨handlers, .fresh indeterminate⟩ : ServerState σ B) arrivals).2
    IsLeast {count | ∃ before after, before ++ after = arrivals ∧
        count = wholeRequests requests (received before).length + after.length}
      (invocations calls.flatten).length ∧
    calls.count refusal + (invocations calls.flatten).length = arrivals.length := by
  intro calls
  have hevents := ((Serves.fresh (B := B) handlers indeterminate requests hstream).run
    server arrivals).2
  rw [show calls = _ from hevents.symm]
  exact ⟨(RequestService.servesOne hnever handlers indeterminate requests).isLeast arrivals,
    (RequestService.behind_run hnever handlers indeterminate requests arrivals).2⟩

/-- Two requests in one call, and an empty call after it. -/
theorem answered_isLeast_together :
    let arrivals : List Arrival :=
      [⟨RequestText.get.render ++ RequestText.get.render, 1⟩, ⟨[], 2⟩]
    let calls := (runFrom HttpServer.greeting.onMessage
      (⟨(), .fresh 0⟩ : ServerState Unit Bytes) arrivals).2
    IsLeast {count | ∃ before after, before ++ after = arrivals ∧
        count = wholeRequests [.get, .get] (received before).length + after.length}
      (invocations calls.flatten).length ∧
    calls.count refusal + (invocations calls.flatten).length = arrivals.length :=
  answered_isLeast HttpServer.greeting (fun _ _ => rfl) () 0 [.get, .get] _ [] (by decide)

end CuteHttpServer
