/-
What a client gets of the responses of a connection: the texts up to the first
shutdown, which it reads one behind the other, each as long as is announced, or
to the end of the stream.
-/
import CuteHttpServer.ResponseStream

namespace CuteHttpServer

open ByteString DelimitedText KeyedMap StepRun

/-- What is sent before the connection is shut down; what is sent afterwards is
dropped. -/
def delivered (events : List Event) : Bytes :=
  (sentTexts (events.takeWhile (· ≠ .shutdown))).flatten

/-- The client sees the end of the stream. -/
def ended (events : List Event) : Bool := events.contains .shutdown

/-- The calls up to the first that shuts the connection down. -/
def openCalls : List (List Event) → List (List Event)
  | [] => []
  | call :: rest => if ended call then [call] else call :: openCalls rest

/-- The next response of a stream: without an announced length its body goes up to
the end of the stream, if that is there. -/
def receiveNext (ended : Bool) (text : Bytes) : Option (DecodedResponse × Bytes) :=
  (decodeHead text).bind fun (head, after) =>
    match fieldValue head.fields contentLengthName with
    | some announced => decodeBody head (digitsValue announced) after
    | none => if ended then some ({ head with body := after }, []) else none

theorem ended_append (call more : List Event) :
    ended (call ++ more) = (ended call || ended more) :=
  List.contains_append

theorem delivered_append (call more : List Event) :
    delivered (call ++ more) =
      delivered call ++ if ended call then [] else delivered more := by
  induction call with
  | nil => rfl
  | cons event rest ih =>
      by_cases hend : event = .shutdown
      · subst hend
        rfl
      · have htake : ∀ events : List Event,
            delivered (event :: events) =
              (sentTexts [event]).flatten ++ delivered events := by
          intro events
          rw [delivered, List.takeWhile_cons_of_pos (by simpa using hend), delivered,
            ← List.flatten_append, ← sentTexts_append, List.singleton_append]
        have hsame : ended (event :: rest) = ended rest := by
          simp [ended, Ne.symm hend]
        rw [List.cons_append, htake, htake, ih, hsame, List.append_assoc]

/-- The first response that the client reads, and what it is left with. -/
def firstReceived (events : List Event) : Option (DecodedResponse × Bytes) :=
  receiveNext (ended events) (delivered events)

/-- Whatever comes behind the call, this answer is what the client reads first; it
is left with what is delivered behind it. -/
def ReceivedAs (call : List Event) (answer : DecodedResponse) : Prop :=
  ∀ more, firstReceived (call ++ more) =
    some (answer, if ended call then [] else delivered more)

/-- Up to the first shutdown, the client reads the answers one after the other, and
nothing else. -/
theorem readMany_delivered {calls : List (List Event)} {answers : List DecodedResponse}
    (h : List.Forall₂ ReceivedAs calls answers) :
    readMany (receiveNext (ended calls.flatten)) (openCalls calls).length
        (delivered calls.flatten) =
      some (answers.take (openCalls calls).length, []) := by
  induction h with
  | nil => rfl
  | @cons call answer rest answers hfirst _ ih =>
      have hreceived := hfirst rest.flatten
      rw [firstReceived] at hreceived
      rw [List.flatten_cons, openCalls]
      cases hend : ended call with
      | true =>
          rw [hend] at hreceived
          rw [if_pos rfl, List.length_singleton, readMany, hreceived]
          rfl
      | false =>
          rw [hend] at hreceived
          have hsame : ended (call ++ rest.flatten) = ended rest.flatten := by
            rw [ended_append, hend, Bool.false_or]
          rw [if_neg Bool.false_ne_true, List.length_cons, readMany, hreceived, hsame,
            Option.bind_some, if_neg Bool.false_ne_true, ih]
          rfl

theorem receivedAs_of_delivered {call : List Event} {text : Bytes} {answer : DecodedResponse}
    (htext : delivered call = text)
    (hreads : ∀ (last : Bool) rest, (ended call = true → last = true ∧ rest = []) →
      receiveNext last (text ++ rest) = some (answer, rest)) : ReceivedAs call answer := by
  intro more
  rw [firstReceived, delivered_append, htext]
  apply hreads
  intro hend
  rw [ended_append, hend]
  exact ⟨rfl, rfl⟩

namespace HttpResponse

/-- A response whose end the client can tell: by its announced length, or because
the connection is closed behind it. -/
structure Delimited (response : HttpResponse) : Prop extends response.Framed where
  closes : response.responseHeaders.lookup contentLengthName = none →
    response.isCloseConnection = true

theorem Delimited.receiveNext_sent (order : IterationOrder Bytes Bytes)
    {response : HttpResponse} (h : response.Delimited) {last : Bool} {rest : Bytes}
    (hlast : response.isCloseConnection = true → last = true ∧ rest = []) :
    receiveNext last (response.sent order ++ rest) = some (response.decoded order, rest) := by
  rw [receiveNext, h.decodeHead_sent order rest, Option.bind_some]
  have hfield := fieldValue_contentLength order response
  have hhead : fieldValue { response.decoded order with body := [] }.fields contentLengthName =
      response.responseHeaders.lookup contentLengthName := hfield
  simp only [hhead]
  rcases h.announced with hlength | ⟨hnone, hempty⟩
  · rw [hlength]
    simp only [digitsValue_decimal]
    exact decodeBody_append _ _ rest
  · obtain ⟨rfl, rfl⟩ := hlast (h.closes hnone)
    rw [hnone, hempty]
    simp [decoded, hempty]

end HttpResponse

theorem receiveNext_badRequest : receiveNext true badRequest = some (refusedAnswer, []) := by
  have hhead := decodeHead_badRequest []
  rw [List.append_nil] at hhead
  rw [receiveNext, hhead]
  rfl

/-- A refusal is the last thing that the client reads. -/
theorem receivedAs_refusal : ReceivedAs refusal refusedAnswer := by
  apply receivedAs_of_delivered (show delivered refusal = badRequest from rfl)
  intro last rest hlast
  obtain ⟨rfl, rfl⟩ := hlast rfl
  rw [List.append_nil]
  exact receiveNext_badRequest

/-- Events that the client does not see. -/
def Silent (events : List Event) : Prop := delivered events = [] ∧ ended events = false

theorem ReceivedAs.behind {call : List Event} {answer : DecodedResponse}
    (h : ReceivedAs call answer) {before : List Event} (hsilent : Silent before) :
    ReceivedAs (before ++ call) answer := by
  obtain ⟨hnothing, hopen⟩ := hsilent
  intro more
  have hended : ended (before ++ call) = ended call := by
    rw [ended_append, hopen, Bool.false_or]
  rw [firstReceived, List.append_assoc, ended_append, delivered_append, hnothing, hopen,
    Bool.false_or, List.nil_append, if_neg Bool.false_ne_true, hended]
  exact h more

namespace HttpServer

variable {σ B : Type} [Buffer B] (server : HttpServer σ)

/-- Where the callback returns on this request, the client can tell the end of its
response. -/
def AnswersDelimited (handlers : σ) (request : HttpRequest) : Prop :=
  let called := server.httpCallback handlers request
    (HttpResponse.new (closesByDefault request))
  called.thrown = none → called.response.Delimited

variable {server} {state : ServerState σ B} {arrival : Arrival}

omit [Buffer B] in
theorem silent_completedIn (request : HttpRequest) : Silent (completedIn state request) := by
  unfold completedIn
  split
  · exact ⟨rfl, rfl⟩
  · exact ⟨rfl, rfl⟩

/-- A dispatch whose callback returns. -/
theorem receivedAs_onRequest {handlers : σ} {request : HttpRequest}
    (hthrown : (server.httpCallback handlers request
      (HttpResponse.new (closesByDefault request))).thrown = none)
    (hdelimited : server.AnswersDelimited handlers request) :
    ReceivedAs (server.onRequest B handlers request).events
      ((server.httpCallback handlers request
        (HttpResponse.new (closesByDefault request))).response.decoded server.headerOrder) := by
  rw [server.onRequest_returned hthrown]
  have hresponse := hdelimited hthrown
  cases hclose : (server.httpCallback handlers request
      (HttpResponse.new (closesByDefault request))).response.isCloseConnection with
  | true =>
      apply receivedAs_of_delivered (List.append_nil _)
      exact fun last rest hlast => hresponse.receiveNext_sent _ fun _ => hlast rfl
  | false =>
      apply receivedAs_of_delivered (List.append_nil _)
      intro last rest _
      exact hresponse.receiveNext_sent _ fun hcloses =>
        absurd (hclose.symm.trans hcloses) Bool.false_ne_true

/-- Of each call the client reads what is answered in it. -/
theorem onMessage_received
    (hdelimited : ∀ request ∈ invocations (server.onMessage state arrival).2,
      server.AnswersDelimited state.handlers request) :
    ReceivedAs (server.onMessage state arrival).2 (server.answered state arrival) := by
  cases houtcome : (state.connection.parse arrival).2 with
  | threw e =>
      rw [server.onMessage_threw houtcome, answered_not_true (by simp [houtcome])]
      exact @ReceivedAs.behind _ _ receivedAs_refusal [.caught e] ⟨rfl, rfl⟩
  | returned ok =>
      cases ok with
      | false =>
          rw [server.onMessage_false houtcome, answered_not_true (by simp [houtcome])]
          exact receivedAs_refusal
      | true =>
          rw [server.invocations_onMessage state arrival houtcome,
            List.forall_mem_singleton] at hdelimited
          rw [answered_true houtcome]
          cases hthrown : (server.httpCallback state.handlers
              (state.connection.parse arrival).1.context.getRequest
              (HttpResponse.new (closesByDefault
                (state.connection.parse arrival).1.context.getRequest))).thrown with
          | some e =>
              have hdispatch := server.onRequest_threw (B := B) hthrown
              have hmessage := server.onMessage_true_threw houtcome (by rw [hdispatch])
              rw [hmessage, hdispatch, List.append_assoc, if_neg (Option.some_ne_none e)]
              exact (@ReceivedAs.behind _ _ receivedAs_refusal [.invoked _, .caught e]
                ⟨rfl, rfl⟩).behind (silent_completedIn _)
          | none =>
              have hdispatch := server.onRequest_returned (B := B) hthrown
              have hmessage := server.onMessage_true_returned houtcome (by rw [hdispatch])
              rw [hmessage, if_pos rfl]
              exact (receivedAs_onRequest hthrown hdelimited).behind (silent_completedIn _)

theorem run_received (server : HttpServer σ) (arrivals : List Arrival) :
    ∀ state : ServerState σ B,
      (∀ before arrival after, arrivals = before ++ arrival :: after →
        let reached := (runFrom server.onMessage state before).1
        ∀ request ∈ invocations (server.onMessage reached arrival).2,
          server.AnswersDelimited reached.handlers request) →
      List.Forall₂ ReceivedAs (runFrom server.onMessage state arrivals).2
        (runFrom server.answering state arrivals).2 := by
  induction arrivals with
  | nil => exact fun state _ => .nil
  | cons arrival rest ih =>
      intro state hdelimited
      have hfirst := onMessage_received (hdelimited [] arrival rest rfl)
      have hrest := ih (server.onMessage state arrival).1 fun before later after hsplit =>
        hdelimited (arrival :: before) later after (congrArg (arrival :: ·) hsplit)
      exact .cons hfirst hrest

/-- A client that reads one response after the other, as far as the connection is
open, reads for each call of `OnMessage` what was answered in it, and nothing
else.  It can do so if it can tell the end of each response that the callback
returns in this run. -/
theorem responses_received (server : HttpServer σ) (state : ServerState σ B)
    (arrivals : List Arrival)
    (hdelimited : ∀ before arrival after, arrivals = before ++ arrival :: after →
      let reached := (runFrom server.onMessage state before).1
      ∀ request ∈ invocations (server.onMessage reached arrival).2,
        server.AnswersDelimited reached.handlers request) :
    let calls := (runFrom server.onMessage state arrivals).2
    readMany (receiveNext (ended calls.flatten)) (openCalls calls).length
        (delivered calls.flatten) =
      some ((runFrom server.answering state arrivals).2.take (openCalls calls).length, []) :=
  readMany_delivered (run_received server arrivals state hdelimited)

/-- A server that greets whoever asks for anything, and throws on other
methods. -/
def choosy : HttpServer Unit where
  httpCallback _ request response :=
    if request.getMethod = .kGet then
      ⟨(), greetingCalls.foldl SetterCall.apply response, none⟩
    else ⟨(), response, some ⟨ascii "no"⟩⟩
  headerOrder := .byEntry

theorem delimited_greeting (close : Bool) :
    (greetingCalls.foldl SetterCall.apply (HttpResponse.new close)).Delimited where
  toFramed := (HttpResponse.Framed.new close).calls framing_greetingCalls
  closes := fun hnone => absurd hnone (by cases close <;> decide +kernel)

/-- A greeting, an exception, and what comes too late. -/
theorem responses_received_choosy :
    let arrivals : List Arrival := [⟨ascii "GET / HTTP/1.1\r\n\r\nPOST", 1⟩,
      ⟨ascii " / HTTP/1.1\r\nContent-Length: 0\r\n\r\n", 2⟩,
      ⟨ascii "GET / HTTP/1.1\r\n\r\n", 3⟩]
    let events := (runFrom choosy.onMessage
      (⟨(), .fresh 0⟩ : ServerState Unit Bytes) arrivals).2.flatten
    ∃ answers, readMany (receiveNext (ended events)) 2 (delivered events) = some (answers, []) ∧
      answers.map (fun answer => (answer.statusCode, answer.body)) =
        [(200, ascii "hello"), (400, [])] := by
  intro arrivals events
  have hdelimited : ∀ handlers request, choosy.AnswersDelimited handlers request := by
    intro handlers request
    by_cases hget : request.getMethod = .kGet
    · simp only [AnswersDelimited, choosy, hget, if_true]
      exact fun _ => delimited_greeting _
    · simp [AnswersDelimited, choosy, hget]
  exact ⟨_, responses_received choosy ⟨(), .fresh 0⟩ arrivals
    fun _ _ _ _ request _ => hdelimited _ request, by decide +kernel⟩

end HttpServer

end CuteHttpServer
