/-
Two parses of the same bytes from different request objects.  A relation that
every reading step keeps is kept by whole calls, and the calls agree on their
outcome and on the bytes they leave.
-/
import CuteHttpServer.ParseCalls

namespace CuteHttpServer

open ByteString DelimitedText StepRun

/-- What a relation between request objects, one for each parse state, has to
satisfy for two parses to run in step. -/
structure ReadingSimulation
    (R : HttpRequestParseState → HttpRequest → HttpRequest → Prop)
    (time time' : Timestamp) : Prop where
  sameLengthField : ∀ {request request'}, R .headers request request' →
    request.getHeader contentLengthName = request'.getHeader contentLengthName
  sameLength : ∀ {request request'}, R .body request request' →
    request.getContentLength = request'.getContentLength
  requestLine : ∀ {request request'} line, R .requestLine request request' →
    R .headers ((request.readRequestLine line).setReceiveTime time)
      ((request'.readRequestLine line).setReceiveTime time')
  headerLine : ∀ {request request'} line, R .headers request request' →
    R .headers (request.readHeaderLine line) (request'.readHeaderLine line)
  noBody : ∀ {request request'}, R .headers request request' →
    request.getHeader contentLengthName = [] → R .finish request request'
  announce : ∀ {request request'} length, R .headers request request' →
    request.getHeader contentLengthName ≠ [] →
    R .body (request.setContentLength length) (request'.setContentLength length)
  body : ∀ {request request'} body, R .body request request' →
    R .finish (request.setRequestBody body) (request'.setRequestBody body)

variable {R : HttpRequestParseState → HttpRequest → HttpRequest → Prop}
  {time time' : Timestamp}

/-- Contexts in the same state with related requests. -/
def HttpContext.Related
    (R : HttpRequestParseState → HttpRequest → HttpRequest → Prop)
    (context context' : HttpContext) : Prop :=
  context.state = context'.state ∧ R context.state context.request context'.request

/-- Passes that end alike with related contexts. -/
inductive Pass.Related
    (R : HttpRequestParseState → HttpRequest → HttpRequest → Prop) :
    Pass Bytes → Pass Bytes → Prop
  | again {context context' : HttpContext} (buffer : Bytes) :
      HttpContext.Related R context context' →
      Pass.Related R (.again context buffer) (.again context' buffer)
  | done {context context' : HttpContext} (outcome : ParseOutcome)
      (buffer : Bytes) :
      HttpContext.Related R context context' →
      Pass.Related R (.done ⟨outcome, context, buffer⟩)
        (.done ⟨outcome, context', buffer⟩)

namespace HttpContext

theorem takeHeaderLine_related (hR : ReadingSimulation R time time')
    {request request' : HttpRequest} (h : R .headers request request')
    (line rest : Bytes) :
    Pass.Related R ((HttpContext.mk .headers request).takeHeaderLine line rest)
      ((HttpContext.mk .headers request').takeHeaderLine line rest) := by
  have hfield := hR.sameLengthField h
  by_cases hline : line = []
  · subst hline
    by_cases hlength : request.getHeader contentLengthName = []
    · rw [takeHeaderLine_noBody _ hlength,
        takeHeaderLine_noBody _ (hfield.symm.trans hlength)]
      exact .done _ _ ⟨rfl, hR.noBody h hlength⟩
    · have hlength' : request'.getHeader contentLengthName ≠ [] := hfield ▸ hlength
      cases hstoul : stoul (request.getHeader contentLengthName) with
      | error e =>
          rw [takeHeaderLine_threw (e := e) _ hlength hstoul,
            takeHeaderLine_threw (e := e) _ hlength' (hfield ▸ hstoul)]
          exact .done _ _ ⟨rfl, h⟩
      | ok length =>
          rw [takeHeaderLine_body _ hlength hstoul,
            takeHeaderLine_body _ hlength' (hfield ▸ hstoul)]
          exact .again _ ⟨rfl, hR.announce length h hlength⟩
  · cases haccepted : acceptsHeaderLine line with
    | false =>
        rw [takeHeaderLine_rejected _ hline haccepted,
          takeHeaderLine_rejected _ hline haccepted]
        exact .done _ _ ⟨rfl, h⟩
    | true =>
        rw [takeHeaderLine_accepted _ hline haccepted,
          takeHeaderLine_accepted _ hline haccepted]
        exact .again _ ⟨rfl, hR.headerLine line h⟩

theorem takeRequestLine_related (hR : ReadingSimulation R time time')
    {request request' : HttpRequest} (h : R .requestLine request request')
    (line rest : Bytes) :
    Pass.Related R
      ((HttpContext.mk .requestLine request).takeRequestLine line rest time)
      ((HttpContext.mk .requestLine request').takeRequestLine line rest time') := by
  cases haccepted : acceptsRequestLine line with
  | false =>
      rw [takeRequestLine_rejected _ haccepted, takeRequestLine_rejected _ haccepted]
      exact .done _ _ ⟨rfl, h⟩
  | true =>
      rw [takeRequestLine_accepted _ haccepted, takeRequestLine_accepted _ haccepted]
      exact .again _ ⟨rfl, hR.requestLine line h⟩

theorem parsePass_related (hR : ReadingSimulation R time time')
    {context context' : HttpContext} (h : Related R context context')
    (buff : Bytes) :
    Pass.Related R (context.parsePass buff time)
      (context'.parsePass buff time') := by
  obtain ⟨state, request⟩ := context
  obtain ⟨state', request'⟩ := context'
  obtain ⟨hstate, h⟩ := h
  obtain rfl : state = state' := hstate
  by_cases hlacks : (HttpContext.mk state request).LacksData buff
  · have hlacks' : (HttpContext.mk state request').LacksData buff := by
      cases state with
      | requestLine => exact hlacks
      | headers => exact hlacks
      | body =>
          change buff.length < request'.getContentLength.toNat
          rw [← hR.sameLength h]
          exact hlacks
      | finish => exact hlacks
    rw [parsePass_of_lacksData hlacks, parsePass_of_lacksData hlacks']
    exact .done _ _ ⟨rfl, h⟩
  rcases ready_cases hlacks with ⟨hstate, line, rest, hfree, rfl⟩ |
    ⟨hstate, body, rest, hbody, rfl⟩ | hstate
  · rcases hstate with hstate | hstate
    · obtain rfl : state = .requestLine := hstate
      rw [parsePass_requestLine rfl hfree, parsePass_requestLine rfl hfree]
      exact takeRequestLine_related hR h line rest
    · obtain rfl : state = .headers := hstate
      rw [parsePass_headerLine rfl hfree, parsePass_headerLine rfl hfree]
      exact takeHeaderLine_related hR h line rest
  · obtain rfl : state = .body := hstate
    have hbody' : body.length = request'.getContentLength.toNat := by
      rw [← hR.sameLength h]
      exact hbody
    rw [parsePass_body rfl hbody, parsePass_body rfl hbody']
    exact .done _ _ ⟨rfl, hR.body body h⟩
  · obtain rfl : state = .finish := hstate
    rw [parsePass_finish rfl, parsePass_finish rfl]
    exact .done _ _ ⟨rfl, h⟩

/-- Calls from related contexts on the same bytes end alike, in related
contexts. -/
theorem parseRequest_related (hR : ReadingSimulation R time time')
    (context : HttpContext) (buff : Bytes) :
    ∀ context', Related R context context' →
      (context.parseRequest buff time).outcome =
          (context'.parseRequest buff time').outcome ∧
        (context.parseRequest buff time).buffer =
          (context'.parseRequest buff time').buffer ∧
        Related R (context.parseRequest buff time).context
          (context'.parseRequest buff time').context := by
  refine parseRequest_induction time context buff ?_
  intro context buff ih context' h
  have hpasses := parsePass_related hR h buff
  rw [parseRequest_eq context, parseRequest_eq context']
  generalize hpass : context.parsePass buff time = pass at hpasses
  generalize context'.parsePass buff time' = pass' at hpasses
  cases hpasses with
  | again buffer hnext => exact ih _ _ hpass _ hnext
  | done outcome buffer hnext => exact ⟨rfl, rfl, hnext⟩

end HttpContext

/-- Runs of calls from related contexts with the same unread bytes. -/
theorem Connection.runFrom_parse_related
    (hR : ∀ time, ReadingSimulation R time time) (context context' : HttpContext)
    (h : HttpContext.Related R context context') (buffer : Bytes)
    (arrivals : List Arrival) :
    let final := (runFrom Connection.parse ⟨context, buffer⟩ arrivals).1
    let final' := (runFrom Connection.parse ⟨context', buffer⟩ arrivals).1
    final.buffer = final'.buffer ∧
      HttpContext.Related R final.context final'.context := by
  have hrun := runFrom_simulation (σ := Connection Bytes) (τ := Connection Bytes)
    parse parse (fun connection connection' =>
      connection.buffer = connection'.buffer ∧
        HttpContext.Related R connection.context connection'.context) ?_
    ⟨context, buffer⟩ ⟨context', buffer⟩ ⟨rfl, h⟩ arrivals
  · exact hrun.1
  · rintro ⟨context, buffer⟩ ⟨context', buffer'⟩ arrival ⟨hbuffer, hrelated⟩
    obtain rfl : buffer = buffer' := hbuffer
    have hcall := HttpContext.parseRequest_related (hR arrival.time) context
      (buffer ++ arrival.bytes) context' hrelated
    exact ⟨⟨hcall.2.1, hcall.2.2⟩, hcall.1⟩

end CuteHttpServer
