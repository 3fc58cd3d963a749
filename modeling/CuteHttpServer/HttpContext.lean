/-
The incremental request parser: four states, one pass of the `while` loop for
each line or body, and a loop that stops as soon as a pass returns.
-/
import CuteHttpServer.Buffer
import CuteHttpServer.HttpRequest

namespace CuteHttpServer

open ByteString DelimitedText KeyedMap

inductive HttpRequestParseState
  | requestLine
  | headers
  | body
  | finish
deriving DecidableEq, Repr

structure HttpContext where
  state : HttpRequestParseState
  request : HttpRequest
deriving DecidableEq

/-- How a call ended: by its boolean result or by an exception. -/
inductive ParseOutcome
  | returned (ok : Bool)
  | threw (e : StdException)
deriving DecidableEq, Repr

structure ParseResult (B : Type) where
  outcome : ParseOutcome
  context : HttpContext
  buffer : B
deriving DecidableEq

/-- The exceptions of `std::stoul`, with the text the standard library gives
both of them. -/
def stoulException : NumberError → StdException
  | .invalidArgument => ⟨ascii "stoul"⟩
  | .outOfRange => ⟨ascii "stoul"⟩

/-- The three tokens of a request line, empty where the line has run out. -/
def requestTokens (line : Bytes) : Bytes × Bytes × Bytes :=
  let method := extractToken line
  let target := extractToken method.2
  let version := extractToken target.2
  (method.1, target.1, version.1)

/-- One `key=value` piece; a piece without `=` names nothing. -/
def queryPair (piece : Bytes) : Option (Bytes × Bytes) :=
  match piece.idxOf? 61 with
  | some position => some (piece.take position, piece.drop (position + 1))
  | none => none

/-- Path and query pieces of a request target, cut at the first `?`. -/
def splitTarget (target : Bytes) : Bytes × List Bytes :=
  match target.idxOf? 63 with
  | some position => (target.take position, pieces 38 (target.drop (position + 1)))
  | none => (target, [])

/-- Name and value of a header line: blanks are cut after the name and before
the value. -/
def headerField (line : Bytes) : Option (Bytes × Bytes) :=
  match line.idxOf? 58 with
  | some position =>
      some ((line.take position).rdropWhile isBlank,
        (line.drop (position + 1)).dropWhile isBlank)
  | none => none

namespace HttpContext

/-- A new context; see `HttpRequest.new` for the parameter. -/
def new (indeterminate : UInt64) : HttpContext :=
  ⟨.requestLine, HttpRequest.new indeterminate⟩

def gotAll (context : HttpContext) : Bool := context.state == .finish

def getRequest (context : HttpContext) : HttpRequest := context.request

/-- `Reset` swaps the request with a new one.  The new one's indeterminate
length is never read, see `HttpRequest.swap_new`. -/
def reset (context : HttpContext) : HttpContext :=
  { state := .requestLine
    request := (context.request.swap (HttpRequest.new 0)).1 }

def parseRequestLine (context : HttpContext) (line : Bytes) :
    Bool × HttpContext :=
  match requestTokens line with
  | (method, target, version) =>
      if method = [] ∨ target = [] ∨ version = [] then (false, context)
      else
        let request := (context.request.setMethod method).2.setVersion version
        let request := request.setPath (splitTarget target).1
        let request := ((splitTarget target).2.filterMap queryPair).foldl
          (fun request pair => request.setQueryParams pair.1 pair.2) request
        (true, { context with request := request })

def parseHeaderLine (context : HttpContext) (line : Bytes) :
    Bool × HttpContext :=
  match headerField line with
  | none => (false, context)
  | some (key, value) =>
      (true, { context with request := context.request.addHeader key value })

def parseBody (context : HttpContext) (bodyData : Bytes) : Bool × HttpContext :=
  (true, { context with request := context.request.setRequestBody bodyData })

end HttpContext

/-- What one pass of the loop does: go round again or return. -/
inductive Pass (B : Type)
  | again (context : HttpContext) (buffer : B)
  | done (result : ParseResult B)

def Pass.map {B B' : Type} (f : B → B') : Pass B → Pass B'
  | .again context buffer => .again context (f buffer)
  | .done result => .done ⟨result.outcome, result.context, f result.buffer⟩

def Pass.context {B : Type} : Pass B → HttpContext
  | .again context _ => context
  | .done result => result.context

def Pass.buffer {B : Type} : Pass B → B
  | .again _ buffer => buffer
  | .done result => result.buffer

@[simp] theorem Pass.context_again {B : Type} (context : HttpContext)
    (buffer : B) : (Pass.again context buffer).context = context := rfl

@[simp] theorem Pass.context_done {B : Type} (result : ParseResult B) :
    (Pass.done result).context = result.context := rfl

@[simp] theorem Pass.buffer_again {B : Type} (context : HttpContext)
    (buffer : B) : (Pass.again context buffer).buffer = buffer := rfl

@[simp] theorem Pass.buffer_done {B : Type} (result : ParseResult B) :
    (Pass.done result).buffer = result.buffer := rfl

namespace HttpContext

variable {B : Type}

/-- The pass in state `REQUEST_LINE` once a line is there and has been taken
off the buffer. -/
def takeRequestLine (context : HttpContext) (line : Bytes) (buff : B)
    (receiveTime : Timestamp) : Pass B :=
  match context.parseRequestLine line with
  | (false, context) => .done ⟨.returned false, context, buff⟩
  | (true, context) =>
      .again
        { state := .headers
          request := context.request.setReceiveTime receiveTime } buff

/-- The pass in state `HEADERS` once a line is there and has been taken off
the buffer.  The empty line ends the header block. -/
def takeHeaderLine (context : HttpContext) (line : Bytes) (buff : B) : Pass B :=
  if line ≠ [] then
    match context.parseHeaderLine line with
    | (false, context) => .done ⟨.returned false, context, buff⟩
    | (true, context) => .again context buff
  else
    let contentLength := context.request.getHeader (ascii "Content-Length")
    if contentLength = [] then
      .done ⟨.returned true, { context with state := .finish }, buff⟩
    else
      match stoul contentLength with
      | .error e => .done ⟨.threw (stoulException e), context, buff⟩
      | .ok length =>
          .again
            { state := .body
              request := context.request.setContentLength length } buff

variable [Buffer B]

/-- One pass of the `while (true)` loop of `ParseRequest`.  A `false` stands
for "need more data" as well as for a line that is not accepted. -/
def parsePass (context : HttpContext) (buff : B) (receiveTime : Timestamp) :
    Pass B :=
  match context.state with
  | .requestLine =>
      match Buffer.findCRLF buff with
      | some crlf =>
          context.takeRequestLine ((Buffer.readable buff).take crlf)
            (Buffer.retrieve buff (crlf + 2)) receiveTime
      | none => .done ⟨.returned false, context, buff⟩
  | .headers =>
      match Buffer.findCRLF buff with
      | some crlf =>
          context.takeHeaderLine ((Buffer.readable buff).take crlf)
            (Buffer.retrieve buff (crlf + 2))
      | none => .done ⟨.returned false, context, buff⟩
  | .body =>
      let contentLength := context.request.getContentLength.toNat
      if contentLength ≤ (Buffer.readable buff).length then
        let bodyData := (Buffer.readable buff).take contentLength
        let buff := Buffer.retrieve buff contentLength
        match context.parseBody bodyData with
        | (false, context) => .done ⟨.returned false, context, buff⟩
        | (true, context) =>
            .done ⟨.returned true, { context with state := .finish }, buff⟩
      else .done ⟨.returned false, context, buff⟩
  | .finish => .done ⟨.returned true, context, buff⟩

/-- The loop, for at most `fuel` passes. -/
def parseLoop (receiveTime : Timestamp) :
    Nat → HttpContext → B → Option (ParseResult B)
  | 0, _, _ => none
  | fuel + 1, context, buff =>
      match context.parsePass buff receiveTime with
      | .done result => some result
      | .again context buff => parseLoop receiveTime fuel context buff

omit [Buffer B] in
theorem takeRequestLine_map {B' : Type} (f : B → B') (context : HttpContext)
    (line : Bytes) (buff : B) (receiveTime : Timestamp) :
    (context.takeRequestLine line buff receiveTime).map f =
      context.takeRequestLine line (f buff) receiveTime := by
  unfold takeRequestLine
  cases context.parseRequestLine line with
  | mk ok context => cases ok <;> rfl

omit [Buffer B] in
theorem takeHeaderLine_map {B' : Type} (f : B → B') (context : HttpContext)
    (line : Bytes) (buff : B) :
    (context.takeHeaderLine line buff).map f =
      context.takeHeaderLine line (f buff) := by
  unfold takeHeaderLine
  by_cases hline : line ≠ []
  · rw [if_pos hline, if_pos hline]
    cases context.parseHeaderLine line with
    | mk ok context => cases ok <;> rfl
  · rw [if_neg hline, if_neg hline]
    by_cases hlength : context.request.getHeader (ascii "Content-Length") = []
    · simp only [hlength, ↓reduceIte, Pass.map]
    · simp only [hlength, ↓reduceIte]
      cases stoul (context.request.getHeader (ascii "Content-Length")) <;> rfl

/-- The parser works alike on a buffer and on what it is seen as. -/
theorem parsePass_see {B' : Type} [Buffer B'] (view : Buffer.View B B')
    (context : HttpContext) (buff : B) (receiveTime : Timestamp) :
    (context.parsePass buff receiveTime).map view.see =
      context.parsePass (view.see buff) receiveTime := by
  have hline : ∀ crlf, Buffer.findCRLF buff = some crlf →
      view.see (Buffer.retrieve buff (crlf + 2)) =
        Buffer.retrieve (view.see buff) (crlf + 2) := by
    intro crlf hfind
    rw [Buffer.findCRLF_eq] at hfind
    exact view.see_retrieve buff _ (findPair_add_two_le hfind)
  unfold parsePass
  cases context.state with
  | requestLine =>
      simp only [view.findCRLF_see, view.readable_see]
      cases hcrlf : Buffer.findCRLF buff with
      | none => rfl
      | some crlf => simp only [takeRequestLine_map, hline crlf hcrlf]
  | headers =>
      simp only [view.findCRLF_see, view.readable_see]
      cases hcrlf : Buffer.findCRLF buff with
      | none => rfl
      | some crlf => simp only [takeHeaderLine_map, hline crlf hcrlf]
  | body =>
      by_cases hlength : context.request.getContentLength.toNat ≤
          (Buffer.readable buff).length
      · simp only [view.readable_see, hlength, ↓reduceIte, parseBody, Pass.map,
          view.see_retrieve buff _ hlength]
      · simp only [view.readable_see, hlength, ↓reduceIte, Pass.map]
  | finish => rfl

theorem parsePass_readable (context : HttpContext) (buff : B)
    (receiveTime : Timestamp) :
    (context.parsePass buff receiveTime).map Buffer.readable =
      context.parsePass (Buffer.readable buff) receiveTime :=
  parsePass_see (Buffer.View.bytes B) context buff receiveTime

omit [Buffer B] in
/-- The line has been taken off the buffer before. -/
theorem buffer_takeRequestLine (context : HttpContext) (line : Bytes) (buff : B)
    (receiveTime : Timestamp) :
    (context.takeRequestLine line buff receiveTime).buffer = buff := by
  unfold takeRequestLine
  cases context.parseRequestLine line with
  | mk ok context => cases ok <;> rfl

omit [Buffer B] in
theorem buffer_takeHeaderLine (context : HttpContext) (line : Bytes) (buff : B) :
    (context.takeHeaderLine line buff).buffer = buff := by
  unfold takeHeaderLine
  by_cases hline : line ≠ []
  · rw [if_pos hline]
    cases context.parseHeaderLine line with
    | mk ok context => cases ok <;> rfl
  · rw [if_neg hline]
    by_cases hlength : context.request.getHeader (ascii "Content-Length") = []
    · simp only [hlength, ↓reduceIte, Pass.buffer_done]
    · simp only [hlength, ↓reduceIte]
      cases stoul (context.request.getHeader (ascii "Content-Length")) <;> rfl

/-- A pass that goes round again has taken a line off the buffer. -/
theorem parsePass_again_length {context context' : HttpContext} {buff buff' : B}
    {receiveTime : Timestamp}
    (h : context.parsePass buff receiveTime = .again context' buff') :
    (Buffer.readable buff').length < (Buffer.readable buff).length := by
  have hretrieve : ∀ crlf, Buffer.findCRLF buff = some crlf →
      (Buffer.readable (Buffer.retrieve buff (crlf + 2))).length <
        (Buffer.readable buff).length := by
    intro crlf hfind
    rw [Buffer.findCRLF_eq] at hfind
    have hle := findPair_add_two_le hfind
    rw [Buffer.readable_retrieve buff _ hle, List.length_drop]
    omega
  unfold parsePass at h
  cases hstate : context.state with
  | requestLine =>
      simp only [hstate] at h
      cases hcrlf : Buffer.findCRLF buff with
      | none => simp [hcrlf] at h
      | some crlf =>
          simp only [hcrlf] at h
          have hbuffer := congrArg Pass.buffer h
          rw [buffer_takeRequestLine, Pass.buffer_again] at hbuffer
          rw [← hbuffer]
          exact hretrieve crlf hcrlf
  | headers =>
      simp only [hstate] at h
      cases hcrlf : Buffer.findCRLF buff with
      | none => simp [hcrlf] at h
      | some crlf =>
          simp only [hcrlf] at h
          have hbuffer := congrArg Pass.buffer h
          rw [buffer_takeHeaderLine, Pass.buffer_again] at hbuffer
          rw [← hbuffer]
          exact hretrieve crlf hcrlf
  | body =>
      simp only [hstate, parseBody] at h
      by_cases hlength : context.request.getContentLength.toNat ≤
          (Buffer.readable buff).length
      · simp [hlength] at h
      · simp [hlength] at h
  | finish => simp [hstate] at h

theorem parseLoop_isSome (receiveTime : Timestamp) {fuel : Nat}
    {context : HttpContext} {buff : B}
    (hfuel : (Buffer.readable buff).length < fuel) :
    (parseLoop receiveTime fuel context buff).isSome := by
  induction fuel generalizing context buff with
  | zero => omega
  | succ fuel ih =>
      rw [parseLoop]
      cases hpass : context.parsePass buff receiveTime with
      | done result => rfl
      | again context' buff' =>
          have hshorter := parsePass_again_length hpass
          exact ih (by omega)

/-- More fuel than needed changes nothing. -/
theorem parseLoop_mono (receiveTime : Timestamp) {fuel : Nat}
    {context : HttpContext} {buff : B} {result : ParseResult B}
    (h : parseLoop receiveTime fuel context buff = some result) {more : Nat}
    (hmore : fuel ≤ more) :
    parseLoop receiveTime more context buff = some result := by
  induction fuel generalizing more context buff with
  | zero => simp [parseLoop] at h
  | succ fuel ih =>
      obtain ⟨more, rfl⟩ := Nat.exists_eq_add_of_lt (Nat.lt_of_succ_le hmore)
      rw [parseLoop] at h ⊢
      cases hpass : context.parsePass buff receiveTime with
      | done result => simpa only [hpass] using h
      | again context' buff' =>
          simp only [hpass] at h ⊢
          exact ih h (by omega)

/-- `ParseRequest`: the loop ends, since each pass that goes on shortens the
buffer. -/
def parseRequest (context : HttpContext) (buff : B) (receiveTime : Timestamp) :
    ParseResult B :=
  (parseLoop receiveTime ((Buffer.readable buff).length + 1) context buff).get
    (parseLoop_isSome receiveTime (Nat.lt_succ_self _))

/-- The loop unrolled once. -/
theorem parseRequest_eq (context : HttpContext) (buff : B)
    (receiveTime : Timestamp) :
    context.parseRequest buff receiveTime =
      match context.parsePass buff receiveTime with
      | .done result => result
      | .again context' buff' => context'.parseRequest buff' receiveTime := by
  cases hpass : context.parsePass buff receiveTime with
  | done result => simp [parseRequest, parseLoop, hpass]
  | again context' buff' =>
      have hshorter := parsePass_again_length hpass
      have hrest : parseLoop receiveTime (Buffer.readable buff).length context' buff' =
          some (context'.parseRequest buff' receiveTime) := by
        apply parseLoop_mono receiveTime (Option.some_get _).symm
        omega
      simp only [parseRequest, parseLoop, hpass, hrest, Option.get_some]

/-- Induction along the passes of the loop. -/
@[elab_as_elim]
theorem parseRequest_induction (receiveTime : Timestamp)
    {motive : HttpContext → B → Prop} (context : HttpContext) (buff : B)
    (step : ∀ context buff,
      (∀ context' buff', context.parsePass buff receiveTime = .again context' buff' →
        motive context' buff') → motive context buff) :
    motive context buff := by
  induction hlength : (Buffer.readable buff).length using Nat.strong_induction_on
    generalizing context buff with
  | h n ih =>
      subst hlength
      apply step
      intro context' buff' hpass
      exact ih _ (parsePass_again_length hpass) context' buff' rfl

theorem parseRequest_see {B' : Type} [Buffer B'] (view : Buffer.View B B')
    (context : HttpContext) (buff : B) (receiveTime : Timestamp) :
    context.parseRequest (view.see buff) receiveTime =
      ⟨(context.parseRequest buff receiveTime).outcome,
        (context.parseRequest buff receiveTime).context,
        view.see (context.parseRequest buff receiveTime).buffer⟩ := by
  refine parseRequest_induction receiveTime context buff ?_
  intro context buff ih
  have hsee := parsePass_see view context buff receiveTime
  rw [parseRequest_eq context (view.see buff), parseRequest_eq context buff, ← hsee]
  cases hpass : context.parsePass buff receiveTime with
  | done result => rfl
  | again context' buff' => exact ih context' buff' hpass

/-- Parsing a buffer is parsing its readable bytes. -/
theorem parseRequest_readable (context : HttpContext) (buff : B)
    (receiveTime : Timestamp) :
    context.parseRequest (Buffer.readable buff) receiveTime =
      ⟨(context.parseRequest buff receiveTime).outcome,
        (context.parseRequest buff receiveTime).context,
        Buffer.readable (context.parseRequest buff receiveTime).buffer⟩ :=
  parseRequest_see (Buffer.View.bytes B) context buff receiveTime

end HttpContext

end CuteHttpServer
