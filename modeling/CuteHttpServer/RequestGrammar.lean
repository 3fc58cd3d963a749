/-
What a request is, apart from how it arrives: the lines that are let through,
what they leave in the request object, the text of a whole request, and how
many body bytes its header block announces.
-/
import CuteHttpServer.HttpContext

namespace CuteHttpServer

open ByteString DelimitedText KeyedMap

/-- Lines that `ParseRequestLine` lets through: three tokens or more. -/
def acceptsRequestLine (line : Bytes) : Bool :=
  (requestTokens line).1 ≠ [] && (requestTokens line).2.1 ≠ [] &&
    (requestTokens line).2.2 ≠ []

/-- `HTTP/` and two digits with a dot between them. -/
def IsHttpVersion (version : Bytes) : Prop :=
  ∃ major minor, isDigit major = true ∧ isDigit minor = true ∧
    version = ascii "HTTP/" ++ [major, 46, minor]

/-- Lines that `ParseHeaderLine` lets through: those with a colon. -/
def acceptsHeaderLine (line : Bytes) : Bool := (headerField line).isSome

/-- The fields of a header block, in order. -/
def headerFields (lines : List Bytes) : List (Bytes × Bytes) :=
  lines.filterMap headerField

abbrev contentLengthName : Bytes := ascii "Content-Length"

/-- The first `Content-Length` value of a header block, empty if there is
none. -/
def contentLengthField (lines : List Bytes) : Bytes :=
  (fieldValue (headerFields lines) contentLengthName).getD []

namespace HttpRequest

/-- What an accepted request line leaves in the request. -/
def readRequestLine (request : HttpRequest) (line : Bytes) : HttpRequest :=
  { request with
    method := methodOf (requestTokens line).1
    path := (splitTarget (requestTokens line).2.1).1
    queryParams := assignAll request.queryParams
      ((splitTarget (requestTokens line).2.1).2.filterMap queryPair)
    version := (requestTokens line).2.2 }

/-- What a header line leaves in the request. -/
def readHeaderLine (request : HttpRequest) (line : Bytes) : HttpRequest :=
  match headerField line with
  | none => request
  | some field => request.addHeader field.1 field.2

def readHeaderLines (request : HttpRequest) (lines : List Bytes) : HttpRequest :=
  lines.foldl readHeaderLine request

/-- What the end of the header block and the body leave in the request. -/
def readBody (request : HttpRequest) (body : Bytes) : HttpRequest :=
  if request.getHeader contentLengthName = [] then request
  else (request.setContentLength (UInt64.ofNat body.length)).setRequestBody body

theorem foldl_setQueryParams (request : HttpRequest)
    (pairs : List (Bytes × Bytes)) :
    pairs.foldl (fun request pair => request.setQueryParams pair.1 pair.2) request =
      { request with queryParams := assignAll request.queryParams pairs } := by
  induction pairs generalizing request with
  | nil => rfl
  | cons pair pairs ih => exact ih (request.setQueryParams pair.1 pair.2)

theorem readHeaderLines_eq (request : HttpRequest) (lines : List Bytes) :
    request.readHeaderLines lines =
      { request with
        requestHeaders := emplaceAll request.requestHeaders (headerFields lines) } := by
  induction lines generalizing request with
  | nil => rfl
  | cons line lines ih =>
      change (request.readHeaderLine line).readHeaderLines lines = _
      rw [ih]
      unfold readHeaderLine headerFields
      rw [List.filterMap_cons]
      cases headerField line with
      | none => rfl
      | some field => rfl

theorem readHeaderLines_append (request : HttpRequest)
    (lines lines' : List Bytes) :
    request.readHeaderLines (lines ++ lines') =
      (request.readHeaderLines lines).readHeaderLines lines' :=
  List.foldl_append

/-- A name is looked up among the headers that were there and then among the
fields of the lines, the first one winning. -/
theorem getHeader_readHeaderLines (request : HttpRequest) (lines : List Bytes)
    (name : Bytes) :
    (request.readHeaderLines lines).getHeader name =
      ((request.requestHeaders.lookup name).or
        (fieldValue (headerFields lines) name)).getD [] := by
  rw [readHeaderLines_eq, getHeader, lookup_emplaceAll]

theorem contentLength_readHeaderLines {request : HttpRequest}
    (hrequest : request.requestHeaders = ∅) (lines : List Bytes) :
    (request.readHeaderLines lines).getHeader contentLengthName =
      contentLengthField lines := by
  simp [getHeader_readHeaderLines, hrequest, contentLengthField]

@[simp] theorem getHeader_readBody (request : HttpRequest) (body name : Bytes) :
    (request.readBody body).getHeader name = request.getHeader name := by
  unfold readBody
  by_cases hlength : request.getHeader contentLengthName = []
  · rw [if_pos hlength]
  · rw [if_neg hlength]
    rfl

end HttpRequest

namespace HttpContext

theorem parseRequestLine_eq (context : HttpContext) (line : Bytes) :
    context.parseRequestLine line =
      if acceptsRequestLine line then
        (true, { context with request := context.request.readRequestLine line })
      else (false, context) := by
  unfold parseRequestLine acceptsRequestLine
  by_cases hmethod : (requestTokens line).1 = []
  · simp [hmethod]
  · by_cases htarget : (requestTokens line).2.1 = []
    · simp [htarget]
    · by_cases hversion : (requestTokens line).2.2 = []
      · simp [hversion]
      · simp only [hmethod, htarget, hversion, or_self, ↓reduceIte, ne_eq,
          not_false_eq_true, decide_true, Bool.and_self,
          HttpRequest.foldl_setQueryParams]
        rfl

theorem parseHeaderLine_eq (context : HttpContext) (line : Bytes) :
    context.parseHeaderLine line =
      (acceptsHeaderLine line,
        { context with request := context.request.readHeaderLine line }) := by
  unfold parseHeaderLine acceptsHeaderLine HttpRequest.readHeaderLine
  cases headerField line <;> rfl

end HttpContext

/-- A line that can stand in a header block, up to its acceptance. -/
def HeaderLineText (line : Bytes) : Prop := line ≠ [] ∧ CrlfFree line

instance (line : Bytes) : Decidable (HeaderLineText line) :=
  inferInstanceAs (Decidable (line ≠ [] ∧ CrlfFree line))

/-- The body that a `Content-Length` value announces: none without a value,
otherwise as many bytes as `std::stoul` makes of it. -/
def BodyMatches (contentLength body : Bytes) : Prop :=
  if contentLength = [] then body = []
  else ∃ length, stoul contentLength = .ok length ∧ body.length = length.toNat

/-- The text of one request, cut into its parts. -/
structure RequestText where
  requestLine : Bytes
  headerLines : List Bytes
  body : Bytes
  requestLine_free : CrlfFree requestLine
  requestLine_accepted : acceptsRequestLine requestLine = true
  headerLines_text : ∀ line ∈ headerLines, HeaderLineText line
  headerLines_accepted : ∀ line ∈ headerLines, acceptsHeaderLine line = true
  body_matches : BodyMatches (contentLengthField headerLines) body

namespace RequestText

/-- The bytes of the request as they stand on the wire. -/
def render (text : RequestText) : Bytes :=
  withCrlf (text.requestLine :: text.headerLines ++ [[]]) ++ text.body

/-- The request object those bytes are read into. -/
def read (text : RequestText) (base : HttpRequest) (receiveTime : Timestamp) :
    HttpRequest :=
  (((base.readRequestLine text.requestLine).setReceiveTime
    receiveTime).readHeaderLines text.headerLines).readBody text.body

theorem render_ne_nil (text : RequestText) : text.render ≠ [] := by
  simp [render]

end RequestText

end CuteHttpServer
