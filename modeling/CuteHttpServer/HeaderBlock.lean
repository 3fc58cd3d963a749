/-
What one call of the parser makes of a whole header block and the bytes after
it: the values its lines give, the framing of the body and the decision about
the connection.
-/
import CuteHttpServer.HttpServer
import CuteHttpServer.ParseSpec

namespace CuteHttpServer

open ByteString DelimitedText KeyedMap

/-- A request up to the end of its header block. -/
structure RequestBlock where
  requestLine : Bytes
  headerLines : List Bytes
  requestLine_free : CrlfFree requestLine
  requestLine_accepted : acceptsRequestLine requestLine = true
  headerLines_accepted : AcceptedLines headerLines

namespace RequestBlock

/-- Its bytes, and those after it. -/
def text (block : RequestBlock) (tail : Bytes) : Bytes :=
  withCrlf (block.requestLine :: block.headerLines) ++ CR :: LF :: tail

/-- What its lines leave in a new request. -/
def read (block : RequestBlock) (indeterminate : UInt64) (receiveTime : Timestamp) :
    HttpRequest :=
  (((HttpRequest.new indeterminate).readRequestLine block.requestLine).setReceiveTime
    receiveTime).readHeaderLines block.headerLines

theorem getHeader_read (block : RequestBlock) (indeterminate : UInt64)
    (receiveTime : Timestamp) (name : Bytes) :
    (block.read indeterminate receiveTime).getHeader name =
      (fieldValue (headerFields block.headerLines) name).getD [] := by
  rw [read, HttpRequest.getHeader_readHeaderLines]
  rfl

theorem getVersion_read (block : RequestBlock) (indeterminate : UInt64)
    (receiveTime : Timestamp) :
    (block.read indeterminate receiveTime).getVersion =
      (requestTokens block.requestLine).2.2 := by
  rw [read, HttpRequest.readHeaderLines_eq]
  rfl

theorem getRequestBody_read (block : RequestBlock) (indeterminate : UInt64)
    (receiveTime : Timestamp) :
    (block.read indeterminate receiveTime).getRequestBody = [] := by
  rw [read, HttpRequest.readHeaderLines_eq]
  rfl

end RequestBlock

namespace HttpContext

variable {B : Type} [Buffer B]

/-- What the parser makes of the bytes after a header block. -/
def afterHeaders (request : HttpRequest) (tail : Bytes) : ParseResult Bytes :=
  if request.getHeader contentLengthName = [] then
    ⟨.returned true, ⟨.finish, request⟩, tail⟩
  else
    match stoul (request.getHeader contentLengthName) with
    | .error e => ⟨.threw (stoulException e), ⟨.headers, request⟩, tail⟩
    | .ok length =>
        if length.toNat ≤ tail.length then
          ⟨.returned true,
            ⟨.finish, (request.setContentLength length).setRequestBody
              (tail.take length.toNat)⟩, tail.drop length.toNat⟩
        else ⟨.returned false, ⟨.body, request.setContentLength length⟩, tail⟩

theorem parseRequest_afterHeaders (request : HttpRequest) (tail : Bytes)
    (receiveTime : Timestamp) :
    (HttpContext.mk .headers request).parseRequest (CR :: LF :: tail) receiveTime =
      afterHeaders request tail := by
  have hpass : (HttpContext.mk .headers request).parsePass ([] ++ CR :: LF :: tail)
      receiveTime = _ := parsePass_headerLine rfl (pairFree_nil CR LF) tail
  rw [List.nil_append] at hpass
  rw [parseRequest_eq, hpass, afterHeaders]
  by_cases hlength : request.getHeader contentLengthName = []
  · rw [takeHeaderLine_noBody _ hlength, if_pos hlength]
  · rw [if_neg hlength]
    cases hstoul : stoul (request.getHeader contentLengthName) with
    | error e => rw [takeHeaderLine_threw _ hlength hstoul]
    | ok length =>
        rw [takeHeaderLine_body _ hlength hstoul]
        dsimp only
        by_cases henough : length.toNat ≤ tail.length
        · have htaken : (tail.take length.toNat).length = length.toNat :=
            List.length_take_of_le henough
          have hbody : (HttpContext.mk .body (request.setContentLength length)).parsePass
              (tail.take length.toNat ++ tail.drop length.toNat) receiveTime = _ :=
            parsePass_body rfl htaken _
          rw [List.take_append_drop] at hbody
          rw [if_pos henough, parseRequest_eq, hbody]
        · have hlacks : (HttpContext.mk .body (request.setContentLength length)).LacksData
              tail := Nat.lt_of_not_le henough
          rw [if_neg henough, parseRequest_eq, parsePass_of_lacksData hlacks]

/-- One call on a header block and what comes after it. -/
theorem parseRequest_block (block : RequestBlock) (indeterminate : UInt64)
    (tail : Bytes) (receiveTime : Timestamp) :
    (new indeterminate).parseRequest (block.text tail) receiveTime =
      afterHeaders (block.read indeterminate receiveTime) tail := by
  rw [RequestBlock.text, withCrlf, joinLines_cons, List.append_assoc, List.cons_append,
    List.cons_append, new, parseRequest_requestLine block.requestLine_free
      block.requestLine_accepted, parseRequest_headerLines block.headerLines_accepted,
    parseRequest_afterHeaders]
  rfl

/-- The bytes after a header block leave what it says as it is. -/
theorem afterHeaders_keeps (request : HttpRequest) (tail : Bytes) :
    (afterHeaders request tail).context.request.requestHeaders = request.requestHeaders ∧
      (afterHeaders request tail).context.request.version = request.version := by
  unfold afterHeaders
  by_cases hlength : request.getHeader contentLengthName = []
  · rw [if_pos hlength]
    exact ⟨rfl, rfl⟩
  · rw [if_neg hlength]
    cases stoul (request.getHeader contentLengthName) with
    | error e => exact ⟨rfl, rfl⟩
    | ok length =>
        dsimp only
        by_cases henough : length.toNat ≤ tail.length
        · rw [if_pos henough]
          exact ⟨rfl, rfl⟩
        · rw [if_neg henough]
          exact ⟨rfl, rfl⟩

@[simp] theorem getHeader_afterHeaders (request : HttpRequest) (tail name : Bytes) :
    (afterHeaders request tail).context.request.getHeader name = request.getHeader name := by
  rw [HttpRequest.getHeader, (afterHeaders_keeps request tail).1]
  rfl

@[simp] theorem getVersion_afterHeaders (request : HttpRequest) (tail : Bytes) :
    (afterHeaders request tail).context.request.getVersion = request.getVersion :=
  (afterHeaders_keeps request tail).2

end HttpContext

/-- Two calls of the parser that end alike, take the same body and leave the
same bytes. -/
structure SameFraming {B : Type} [Buffer B] (result result' : ParseResult B) : Prop where
  outcome : result.outcome = result'.outcome
  body : result.context.getRequest.getRequestBody = result'.context.getRequest.getRequestBody
  rest : Buffer.readable result.buffer = Buffer.readable result'.buffer

/-- The value that a header block gives a name. -/
def RequestBlock.value (block : RequestBlock) (name : Bytes) : Bytes :=
  (fieldValue (headerFields block.headerLines) name).getD []

theorem HttpContext.sameFraming_afterHeaders {request request' : HttpRequest}
    (hlength : request.getHeader contentLengthName = request'.getHeader contentLengthName)
    (hbody : request.getRequestBody = request'.getRequestBody) (tail : Bytes) :
    SameFraming (afterHeaders request tail) (afterHeaders request' tail) := by
  unfold afterHeaders
  rw [← hlength]
  by_cases hnone : request.getHeader contentLengthName = []
  · rw [if_pos hnone, if_pos hnone]
    exact ⟨rfl, hbody, rfl⟩
  · rw [if_neg hnone, if_neg hnone]
    cases stoul (request.getHeader contentLengthName) with
    | error e => exact ⟨rfl, hbody, rfl⟩
    | ok length =>
        dsimp only
        by_cases henough : length.toNat ≤ tail.length
        · rw [if_pos henough, if_pos henough]
          exact ⟨rfl, rfl, rfl⟩
        · rw [if_neg henough, if_neg henough]
          exact ⟨rfl, hbody, rfl⟩

namespace RequestBlock

variable {B : Type} [Buffer B] {block block' : RequestBlock} {indeterminate : UInt64}
  {tail : Bytes} {receiveTime : Timestamp} {buff buff' : B}

/-- For any buffer that holds the block. -/
theorem parseRequest_of_readable (indeterminate : UInt64) (receiveTime : Timestamp)
    (hbuff : Buffer.readable buff = block.text tail) :
    let result := (HttpContext.new indeterminate).parseRequest buff receiveTime
    HttpContext.afterHeaders (block.read indeterminate receiveTime) tail =
      ⟨result.outcome, result.context, Buffer.readable result.buffer⟩ := by
  rw [← HttpContext.parseRequest_block, ← hbuff]
  exact HttpContext.parseRequest_readable _ buff receiveTime

theorem getHeader_parseRequest (hbuff : Buffer.readable buff = block.text tail)
    (name : Bytes) :
    ((HttpContext.new indeterminate).parseRequest buff
      receiveTime).context.getRequest.getHeader name = block.value name := by
  have hcontext := congrArg ParseResult.context
    (parseRequest_of_readable indeterminate receiveTime hbuff)
  rw [HttpContext.getRequest, ← hcontext, HttpContext.getHeader_afterHeaders, getHeader_read]
  rfl

theorem getVersion_parseRequest (hbuff : Buffer.readable buff = block.text tail) :
    ((HttpContext.new indeterminate).parseRequest buff
      receiveTime).context.getRequest.getVersion = (requestTokens block.requestLine).2.2 := by
  have hcontext := congrArg ParseResult.context
    (parseRequest_of_readable indeterminate receiveTime hbuff)
  rw [HttpContext.getRequest, ← hcontext, HttpContext.getVersion_afterHeaders,
    getVersion_read]

/-- The framing depends on the value of `Content-Length` alone. -/
theorem sameFraming_parseRequest {indeterminate' : UInt64}
    (hlength : block.value contentLengthName = block'.value contentLengthName)
    (hbuff : Buffer.readable buff = block.text tail)
    (hbuff' : Buffer.readable buff' = block'.text tail) :
    SameFraming ((HttpContext.new indeterminate).parseRequest buff receiveTime)
      ((HttpContext.new indeterminate').parseRequest buff' receiveTime) := by
  have hafter : SameFraming
      (HttpContext.afterHeaders (block.read indeterminate receiveTime) tail)
      (HttpContext.afterHeaders (block'.read indeterminate' receiveTime) tail) := by
    apply HttpContext.sameFraming_afterHeaders
    · rwa [getHeader_read, getHeader_read]
    · rw [getRequestBody_read, getRequestBody_read]
  rw [parseRequest_of_readable indeterminate receiveTime hbuff,
    parseRequest_of_readable indeterminate' receiveTime hbuff'] at hafter
  exact ⟨hafter.outcome, hafter.body, hafter.rest⟩

/-- And the decision about the connection on the one of `Connection`. -/
theorem closesByDefault_parseRequest {indeterminate' : UInt64}
    (hline : block.requestLine = block'.requestLine)
    (hvalue : block.value (ascii "Connection") = block'.value (ascii "Connection"))
    (hbuff : Buffer.readable buff = block.text tail)
    (hbuff' : Buffer.readable buff' = block'.text tail) :
    closesByDefault ((HttpContext.new indeterminate).parseRequest buff
        receiveTime).context.getRequest =
      closesByDefault ((HttpContext.new indeterminate').parseRequest buff'
        receiveTime).context.getRequest := by
  unfold closesByDefault
  rw [getHeader_parseRequest hbuff, getHeader_parseRequest hbuff',
    getVersion_parseRequest hbuff, getVersion_parseRequest hbuff', hvalue, hline]

end RequestBlock

end CuteHttpServer
