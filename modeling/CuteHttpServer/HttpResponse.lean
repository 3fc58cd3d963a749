/-
The response object the handlers fill, and its text on the wire.
-/
import CuteHttpServer.Buffer
import CuteHttpServer.HttpRequest

namespace CuteHttpServer

open ByteString KeyedMap

inductive HttpStatusCode
  | kUnknown
  | k200Ok
  | k204NoContent
  | k301MovedPermanently
  | k400BadRequest
  | k401Unauthorized
  | k403Forbidden
  | k404NotFound
  | k409Conflict
  | k500InternalServerError
deriving DecidableEq, Repr

/-- `static_cast<int>` of a status code. -/
def HttpStatusCode.toInt : HttpStatusCode → Nat
  | .kUnknown => 0
  | .k200Ok => 200
  | .k204NoContent => 204
  | .k301MovedPermanently => 301
  | .k400BadRequest => 400
  | .k401Unauthorized => 401
  | .k403Forbidden => 403
  | .k404NotFound => 404
  | .k409Conflict => 409
  | .k500InternalServerError => 500

structure HttpResponse where
  httpVersion : Bytes
  statusCode : HttpStatusCode
  statusMessage : Bytes
  closeConnection : Bool
  responseHeaders : StringMap
  responseBody : Bytes
deriving DecidableEq

namespace HttpResponse

def new (close : Bool) : HttpResponse where
  httpVersion := []
  statusCode := .kUnknown
  statusMessage := []
  closeConnection := close
  responseHeaders := ∅
  responseBody := []

def setVersion (response : HttpResponse) (version : Bytes) : HttpResponse :=
  { response with httpVersion := version }

def setStatusCode (response : HttpResponse) (code : HttpStatusCode) : HttpResponse :=
  { response with statusCode := code }

def getStatusCode (response : HttpResponse) : HttpStatusCode := response.statusCode

def setStatusMessage (response : HttpResponse) (message : Bytes) : HttpResponse :=
  { response with statusMessage := message }

def setCloseConnection (response : HttpResponse) (close : Bool) : HttpResponse :=
  { response with closeConnection := close }

def isCloseConnection (response : HttpResponse) : Bool := response.closeConnection

/-- An existing header of the same name is kept. -/
def addHeader (response : HttpResponse) (key value : Bytes) : HttpResponse :=
  { response with responseHeaders := emplace response.responseHeaders key value }

def setContentType (response : HttpResponse) (type : Bytes) : HttpResponse :=
  { response with
    responseHeaders := assign response.responseHeaders (ascii "Content-Type") type }

def setContentLength (response : HttpResponse) (length : UInt64) : HttpResponse :=
  { response with
    responseHeaders := assign response.responseHeaders (ascii "Content-Length")
      (decimal length.toNat) }

def setResponseBody (response : HttpResponse) (body : Bytes) : HttpResponse :=
  { response.setContentLength (UInt64.ofNat body.length) with responseBody := body }

def headerLine (field : Bytes × Bytes) : Bytes :=
  field.1 ++ ascii ": " ++ field.2 ++ [CR, LF]

/-- The response as text.  The headers come in the order in which their hash
map is walked through. -/
def getResponse (order : IterationOrder Bytes Bytes) (response : HttpResponse) : Bytes :=
  response.httpVersion ++ ascii " " ++ decimal response.statusCode.toInt ++ ascii " " ++
    response.statusMessage ++ [CR, LF] ++
    (order.visit response.responseHeaders).flatMap headerLine ++
    (if response.closeConnection then ascii "Connection: close\r\n"
      else ascii "Connection: keep-alive\r\n") ++ [CR, LF] ++
    response.responseBody

/-- `AppendToBuffer` goes through `c_str()`, so nothing from the first zero
byte on is appended. -/
def appendToBuffer {B : Type} [Buffer B] (order : IterationOrder Bytes Bytes)
    (response : HttpResponse) (buff : B) : B :=
  Buffer.append buff ((response.getResponse order).takeWhile (· ≠ 0))

end HttpResponse

end CuteHttpServer
