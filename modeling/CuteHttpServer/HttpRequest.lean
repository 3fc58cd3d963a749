/-
The request object the parser fills and the handlers read.
-/
import CuteHttpServer.ByteString
import CuteHttpServer.KeyedMap

namespace CuteHttpServer

open ByteString KeyedMap

/-- `std::unordered_map<std::string, std::string>`. -/
abbrev StringMap := Map Bytes Bytes

/-- `cutemuduo::Timestamp`, in microseconds; nothing here depends on the unit. -/
abbrev Timestamp := Nat

/-- A `std::exception` as its handlers see it. -/
structure StdException where
  what : Bytes
deriving DecidableEq, Repr

inductive HttpRequestMethod
  | kInvalid
  | kGet
  | kPost
  | kHead
  | kPut
  | kDelete
  | kOptions
deriving DecidableEq, Repr

structure HttpRequest where
  method : HttpRequestMethod
  path : Bytes
  pathParams : StringMap
  queryParams : StringMap
  version : Bytes
  requestHeaders : StringMap
  bodyLength : UInt64
  requestBody : Bytes
  receiveTime : Timestamp
deriving DecidableEq

namespace HttpRequest

/-- The constructor.  It gives `body_length_` no value, so the member holds
whatever the memory held before: `indeterminate` is that arbitrary value. -/
def new (indeterminate : UInt64) : HttpRequest where
  method := .kInvalid
  path := []
  pathParams := ∅
  queryParams := ∅
  version := ascii "Unknown"
  requestHeaders := ∅
  bodyLength := indeterminate
  requestBody := []
  receiveTime := default

@[simp] theorem requestHeaders_new (indeterminate : UInt64) :
    (new indeterminate).requestHeaders = ∅ := rfl

def setReceiveTime (request : HttpRequest) (time : Timestamp) : HttpRequest :=
  { request with receiveTime := time }

/-- The method a token names. -/
def methodOf (token : Bytes) : HttpRequestMethod :=
  if token = ascii "GET" then .kGet
  else if token = ascii "POST" then .kPost
  else if token = ascii "PUT" then .kPut
  else if token = ascii "DELETE" then .kDelete
  else if token = ascii "OPTIONS" then .kOptions
  else .kInvalid

/-- Sets the method and tells whether the token named one. -/
def setMethod (request : HttpRequest) (method : Bytes) : Bool × HttpRequest :=
  let changed := { request with method := methodOf method }
  (changed.method != .kInvalid, changed)

def getMethod (request : HttpRequest) : HttpRequestMethod := request.method

def getStringMethod (request : HttpRequest) : Bytes :=
  match request.method with
  | .kGet => ascii "GET"
  | .kPost => ascii "POST"
  | .kPut => ascii "PUT"
  | .kDelete => ascii "DELETE"
  | .kOptions => ascii "OPTIONS"
  | .kHead => ascii "HEAD"
  | .kInvalid => ascii "INVALID"

def setPath (request : HttpRequest) (path : Bytes) : HttpRequest :=
  { request with path := path }

def getPath (request : HttpRequest) : Bytes := request.path

/-- An existing header of the same name is kept. -/
def addHeader (request : HttpRequest) (key value : Bytes) : HttpRequest :=
  { request with requestHeaders := emplace request.requestHeaders key value }

def getHeader (request : HttpRequest) (key : Bytes) : Bytes :=
  (request.requestHeaders.lookup key).getD []

def setPathParams (request : HttpRequest) (key value : Bytes) : HttpRequest :=
  { request with pathParams := assign request.pathParams key value }

def getPathParams (request : HttpRequest) (key : Bytes) : Bytes :=
  (request.pathParams.lookup key).getD []

def setQueryParams (request : HttpRequest) (key value : Bytes) : HttpRequest :=
  { request with queryParams := assign request.queryParams key value }

def getQueryParams (request : HttpRequest) (key : Bytes) : Bytes :=
  (request.queryParams.lookup key).getD []

def setVersion (request : HttpRequest) (version : Bytes) : HttpRequest :=
  { request with version := version }

def getVersion (request : HttpRequest) : Bytes := request.version

def setContentLength (request : HttpRequest) (length : UInt64) : HttpRequest :=
  { request with bodyLength := length }

def getContentLength (request : HttpRequest) : UInt64 := request.bodyLength

def setRequestBody (request : HttpRequest) (body : Bytes) : HttpRequest :=
  { request with requestBody := body }

def getRequestBody (request : HttpRequest) : Bytes := request.requestBody

/-- `Swap` exchanges seven of the nine members; `body_length_` and
`request_body_` stay where they are. -/
def swap (this other : HttpRequest) : HttpRequest × HttpRequest :=
  ({ this with
      method := other.method
      path := other.path
      pathParams := other.pathParams
      queryParams := other.queryParams
      version := other.version
      requestHeaders := other.requestHeaders
      receiveTime := other.receiveTime },
    { other with
      method := this.method
      path := this.path
      pathParams := this.pathParams
      queryParams := this.queryParams
      version := this.version
      requestHeaders := this.requestHeaders
      receiveTime := this.receiveTime })

/-- The two members that `swap` forgets, overwritten. -/
def withStale (request : HttpRequest) (length : UInt64) (body : Bytes) :
    HttpRequest :=
  { request with bodyLength := length, requestBody := body }

/-- Swapping with a new request restores everything but the length and the
body; what the new one's length happened to be is not seen. -/
theorem swap_new (request : HttpRequest) (indeterminate fresh : UInt64) :
    (request.swap (new indeterminate)).1 =
      (new fresh).withStale request.bodyLength request.requestBody := rfl

end HttpRequest

end CuteHttpServer
