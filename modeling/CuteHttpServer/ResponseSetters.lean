/-
What a client reads of a response that was filled by any sequence of setter
calls: each part is as the last call says that sets it, and a header that no
call sets is as the first `AddHeader` says.
-/
import CuteHttpServer.ResponseLength
import CuteHttpServer.StepRun

namespace CuteHttpServer

open ByteString DelimitedText KeyedMap StepRun

namespace PublicCall

def version : PublicCall → Option Bytes
  | .setter (.setVersion version) => some version
  | _ => none

def statusCode : PublicCall → Option HttpStatusCode
  | .setter (.setStatusCode code) => some code
  | _ => none

def statusMessage : PublicCall → Option Bytes
  | .setter (.setStatusMessage message) => some message
  | _ => none

def closeConnection : PublicCall → Option Bool
  | .setter (.setCloseConnection close) => some close
  | _ => none

def body : PublicCall → Option Bytes
  | .setter (.setResponseBody body) => some body
  | _ => none

/-- The value that a call gives to a header that has none. -/
def added (name : Bytes) : PublicCall → Option Bytes
  | .setter (.addHeader key value) => if name = key then some value else none
  | _ => none

/-- What the call puts into the head is head text, and does not hold what ends
a header's name, or the version, when the head is read. -/
def Decodable : PublicCall → Prop
  | .setter (.addHeader key value) => (HeadText key ∧ HeadText value) ∧ 58 ∉ key
  | .setter (.setVersion version) => HeadText version ∧ 32 ∉ version
  | .setter call => call.Clean
  | .setContentLength _ => True

instance : DecidablePred Decodable
  | .setContentLength _ => isTrue trivial
  | .setter (.addHeader key value) =>
      inferInstanceAs (Decidable ((HeadText key ∧ HeadText value) ∧ 58 ∉ key))
  | .setter (.setContentType type) => inferInstanceAs (Decidable (HeadText type))
  | .setter (.setStatusCode _) => isTrue trivial
  | .setter (.setStatusMessage message) => inferInstanceAs (Decidable (HeadText message))
  | .setter (.setVersion version) =>
      inferInstanceAs (Decidable (HeadText version ∧ 32 ∉ version))
  | .setter (.setCloseConnection _) => isTrue trivial
  | .setter (.setResponseBody body) => inferInstanceAs (Decidable (body.length < UInt64.size))

end PublicCall

namespace HttpResponse

/-- A response whose head can be read back. -/
structure Decodable (response : HttpResponse) : Prop extends response.HeadClean where
  version_noSpace : 32 ∉ response.httpVersion
  names : ∀ key value, response.responseHeaders.lookup key = some value → 58 ∉ key

theorem decodable_new (close : Bool) : (new close).Decodable where
  version := show HeadText [] by decide
  message := show HeadText [] by decide
  headers := fun _ _ h => absurd h (by simp [new])
  version_noSpace := List.not_mem_nil
  names := fun _ _ h => absurd h (by simp [new])

section Apply

variable {response : HttpResponse} (h : response.Decodable)

include h

theorem Decodable.addHeader {key value : Bytes} (hkey : HeadText key)
    (hvalue : HeadText value) (hcolon : 58 ∉ key) :
    (response.addHeader key value).Decodable where
  toHeadClean := h.toHeadClean.emplace hkey hvalue
  version_noSpace := h.version_noSpace
  names := forall_lookup_emplace h.names hcolon

theorem Decodable.assign {key value : Bytes} (hkey : HeadText key)
    (hvalue : HeadText value) (hcolon : 58 ∉ key) :
    Decodable { response with
      responseHeaders := KeyedMap.assign response.responseHeaders key value } where
  toHeadClean := h.toHeadClean.assign hkey hvalue
  version_noSpace := h.version_noSpace
  names := forall_lookup_assign h.names hcolon

theorem Decodable.apply {call : PublicCall} (hcall : call.Decodable) :
    (call.apply response).Decodable := by
  have hlength : ∀ length : UInt64, (response.setContentLength length).Decodable := by
    intro length
    apply h.assign (by decide +kernel) (headText_decimal _)
    decide +kernel
  cases call with
  | setContentLength length => exact hlength length
  | setter call =>
      cases call with
      | addHeader key value => exact h.addHeader hcall.1.1 hcall.1.2 hcall.2
      | setContentType type =>
          apply h.assign (by decide +kernel) hcall
          decide +kernel
      | setStatusCode code => exact { h with }
      | setStatusMessage message => exact { h with message := hcall }
      | setVersion version => exact { h with version := hcall.1, version_noSpace := hcall.2 }
      | setCloseConnection close => exact { h with }
      | setResponseBody body => exact { hlength (UInt64.ofNat body.length) with }

theorem Decodable.calls {calls : List PublicCall} (hcalls : ∀ call ∈ calls, call.Decodable) :
    (calls.foldl PublicCall.apply response).Decodable := by
  apply List.foldlRecOn calls PublicCall.apply h
  exact fun _ hresponse call hcall => hresponse.apply (hcalls call hcall)

end Apply

/-- What `AppendToBuffer` appends. -/
def sent (order : IterationOrder Bytes Bytes) (response : HttpResponse) : Bytes :=
  (response.getResponse order).takeWhile (· ≠ 0)

/-- A clean head is sent whole, and of the body what is before a zero byte. -/
theorem HeadClean.sent_eq (order : IterationOrder Bytes Bytes) {response : HttpResponse}
    (h : response.HeadClean) :
    response.sent order =
      withCrlf (response.headLines order) ++
        CR :: LF :: response.responseBody.takeWhile (· ≠ 0) := by
  let headless : HttpResponse := { response with responseBody := [] }
  have hclean : headless.HeadClean := ⟨h.version, h.message, h.headers⟩
  have hhead : (0 : Byte) ∉ withCrlf (response.headLines order) := by
    intro hmem
    have hzero : 0 ∈ headless.getResponse order := by
      rw [getResponse_eq]
      exact List.mem_append_left _ hmem
    exact absurd ((zero_mem_getResponse_iff order hclean).mp hzero) List.not_mem_nil
  rw [sent, getResponse_eq, takeWhile_ne_append_of_not_mem hhead,
    List.takeWhile_cons_of_pos (by decide), List.takeWhile_cons_of_pos (by decide)]

theorem Decodable.colonFree (order : IterationOrder Bytes Bytes) {response : HttpResponse}
    (h : response.Decodable) : ∀ field ∈ response.writtenFields order, 58 ∉ field.1 := by
  intro field hfield
  rcases List.mem_append.mp hfield with hfield | hfield
  · exact h.names _ _ (mem_fields_iff.mp ((mem_visit order _).mp hfield))
  · rw [List.mem_singleton.mp hfield]
    show 58 ∉ connectionName
    decide +kernel

/-- The headers of the map come before the one that is not in it. -/
theorem fieldValue_written (order : IterationOrder Bytes Bytes) (response : HttpResponse)
    (name : Bytes) :
    fieldValue (response.writtenFields order) name =
      (response.responseHeaders.lookup name).or
        (if name = connectionName then some response.connectionField.2 else none) := by
  have hvisit := order.visit_perm response.responseHeaders
  rw [writtenFields, fieldValue_append, fieldValue_perm hvisit, fieldValue_fields,
    fieldValue_cons, fieldValue_nil, Option.or_none]
  simp only [connectionField, eq_comm]

end HttpResponse

end CuteHttpServer
