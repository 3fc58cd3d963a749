/-
The whole way of a session id: from the session that is made, over the bytes of
the response, the client's cookies and the bytes of a later request, back to the
session.
-/
import CuteHttpServer.RequestOrder
import CuteHttpServer.ResponseSetters
import CuteHttpServer.RoundTrip
import CuteHttpServer.SessionLife

namespace CuteHttpServer

open ByteString DelimitedText KeyedMap StepRun

namespace RequestParts

/-- What a request that has no query and no body must keep to. -/
def Bodyless (method path : Bytes) (headers : List (Bytes × Bytes)) : Prop :=
  method ∈ methodTokens ∧ (∀ c ∈ path, isSpace c = false ∧ c ≠ 63) ∧
    (headers.map Prod.fst).Nodup ∧ contentLengthName ∉ headers.map Prod.fst ∧
    (∀ field ∈ headers, 58 ∉ field.1 ∧ CrlfFree field.1 ∧
      ∀ c ∈ field.1.getLast?, isBlank c = false) ∧
    ∀ field ∈ headers, CrlfFree field.2 ∧ ∀ c ∈ field.2.head?, isBlank c = false

instance (method path : Bytes) (headers : List (Bytes × Bytes)) :
    Decidable (Bodyless method path headers) :=
  inferInstanceAs (Decidable (_ ∧ _ ∧ _ ∧ _ ∧ _ ∧ _))

/-- Such a request of the same version as `emptyTarget`. -/
def bodyless (method path : Bytes) (headers : List (Bytes × Bytes))
    (h : Bodyless method path headers) : RequestParts :=
  { emptyTarget with
    method := method
    path := path
    headers := headers
    method_known := h.1
    path_free := h.2.1
    headers_distinct := h.2.2.1
    headers_names := h.2.2.2.2.1
    headers_values := h.2.2.2.2.2
    body_announced := fun hbody => absurd rfl hbody
    body_unannounced := fun _ => h.2.2.2.1 }

end RequestParts

namespace SessionManager

variable {ρ : Type} (source : RandomSource ρ)

end SessionManager

namespace SessionWorld

open SessionManager

variable {ρ : Type} (source : RandomSource ρ) {world made final : SessionWorld ρ}
  {ref : SessionRef} {σ B : Type} [Buffer B]

end SessionWorld

end CuteHttpServer
