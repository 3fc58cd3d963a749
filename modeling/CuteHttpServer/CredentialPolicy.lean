/-
Credentials and origins: when a response lets origins use credentials that the
configuration does not name.
-/
import CuteHttpServer.CorsPolicy

namespace CuteHttpServer

open ByteString KeyedMap

namespace CorsMiddleware

abbrev allowCredentialsName : Bytes := ascii "Access-Control-Allow-Credentials"

/-- The response allows credentials, and allows them to all origins or to one
that is not on the list. -/
def GrantsCredentialsToAll (config : CorsConfig) (response : HttpResponse) : Prop :=
  response.responseHeaders.lookup allowCredentialsName = some (ascii "true") ∧
    ∃ origin, response.responseHeaders.lookup allowOriginName = some origin ∧
      (origin = anyOrigin ∨ origin ∉ config.allowedOrigins)

/-- The response has no word yet about origins and credentials. -/
structure Undecided (response : HttpResponse) : Prop where
  origin : allowOriginName ∉ response.responseHeaders
  credentials : allowCredentialsName ∉ response.responseHeaders

theorem fieldValue_corsFields (config : CorsConfig) (origin : Bytes) :
    fieldValue (corsFields config origin) allowCredentialsName =
      if config.allowCredentials then some (ascii "true") else none := by
  have horigin : allowCredentialsName ≠ allowOriginName := by decide +kernel
  have hmethods : allowCredentialsName ≠ ascii "Access-Control-Allow-Methods" := by
    decide +kernel
  have hheaders : allowCredentialsName ≠ ascii "Access-Control-Allow-Headers" := by
    decide +kernel
  have hage : allowCredentialsName ≠ ascii "Access-Control-Max-Age" := by decide +kernel
  have hone : ∀ (p : Prop) [Decidable p] (key value : Bytes), allowCredentialsName ≠ key →
      fieldValue (if p then [(key, value)] else []) allowCredentialsName = none := by
    intro p _ key value hkey
    by_cases hp : p
    · rw [if_pos hp, fieldValue_cons, if_neg hkey]
      rfl
    · rw [if_neg hp]
      rfl
  have hlast : fieldValue [(ascii "Access-Control-Max-Age", decimalInt config.maxAge)]
      allowCredentialsName = none := by
    rw [fieldValue_cons, if_neg hage]
    rfl
  rw [corsFields, fieldValue_cons, if_neg horigin, Option.none_or, fieldValue_append,
    fieldValue_append, fieldValue_append, hone _ _ _ hmethods, hone _ _ _ hheaders, hlast,
    Option.none_or, Option.none_or, Option.or_none]
  by_cases hcredentials : config.allowCredentials = true
  · rw [if_pos hcredentials, if_pos hcredentials, fieldValue_cons, if_pos rfl, Option.some_or]
  · rw [if_neg hcredentials, if_neg hcredentials]
    rfl

/-- The helper adds the flag for whatever origin it is given. -/
theorem grantsCredentialsToAll_addCorsHeaders (config : CorsConfig) {response : HttpResponse}
    (h : Undecided response) (origin : Bytes) :
    GrantsCredentialsToAll config (addCorsHeaders config response origin) ↔
      config.allowCredentials = true ∧
        (origin = anyOrigin ∨ origin ∉ config.allowedOrigins) := by
  have horigin : (addCorsHeaders config response origin).responseHeaders.lookup
      allowOriginName = some origin := by
    rw [lookup_allowOrigin, AList.lookup_eq_none.mpr h.origin, Option.none_or]
  have hcredentials : (addCorsHeaders config response origin).responseHeaders.lookup
      allowCredentialsName = if config.allowCredentials then some (ascii "true") else none := by
    rw [addCorsHeaders_eq, lookup_emplaceAll, AList.lookup_eq_none.mpr h.credentials,
      Option.none_or, fieldValue_corsFields]
  rw [GrantsCredentialsToAll, horigin, hcredentials]
  simp

theorem not_grantsCredentialsToAll_undecided (config : CorsConfig) {response : HttpResponse}
    (h : Undecided response) : ¬ GrantsCredentialsToAll config response := by
  rintro ⟨hcredentials, _⟩
  rw [AList.lookup_eq_none.mpr h.credentials] at hcredentials
  exact absurd hcredentials.symm (Option.some_ne_none _)

/-- On a preflight request the origin is the client's, which the list may have
let through by `*` alone. -/
theorem grantsCredentialsToAll_preflight (config : CorsConfig) (request : HttpRequest)
    {response : HttpResponse} (h : Undecided response) :
    GrantsCredentialsToAll config (handlePreflightRequest config request response) ↔
      config.allowCredentials = true ∧ anyOrigin ∈ config.allowedOrigins ∧
        (request.getHeader (ascii "Origin") = anyOrigin ∨
          request.getHeader (ascii "Origin") ∉ config.allowedOrigins) := by
  cases hallowed : isOriginAllowed config (request.getHeader (ascii "Origin")) with
  | false =>
      have hnot : ¬ isOriginAllowed config (request.getHeader (ascii "Origin")) = true := by
        simp [hallowed]
      rw [isOriginAllowed_iff, not_or] at hnot
      have hrefused : handlePreflightRequest config request response =
          response.setStatusCode .k403Forbidden := by
        simp [handlePreflightRequest, hallowed]
      rw [hrefused]
      have hsilent : Undecided (response.setStatusCode .k403Forbidden) :=
        ⟨h.origin, h.credentials⟩
      exact iff_of_false (not_grantsCredentialsToAll_undecided config hsilent) fun hall =>
        hnot.1 hall.2.1
  | true =>
      have hlisted := (isOriginAllowed_iff config _).mp hallowed
      have hgranted : handlePreflightRequest config request response =
          (addCorsHeaders config response
            (request.getHeader (ascii "Origin"))).setStatusCode .k204NoContent := by
        simp [handlePreflightRequest, hallowed]
      rw [hgranted]
      refine (grantsCredentialsToAll_addCorsHeaders config h _).trans ?_
      refine and_congr_right fun _ => ?_
      constructor
      · rintro (hany | hother)
        · rw [hany, or_self] at hlisted
          exact ⟨hlisted, Or.inl hany⟩
        · exact ⟨hlisted.resolve_right hother, Or.inr hother⟩
      · exact And.right

/-- The actual response names `*` or the first origin of the list. -/
theorem grantsCredentialsToAll_corsResponse (config : CorsConfig) {response : HttpResponse}
    (h : Undecided response) :
    GrantsCredentialsToAll config (corsResponse config response) ↔
      config.allowCredentials = true ∧ anyOrigin ∈ config.allowedOrigins := by
  unfold corsResponse
  cases horigins : config.allowedOrigins with
  | nil => simp [not_grantsCredentialsToAll_undecided config h]
  | cons first rest =>
      by_cases hany : anyOrigin ∈ first :: rest
      · simp [hany, grantsCredentialsToAll_addCorsHeaders config h]
      · have hfirst : first ≠ anyOrigin := fun hsame => hany (hsame ▸ List.mem_cons_self)
        simp [hany, grantsCredentialsToAll_addCorsHeaders config h, horigins, hfirst]

/-- Credentials are allowed to origins that are not on the list exactly if the
configuration has both `*` and the flag; on preflight requests, for those
origins that are not listed as well. -/
theorem grantsCredentialsToAll_iff (config : CorsConfig) (request : HttpRequest)
    {response : HttpResponse} (h : Undecided response) :
    (GrantsCredentialsToAll config (handlePreflightRequest config request response) ↔
      config.allowCredentials = true ∧ anyOrigin ∈ config.allowedOrigins ∧
        (request.getHeader (ascii "Origin") = anyOrigin ∨
          request.getHeader (ascii "Origin") ∉ config.allowedOrigins)) ∧
    (GrantsCredentialsToAll config (corsResponse config response) ↔
      config.allowCredentials = true ∧ anyOrigin ∈ config.allowedOrigins) :=
  ⟨grantsCredentialsToAll_preflight config request h,
    grantsCredentialsToAll_corsResponse config h⟩

/-- The default configuration with the flag on. -/
def openConfig : CorsConfig := { CorsConfig.defaultConfig with allowCredentials := true }

theorem undecided_new (close : Bool) : Undecided (HttpResponse.new close) :=
  ⟨AList.notMem_empty _, AList.notMem_empty _⟩

/-- With two listed origins there is no such response, flag or not. -/
theorem grantsCredentialsToAll_twoOrigins :
    ¬ GrantsCredentialsToAll { twoOrigins with allowCredentials := true }
      (corsResponse { twoOrigins with allowCredentials := true } (HttpResponse.new true)) := by
  rw [(grantsCredentialsToAll_iff _ (preflightFrom (ascii "http://a.example"))
    (undecided_new true)).2]
  decide +kernel

/-- Any site is granted credentials on a preflight request. -/
theorem grantsCredentialsToAll_openConfig :
    ¬ ∀ request : HttpRequest, ¬ GrantsCredentialsToAll openConfig
      (handlePreflightRequest openConfig request (HttpResponse.new true)) := by
  intro hnever
  exact hnever (preflightFrom (ascii "http://evil.example"))
    ⟨by decide +kernel, ascii "http://evil.example", by decide +kernel, by decide +kernel⟩

end CorsMiddleware

end CuteHttpServer
