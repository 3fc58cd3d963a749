/-
Which request lines the parser accepts, beside the form that it documents.
-/
import CuteHttpServer.RoundTrip

namespace CuteHttpServer

open ByteString

/-- The documented form: a method that the server knows, a target and a version
with one space between them. -/
def IsRequestLine (line : Bytes) : Prop :=
  ∃ method target version, HttpRequest.methodOf method ≠ .kInvalid ∧
    target ≠ [] ∧ (∀ c ∈ target, isSpace c = false) ∧ IsHttpVersion version ∧
    line = method ++ 32 :: (target ++ 32 :: version)

/-- A line is let through exactly if it has three words. -/
theorem acceptsRequestLine_iff (line : Bytes) :
    acceptsRequestLine line = true ↔ 3 ≤ (words line).length := by
  unfold acceptsRequestLine requestTokens
  rw [words_eq line]
  by_cases hmethod : (extractToken line).1 = []
  · simp [hmethod]
  rw [if_neg hmethod, words_eq (extractToken line).2]
  by_cases htarget : (extractToken (extractToken line).2).1 = []
  · simp [htarget]
  rw [if_neg htarget, words_eq (extractToken (extractToken line).2).2]
  by_cases hversion : (extractToken (extractToken (extractToken line).2).2).1 = []
  · simp [hversion]
  rw [if_neg hversion]
  simp [hmethod, htarget, hversion]

/-- The tokens of a line are its first three words. -/
theorem requestTokens_of_words {line method target version : Bytes} {others : List Bytes}
    (h : words line = method :: target :: version :: others) :
    requestTokens line = (method, target, version) ∧ acceptsRequestLine line = true := by
  have haccepts : acceptsRequestLine line = true := by
    rw [acceptsRequestLine_iff, h]
    simp
  have hne := haccepts
  simp only [acceptsRequestLine, requestTokens, Bool.and_eq_true] at hne
  obtain ⟨⟨hmethod, htarget⟩, hversion⟩ := hne
  rw [words_eq, if_neg (of_decide_eq_true hmethod), words_eq,
    if_neg (of_decide_eq_true htarget), words_eq, if_neg (of_decide_eq_true hversion)] at h
  simp only [List.cons.injEq] at h
  refine ⟨?_, haccepts⟩
  rw [requestTokens, h.1, h.2.1, h.2.2.1]

theorem version_token {version : Bytes} (h : IsHttpVersion version) :
    version ≠ [] ∧ ∀ c ∈ version, isSpace c = false := by
  obtain ⟨major, minor, hmajor, hminor, rfl⟩ := h
  refine ⟨by simp, ?_⟩
  have hname : ∀ c ∈ ascii "HTTP/", isSpace c = false := by decide +kernel
  intro c hc
  rcases List.mem_append.mp hc with hc | hc
  · exact hname c hc
  · simp only [List.mem_cons, List.not_mem_nil, or_false] at hc
    rcases hc with rfl | rfl | rfl
    · exact isSpace_eq_false_of_isDigit hmajor
    · rfl
    · exact isSpace_eq_false_of_isDigit hminor

namespace HttpContext

/-- The parser lets a line through if it has the documented form; on every
other line it returns `false` and changes nothing. -/
structure ReadsExactly (context : HttpContext) (line : Bytes) : Prop where
  accepts : IsRequestLine line → (context.parseRequestLine line).1 = true
  rejects : ¬ IsRequestLine line → context.parseRequestLine line = (false, context)

/-- It does so exactly for the lines of that form and those that are too
short. -/
theorem readsExactly_iff (context : HttpContext) (line : Bytes) :
    context.ReadsExactly line ↔ IsRequestLine line ∨ (words line).length < 3 := by
  constructor
  · intro h
    by_cases hform : IsRequestLine line
    · exact Or.inl hform
    · have hrejected := h.rejects hform
      rw [parseRequestLine_eq] at hrejected
      refine Or.inr (Nat.lt_of_not_le fun hlong => ?_)
      rw [if_pos ((acceptsRequestLine_iff line).mpr hlong)] at hrejected
      exact absurd (congrArg Prod.fst hrejected) Bool.false_ne_true.symm
  · intro h
    refine ⟨?_, ?_⟩
    · rintro ⟨method, target, version, hmethod, hne, htarget, hversion, rfl⟩
      have haccepts := acceptsRequestLine_line
        (methodTokens_token (mem_methodTokens hmethod)) ⟨hne, htarget⟩
        (version_token hversion)
      rw [parseRequestLine_eq, if_pos haccepts]
    · intro hform
      have hshort := h.resolve_left hform
      have hrejects : ¬ acceptsRequestLine line = true :=
        fun haccepts => absurd ((acceptsRequestLine_iff line).mp haccepts) (by omega)
      rw [parseRequestLine_eq, if_neg hrejects]

/-- A method that the server does not know passes. -/
theorem not_readsExactly_unknownMethod :
    ¬ (new 0).ReadsExactly (ascii "BREW /pot HTTP/1.1") := by
  intro h
  have hform : ¬ IsRequestLine (ascii "BREW /pot HTTP/1.1") := by
    rintro ⟨method, target, version, hmethod, hne, htarget, hversion, hline⟩
    have htokens := requestTokens_line (methodTokens_token (mem_methodTokens hmethod))
      ⟨hne, htarget⟩ (version_token hversion)
    have hbrew : (requestTokens (ascii "BREW /pot HTTP/1.1")).1 = ascii "BREW" := by
      decide +kernel
    rw [← hline] at htokens
    rw [htokens] at hbrew
    rw [show method = ascii "BREW" from hbrew] at hmethod
    exact hmethod (by decide +kernel)
  have hrejected := congrArg Prod.fst (h.rejects hform)
  exact absurd hrejected (by decide +kernel)

end HttpContext

end CuteHttpServer
