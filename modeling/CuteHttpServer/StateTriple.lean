/-
Code that changes a state and may throw: what holds after it, if it returns and
if it throws, and how that follows from its parts.
-/
import Mathlib.Data.List.Basic
import Mathlib.Tactic.Common

namespace StateTriple

universe u

variable {ε σ α β : Type u}

/-- Started where `P` holds, the code returns where `Q` holds, or throws where
`E` does. -/
def Triple (P : σ → Prop) (code : EStateM ε σ α) (Q : α → σ → Prop)
    (E : ε → σ → Prop) : Prop :=
  ∀ state, P state →
    match code state with
    | .ok a after => Q a after
    | .error thrown after => E thrown after

variable {P : σ → Prop} {Q : α → σ → Prop} {R : β → σ → Prop} {E : ε → σ → Prop}

theorem Triple.pure {a : α} (h : ∀ state, P state → Q a state) :
    Triple P (pure a) Q E :=
  h

theorem Triple.throw {thrown : ε} (h : ∀ state, P state → E thrown state) :
    Triple P (throw thrown) Q E :=
  h

theorem Triple.modify {change : σ → σ} {Q : PUnit → σ → Prop}
    (h : ∀ state, P state → Q ⟨⟩ (change state)) : Triple P (modify change) Q E :=
  h

/-- Code that is followed by other code. -/
theorem Triple.bind {code : EStateM ε σ α} {next : α → EStateM ε σ β}
    (hcode : Triple P code Q E) (hnext : ∀ a, Triple (Q a) (next a) R E) :
    Triple P (code >>= next) R E := by
  intro state hstate
  have hfirst := hcode state hstate
  simp only [Bind.bind, EStateM.bind]
  cases hresult : code state with
  | error thrown after =>
      rw [hresult] at hfirst
      exact hfirst
  | ok a after =>
      rw [hresult] at hfirst
      exact hnext a after hfirst

end StateTriple
