/-
A queue served at unit rate: in each slot the number of jobs done goes up by
one if it lags behind the number that have come in.  That number is then known
in closed form.
-/
import Mathlib.Data.List.Induction
import Mathlib.Order.Bounds.Basic
import Mathlib.Tactic.Common

namespace UnitQueue

universe u

variable {ι : Type u} {demand done : List ι → Nat}

/-- How many jobs have come in after some slots, and how many are done. -/
structure ServesOne (demand done : List ι → Nat) : Prop where
  demand_le : ∀ slots slot, demand slots ≤ demand (slots ++ [slot])
  start : done [] = demand []
  serve : ∀ slots slot, done (slots ++ [slot]) =
    if done slots < demand (slots ++ [slot]) then done slots + 1 else done slots

namespace ServesOne

/-- Nothing is done before it has come in. -/
theorem done_le (h : ServesOne demand done) (slots : List ι) :
    done slots ≤ demand slots := by
  induction slots using List.reverseRecOn with
  | nil => exact h.start.le
  | append_singleton slots slot ih =>
      rw [h.serve]
      split
      · assumption
      · exact ih.trans (h.demand_le slots slot)

theorem done_succ_le (h : ServesOne demand done) (slots : List ι) (slot : ι) :
    done (slots ++ [slot]) ≤ done slots + 1 := by
  rw [h.serve]
  split
  · exact le_refl _
  · exact Nat.le_succ _

/-- The last slot at which nothing was waiting decides: what had come in by
then is done, and one job for each slot since. -/
theorem isLeast (h : ServesOne demand done) (slots : List ι) :
    IsLeast {count | ∃ before after, before ++ after = slots ∧
      count = demand before + after.length} (done slots) := by
  induction slots using List.reverseRecOn with
  | nil =>
      refine ⟨⟨[], [], rfl, h.start⟩, ?_⟩
      rintro count ⟨before, after, hnil, rfl⟩
      obtain ⟨rfl, rfl⟩ := List.append_eq_nil_iff.mp hnil
      exact h.start.le
  | append_singleton slots slot ih =>
      constructor
      · by_cases hlags : done slots < demand (slots ++ [slot])
        · obtain ⟨before, after, hslots, hdone⟩ := ih.1
          refine ⟨before, after ++ [slot], by rw [← hslots, List.append_assoc], ?_⟩
          rw [h.serve, if_pos hlags, hdone, List.length_append]
          rfl
        · refine ⟨slots ++ [slot], [], List.append_nil _, ?_⟩
          have hle := (h.done_le slots).trans (h.demand_le slots slot)
          rw [h.serve, if_neg hlags]
          exact le_antisymm hle (Nat.le_of_not_lt hlags)
      · rintro count ⟨before, after, hsplit, rfl⟩
        rcases List.eq_nil_or_concat after with rfl | ⟨after', last, rfl⟩
        · rw [List.append_nil] at hsplit
          rw [hsplit]
          exact h.done_le _
        · rw [List.concat_eq_append, ← List.append_assoc] at hsplit
          obtain ⟨hbefore, _⟩ := List.append_inj' hsplit rfl
          have hleast := ih.2 ⟨before, after', hbefore, rfl⟩
          have hsucc := h.done_succ_le slots slot
          rw [List.length_concat]
          exact hsucc.trans (Nat.succ_le_succ hleast)

end ServesOne

end UnitQueue
