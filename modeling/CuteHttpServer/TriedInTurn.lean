/-
Values that are tried one after the other: the same one again after a try of it
has failed, the next one after a try has succeeded.
-/
import Mathlib.Data.List.Basic
import Mathlib.Tactic.Common

universe u

/-- Values, and the tries of them with whether each failed.  The flag tells whether
the last value is yet to be tried again. -/
inductive TriedInTurn {α : Type u} : Bool → List α → List (α × Bool) → Prop
  | nil : TriedInTurn false [] []
  | first {values : List α} {tries : List (α × Bool)} (h : TriedInTurn false values tries)
      (value : α) (failed : Bool) :
      TriedInTurn failed (values ++ [value]) (tries ++ [(value, failed)])
  | again {values : List α} {value : α} {tries : List (α × Bool)}
      (h : TriedInTurn true (values ++ [value]) tries) (failed : Bool) :
      TriedInTurn failed (values ++ [value]) (tries ++ [(value, failed)])

namespace TriedInTurn

variable {α : Type u} {pending : Bool} {values : List α} {tries : List (α × Bool)}

end TriedInTurn
