/-
A map whose items run out.  Every item has a key of its own and a deadline,
which is moved whenever the item is renewed, stored or not.  An item that has
run out stays where it is until somebody looks for it.
-/
import Mathlib.Logic.Function.Basic
import Mathlib.Tactic.Common

namespace ExpiringMap

universe u v w

variable {κ : Type u} {ι : Type v} {τ : Type w}

/-- What never changes about the items: their keys, and how long they last. -/
structure Items (κ : Type u) (ι : Type v) (τ : Type w) where
  key : ι → κ
  lifetime : ι → τ

structure State (κ : Type u) (ι : Type v) (τ : Type w) where
  entries : κ → Option ι
  expires : ι → τ
  now : τ

inductive Op (κ : Type u) (ι : Type v) (τ : Type w)
  | save (item : ι)
  | update (item : ι)
  | load (key : κ)
  | remove (key : κ)
  | renew (item : ι)
  | elapse (duration : τ)

/-- The key whose entry an operation is about. -/
def Op.key? (items : Items κ ι τ) : Op κ ι τ → Option κ
  | .save item => some (items.key item)
  | .update item => some (items.key item)
  | .load key => some key
  | .remove key => some key
  | .renew _ => none
  | .elapse _ => none

namespace State

/-- Every item is stored under its own key. -/
def Keyed (items : Items κ ι τ) (state : State κ ι τ) : Prop :=
  ∀ key item, state.entries key = some item → items.key item = key

variable [LT τ] [DecidableLT τ]

/-- What a load finds: the entry, unless it has run out. -/
def load (state : State κ ι τ) (key : κ) : Option ι :=
  (state.entries key).filter fun item => decide (¬ state.expires item < state.now)

theorem load_of_none {state : State κ ι τ} {key : κ} (h : state.entries key = none) :
    state.load key = none := by
  rw [load, h, Option.filter_none]

theorem load_of_some {state : State κ ι τ} {key : κ} {item : ι}
    (h : state.entries key = some item) :
    state.load key = if state.expires item < state.now then none else some item := by
  rw [load, h]
  by_cases hexpired : state.expires item < state.now
  · rw [if_pos hexpired, Option.filter_some, if_neg (by simpa using hexpired)]
  · rw [if_neg hexpired, Option.filter_some, if_pos (by simpa using hexpired)]

variable [DecidableEq κ] [DecidableEq ι] [Add τ] (items : Items κ ι τ)

/-- A save keeps an entry that is there, run out or not; an update replaces it;
a load deletes one that has run out. -/
def step (state : State κ ι τ) : Op κ ι τ → State κ ι τ
  | .save item =>
      match state.entries (items.key item) with
      | some _ => state
      | none =>
          { state with entries := Function.update state.entries (items.key item) (some item) }
  | .update item =>
      { state with entries := Function.update state.entries (items.key item) (some item) }
  | .load key =>
      match state.entries key with
      | some item =>
          if state.expires item < state.now then
            { state with entries := Function.update state.entries key none }
          else state
      | none => state
  | .remove key => { state with entries := Function.update state.entries key none }
  | .renew item =>
      { state with
        expires := Function.update state.expires item (state.now + items.lifetime item) }
  | .elapse duration => { state with now := state.now + duration }

/-- All that an operation does to the entries: it sets the one of its key, to
nothing or to an item of that key. -/
theorem step_entries (state : State κ ι τ) (op : Op κ ι τ) :
    (state.step items op).entries = state.entries ∨
      ∃ key entry, op.key? items = some key ∧
        (∀ item, entry = some item → items.key item = key) ∧
        (state.step items op).entries = Function.update state.entries key entry := by
  have hnothing : ∀ (key : κ) (item : ι), none = some item → items.key item = key :=
    fun _ item hnone => absurd hnone.symm (Option.some_ne_none item)
  have hitself : ∀ item found : ι, some item = some found →
      items.key found = items.key item :=
    fun item found hfound => by rw [Option.some.inj hfound]
  cases op with
  | save item =>
      rw [step]
      cases state.entries (items.key item) with
      | some _ => exact Or.inl rfl
      | none => exact Or.inr ⟨items.key item, some item, rfl, hitself item, rfl⟩
  | update item => exact Or.inr ⟨items.key item, some item, rfl, hitself item, rfl⟩
  | load key =>
      rw [step]
      cases state.entries key with
      | none => exact Or.inl rfl
      | some item =>
          by_cases hexpired : state.expires item < state.now
          · exact Or.inr ⟨key, none, rfl, hnothing key, by simp only [if_pos hexpired]⟩
          · exact Or.inl (by simp only [if_neg hexpired])
  | remove key => exact Or.inr ⟨key, none, rfl, hnothing key, rfl⟩
  | renew item => exact Or.inl rfl
  | elapse duration => exact Or.inl rfl

/-- An operation on one key does not touch the entries of the others. -/
theorem step_entries_of_ne (state : State κ ι τ) {op : Op κ ι τ} {key : κ}
    (h : op.key? items ≠ some key) : (state.step items op).entries key = state.entries key := by
  rcases state.step_entries items op with hsame | ⟨other, entry, hother, _, hset⟩
  · rw [hsame]
  · have hne : key ≠ other := by
      rintro rfl
      exact h hother
    rw [hset, Function.update_of_ne hne]

theorem Keyed.step {state : State κ ι τ} (h : state.Keyed items) (op : Op κ ι τ) :
    (state.step items op).Keyed items := by
  intro key item hitem
  rcases state.step_entries items op with hsame | ⟨other, entry, _, hentry, hset⟩
  · rw [hsame] at hitem
    exact h key item hitem
  · rw [hset] at hitem
    by_cases hkey : key = other
    · subst hkey
      rw [Function.update_self] at hitem
      exact hentry item hitem
    · rw [Function.update_of_ne hkey] at hitem
      exact h key item hitem

end State

end ExpiringMap
