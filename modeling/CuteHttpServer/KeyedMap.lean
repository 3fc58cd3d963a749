/-
Maps with one value for each key, in the two ways a C++ container is filled:
`emplace` keeps the value that is there, `operator[]` replaces it.
-/
import Mathlib.Data.List.AList

namespace KeyedMap

universe u v

variable {κ : Type u} {ν : Type v} [DecidableEq κ]

/-- An association list without repeated keys. -/
abbrev Map (κ : Type u) (ν : Type v) := AList fun _ : κ => ν

instance [DecidableEq ν] : DecidableEq (Map κ ν) := fun left right =>
  decidable_of_iff (left.entries = right.entries) AList.ext_iff.symm

/-- Add a value unless the key is taken. -/
def emplace (m : Map κ ν) (key : κ) (value : ν) : Map κ ν :=
  if key ∈ m then m else m.insert key value

/-- Set the value of a key. -/
def assign (m : Map κ ν) (key : κ) (value : ν) : Map κ ν :=
  m.insert key value

theorem lookup_emplace (m : Map κ ν) (key : κ) (value : ν) (k : κ) :
    (emplace m key value).lookup k =
      (m.lookup k).or (if k = key then some value else none) := by
  unfold emplace
  by_cases hmem : key ∈ m
  · rw [if_pos hmem]
    by_cases hk : k = key
    · subst hk
      obtain ⟨old, hold⟩ := Option.isSome_iff_exists.mp (AList.lookup_isSome.mpr hmem)
      simp [hold]
    · simp [hk]
  · rw [if_neg hmem]
    by_cases hk : k = key
    · subst hk
      simp [AList.lookup_eq_none.mpr hmem]
    · simp [AList.lookup_insert_ne hk, hk]

/-- `emplace` changes no key but its own, and that one only if it is free. -/
theorem lookup_emplace_of_not {m : Map κ ν} {key k : κ} {value : ν}
    (h : ¬ (k ∉ m ∧ key = k)) : (emplace m key value).lookup k = m.lookup k := by
  rw [lookup_emplace]
  by_cases hk : k = key
  · have hmem : k ∈ m := by
      by_contra hfree
      exact h ⟨hfree, hk.symm⟩
    obtain ⟨old, hold⟩ := Option.isSome_iff_exists.mp (AList.lookup_isSome.mpr hmem)
    rw [hold, Option.some_or]
  · rw [if_neg hk, Option.or_none]

theorem lookup_assign (m : Map κ ν) (key : κ) (value : ν) (k : κ) :
    (assign m key value).lookup k =
      if k = key then some value else m.lookup k := by
  unfold assign
  by_cases hk : k = key
  · subst hk
    simp
  · simp [AList.lookup_insert_ne hk, hk]

theorem lookup_erase (m : Map κ ν) (key k : κ) :
    (m.erase key).lookup k = if k = key then none else m.lookup k := by
  by_cases hk : k = key
  · rw [if_pos hk, hk, AList.lookup_erase]
  · rw [if_neg hk, AList.lookup_erase_ne hk]

/-- Setting and erasing, as updates of the lookup. -/
theorem lookup_assign_eq (m : Map κ ν) (key : κ) (value : ν) :
    (assign m key value).lookup = Function.update m.lookup key (some value) := by
  funext k
  rw [lookup_assign, Function.update_apply]

theorem lookup_erase_eq (m : Map κ ν) (key : κ) :
    (m.erase key).lookup = Function.update m.lookup key none := by
  funext k
  rw [lookup_erase, Function.update_apply]

section Invariant

variable {P : κ → ν → Prop} {m : Map κ ν} {key : κ} {value : ν}

/-- What holds of all entries and of a new one holds after it was added. -/
theorem forall_lookup_emplace (h : ∀ k found, m.lookup k = some found → P k found)
    (hnew : P key value) :
    ∀ k found, (emplace m key value).lookup k = some found → P k found := by
  intro k found hfound
  rw [lookup_emplace, Option.or_eq_some_iff] at hfound
  rcases hfound with hold | ⟨_, hadded⟩
  · exact h k found hold
  · rw [Option.ite_none_right_eq_some, Option.some.injEq] at hadded
    obtain ⟨rfl, rfl⟩ := hadded
    exact hnew

/-- And after it was set. -/
theorem forall_lookup_assign (h : ∀ k found, m.lookup k = some found → P k found)
    (hnew : P key value) :
    ∀ k found, (assign m key value).lookup k = some found → P k found := by
  intro k found hfound
  rw [lookup_assign] at hfound
  by_cases hk : k = key
  · rw [if_pos hk, Option.some.injEq] at hfound
    subst hk hfound
    exact hnew
  · rw [if_neg hk] at hfound
    exact h k found hfound

/-- And after a key was erased. -/
theorem forall_lookup_erase (h : ∀ k found, m.lookup k = some found → P k found) (key : κ) :
    ∀ k found, (m.erase key).lookup k = some found → P k found := by
  intro k found hfound
  rw [lookup_erase] at hfound
  by_cases hk : k = key
  · rw [if_pos hk] at hfound
    exact absurd hfound.symm (Option.some_ne_none found)
  · rw [if_neg hk] at hfound
    exact h k found hfound

end Invariant

theorem mem_emplace (m : Map κ ν) (key : κ) (value : ν) (k : κ) :
    k ∈ emplace m key value ↔ k = key ∨ k ∈ m := by
  unfold emplace
  by_cases hmem : key ∈ m
  · rw [if_pos hmem]
    constructor
    · exact Or.inr
    · rintro (rfl | hk)
      · exact hmem
      · exact hk
  · rw [if_neg hmem]
    exact AList.mem_insert m

theorem mem_assign (m : Map κ ν) (key : κ) (value : ν) (k : κ) :
    k ∈ assign m key value ↔ k = key ∨ k ∈ m :=
  AList.mem_insert m

/-- Setting a key that is there leaves the keys. -/
theorem mem_assign_of_mem {m : Map κ ν} {key : κ} (h : key ∈ m) (value : ν) (k : κ) :
    k ∈ assign m key value ↔ k ∈ m := by
  rw [mem_assign]
  constructor
  · rintro (rfl | hk)
    · exact h
    · exact hk
  · exact Or.inr

/-- Add a list of fields in order, the first one of each key winning. -/
def emplaceAll (m : Map κ ν) (fields : List (κ × ν)) : Map κ ν :=
  fields.foldl (fun filled field => emplace filled field.1 field.2) m

/-- Set a list of fields in order, the last one of each key winning. -/
def assignAll (m : Map κ ν) (fields : List (κ × ν)) : Map κ ν :=
  fields.foldl (fun filled field => assign filled field.1 field.2) m

theorem emplaceAll_append (m : Map κ ν) (fields fields' : List (κ × ν)) :
    emplaceAll m (fields ++ fields') = emplaceAll (emplaceAll m fields) fields' :=
  List.foldl_append

/-- The first value that a list of fields gives to a key. -/
def fieldValue (fields : List (κ × ν)) (k : κ) : Option ν := fields.lookup k

@[simp] theorem fieldValue_nil (k : κ) :
    fieldValue ([] : List (κ × ν)) k = none := rfl

theorem fieldValue_cons (field : κ × ν) (fields : List (κ × ν)) (k : κ) :
    fieldValue (field :: fields) k =
      (if k = field.1 then some field.2 else none).or (fieldValue fields k) := by
  obtain ⟨key, value⟩ := field
  unfold fieldValue
  rw [List.lookup_cons]
  by_cases hk : k = key
  · simp [hk]
  · have hne : (k == key) = false := by simpa using hk
    simp [hne, hk]

theorem fieldValue_append (fields fields' : List (κ × ν)) (k : κ) :
    fieldValue (fields ++ fields') k =
      (fieldValue fields k).or (fieldValue fields' k) :=
  List.lookup_append

/-- The first value stands where the key stands first. -/
theorem fieldValue_eq_getElem? (fields : List (κ × ν)) (k : κ) :
    fieldValue fields k =
      (fields.map Prod.snd)[fields.findIdx fun field => decide (field.1 = k)]? := by
  induction fields with
  | nil => rfl
  | cons field fields ih =>
      rw [fieldValue_cons, List.findIdx_cons, List.map_cons]
      by_cases hk : k = field.1
      · simp [hk]
      · simp [hk, Ne.symm hk, ih]

theorem fieldValue_of_not_mem {fields : List (κ × ν)} {k : κ}
    (h : k ∉ fields.map Prod.fst) : fieldValue fields k = none := by
  induction fields with
  | nil => rfl
  | cons field fields ih =>
      simp only [List.map_cons, List.mem_cons, not_or] at h
      rw [fieldValue_cons, ih h.2, if_neg h.1, Option.none_or]

theorem fieldValue_of_mem {fields : List (κ × ν)}
    (hnodup : (fields.map Prod.fst).Nodup) {k : κ} {value : ν}
    (h : (k, value) ∈ fields) : fieldValue fields k = some value := by
  induction fields with
  | nil => exact absurd h List.not_mem_nil
  | cons field fields ih =>
      simp only [List.map_cons, List.nodup_cons] at hnodup
      rw [fieldValue_cons]
      rcases List.mem_cons.mp h with hfirst | hlater
      · simp [← hfirst]
      · have hmem : k ∈ fields.map Prod.fst := List.mem_map.mpr ⟨_, hlater, rfl⟩
        have hk : k ≠ field.1 := by
          rintro rfl
          exact hnodup.1 hmem
        rw [if_neg hk, Option.none_or, ih hnodup.2 hlater]

theorem mem_of_fieldValue {fields : List (κ × ν)} {k : κ} {value : ν}
    (h : fieldValue fields k = some value) : (k, value) ∈ fields := by
  induction fields with
  | nil => exact absurd h.symm (Option.some_ne_none value)
  | cons field fields ih =>
      rw [fieldValue_cons] at h
      by_cases hk : k = field.1
      · rw [if_pos hk, Option.some_or, Option.some.injEq] at h
        exact List.mem_cons.mpr (Or.inl (Prod.ext hk h.symm))
      · rw [if_neg hk, Option.none_or] at h
        exact List.mem_cons_of_mem field (ih h)

theorem lookup_emplaceAll (m : Map κ ν) (fields : List (κ × ν)) (k : κ) :
    (emplaceAll m fields).lookup k = (m.lookup k).or (fieldValue fields k) := by
  induction fields generalizing m with
  | nil => simp [emplaceAll]
  | cons field fields ih =>
      have htail := ih (emplace m field.1 field.2)
      rw [lookup_emplace, Option.or_assoc, ← fieldValue_cons] at htail
      exact htail

theorem lookup_assignAll (m : Map κ ν) (fields : List (κ × ν)) (k : κ) :
    (assignAll m fields).lookup k =
      (fieldValue fields.reverse k).or (m.lookup k) := by
  induction fields generalizing m with
  | nil => simp [assignAll]
  | cons field fields ih =>
      have htail := ih (assign m field.1 field.2)
      rw [List.reverse_cons, fieldValue_append, Option.or_assoc, fieldValue_cons]
      rw [lookup_assign] at htail
      refine htail.trans ?_
      by_cases hk : k = field.1
      · simp [hk]
      · simp [hk]

/-- The fields of a map, in the order of its entries. -/
def fields (m : Map κ ν) : List (κ × ν) :=
  m.entries.map fun entry => (entry.1, entry.2)

omit [DecidableEq κ] in
/-- The names among the fields are those of the map, each once. -/
theorem fields_nodup (m : Map κ ν) : ((fields m).map Prod.fst).Nodup := by
  have hkeys : (fields m).map Prod.fst = m.keys := by
    simp [fields, AList.keys, List.keys, Function.comp_def]
  exact hkeys ▸ m.keys_nodup

theorem mem_fields_iff {m : Map κ ν} {key : κ} {value : ν} :
    (key, value) ∈ fields m ↔ m.lookup key = some value := by
  rw [← Option.mem_def, AList.mem_lookup_iff]
  constructor
  · intro hfield
    obtain ⟨entry, hentry, heq⟩ := List.mem_map.mp hfield
    obtain ⟨rfl, rfl⟩ := Prod.mk.inj heq
    exact hentry
  · exact fun hentry => List.mem_map.mpr ⟨_, hentry, rfl⟩

theorem exists_mem_fields {m : Map κ ν} {key : κ} (h : key ∈ m) :
    ∃ value, (key, value) ∈ fields m := by
  obtain ⟨value, hvalue⟩ := Option.isSome_iff_exists.mp (AList.lookup_isSome.mpr h)
  exact ⟨value, mem_fields_iff.mpr hvalue⟩

/-- With each name there once, the order of fields does not matter. -/
theorem fieldValue_perm {written : List (κ × ν)} {m : Map κ ν}
    (h : written.Perm (fields m)) (k : κ) :
    fieldValue written k = fieldValue (fields m) k := by
  have hnodup : (written.map Prod.fst).Nodup := (h.map Prod.fst).nodup_iff.mpr (fields_nodup m)
  by_cases hk : k ∈ (fields m).map Prod.fst
  · obtain ⟨⟨key, value⟩, hfield, rfl⟩ := List.mem_map.mp hk
    rw [fieldValue_of_mem (fields_nodup m) hfield,
      fieldValue_of_mem hnodup (h.mem_iff.mpr hfield)]
  · have hother : k ∉ written.map Prod.fst := fun hmem =>
      hk ((h.map Prod.fst).mem_iff.mp hmem)
    rw [fieldValue_of_not_mem hk, fieldValue_of_not_mem hother]

theorem fieldValue_fields (m : Map κ ν) (k : κ) :
    fieldValue (fields m) k = m.lookup k := by
  cases hlookup : m.lookup k with
  | some value => exact fieldValue_of_mem (fields_nodup m) (mem_fields_iff.mpr hlookup)
  | none =>
      apply fieldValue_of_not_mem
      intro hmem
      obtain ⟨⟨key, value⟩, hfield, rfl⟩ := List.mem_map.mp hmem
      rw [mem_fields_iff.mp hfield] at hlookup
      exact Option.some_ne_none value hlookup

/-- With each name there once, a name that is there is on one field. -/
theorem filter_of_mem {written : List (κ × ν)} (hnodup : (written.map Prod.fst).Nodup)
    {key : κ} {value : ν} (h : (key, value) ∈ written) :
    written.filter (fun field => field.1 = key) = [(key, value)] := by
  induction written with
  | nil => exact absurd h List.not_mem_nil
  | cons field written ih =>
      simp only [List.map_cons, List.nodup_cons] at hnodup
      rcases List.mem_cons.mp h with hfirst | hlater
      · have hrest : written.filter (fun other => other.1 = field.1) = [] := by
          simp only [List.filter_eq_nil_iff, decide_eq_true_eq]
          exact fun other hother hsame => hnodup.1 (List.mem_map.mpr ⟨other, hother, hsame⟩)
        subst hfirst
        rw [List.filter_cons_of_pos (by simp), hrest]
      · have hk : field.1 ≠ key := by
          rintro rfl
          exact hnodup.1 (List.mem_map.mpr ⟨_, hlater, rfl⟩)
        rw [List.filter_cons_of_neg (by simpa using hk), ih hnodup.2 hlater]

/-- Fields with different names fill an empty map with themselves. -/
theorem fields_emplaceAll_perm {written : List (κ × ν)}
    (hnodup : (written.map Prod.fst).Nodup) :
    (fields (emplaceAll ∅ written)).Perm written := by
  have hleft := (fields_nodup (emplaceAll ∅ written)).of_map
  apply (List.perm_ext_iff_of_nodup hleft hnodup.of_map).mpr
  rintro ⟨key, value⟩
  rw [mem_fields_iff, lookup_emplaceAll, AList.lookup_empty, Option.none_or]
  constructor
  · exact mem_of_fieldValue
  · exact fieldValue_of_mem hnodup

/-- How a hash map is walked through: every field once, in an order that only
the container knows. -/
structure IterationOrder (κ : Type u) (ν : Type v) [DecidableEq κ] where
  visit : Map κ ν → List (κ × ν)
  visit_perm : ∀ m, (visit m).Perm (fields m)

/-- The order of the entries themselves. -/
def IterationOrder.byEntry : IterationOrder κ ν where
  visit := fields
  visit_perm _ := .refl _

end KeyedMap
