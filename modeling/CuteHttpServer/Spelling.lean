/-
Expressions without choices: symbols, runs of symbols and captured runs, one
after the other.  Which texts they match, and what they capture, is said by a
relation that knows nothing of priorities.
-/
import CuteHttpServer.Backtracking

namespace Backtracking

universe u

variable {α : Type u}

inductive Piece (α : Type u)
  | one (accepts : α → Bool)
  | many (accepts : α → Bool) (min : Bool)
  | captured (accepts : α → Bool)

namespace Piece

/-- The pieces as expressions, with their groups numbered from `index` on. -/
def regexes : Nat → List (Piece α) → List (Regex α)
  | _, [] => []
  | index, one accepts :: pieces => .one accepts :: regexes index pieces
  | index, many accepts min :: pieces =>
      .loop (.one accepts) min.toNat none true :: regexes index pieces
  | index, captured accepts :: pieces =>
      .group index (concat [.loop (.one accepts) 1 none true]) :: regexes (index + 1) pieces

/-- The number of groups. -/
def groupCount : List (Piece α) → Nat
  | [] => 0
  | captured _ :: pieces => groupCount pieces + 1
  | _ :: pieces => groupCount pieces

/-- All of a subject. -/
def anchored (pieces : List (Piece α)) : Regex α :=
  concat (.atStart :: (regexes 0 pieces ++ [.atEnd]))

end Piece

/-- The texts that a list of pieces matches, and what is captured there. -/
inductive Spells : List (Piece α) → List α → List (List α) → Prop
  | nil : Spells [] [] []
  | one {accepts c pieces text captures} (hc : accepts c = true)
      (rest : Spells pieces text captures) :
      Spells (.one accepts :: pieces) (c :: text) captures
  | many {accepts min word pieces text captures} (hword : ∀ c ∈ word, accepts c = true)
      (hmin : min = true → word ≠ []) (rest : Spells pieces text captures) :
      Spells (.many accepts min :: pieces) (word ++ text) captures
  | captured {accepts word pieces text captures} (hword : ∀ c ∈ word, accepts c = true)
      (hne : word ≠ []) (rest : Spells pieces text captures) :
      Spells (.captured accepts :: pieces) (word ++ text) (word :: captures)

section Results

variable [DecidableEq α]

theorem mem_results_range {accepts : α → Bool} {min : Bool} {cursor next : Cursor α} :
    next ∈ results (.loop (.one accepts) min.toNat none true) cursor ↔
      ∃ n, (min = true → n ≠ 0) ∧ n ≤ (cursor.rest.takeWhile accepts).length ∧
        next = cursor.advance n := by
  cases min with
  | false =>
      rw [Bool.toNat_false, results_star, List.mem_map]
      constructor
      · rintro ⟨n, hn, rfl⟩
        rw [List.mem_reverse, List.mem_range] at hn
        exact ⟨n, by simp, by omega, rfl⟩
      · rintro ⟨n, _, hn, rfl⟩
        exact ⟨n, by rw [List.mem_reverse, List.mem_range]; omega, rfl⟩
  | true =>
      rw [Bool.toNat_true, results_plus, List.mem_map]
      constructor
      · rintro ⟨n, hn, rfl⟩
        rw [List.mem_reverse, List.mem_range] at hn
        exact ⟨n + 1, by simp, hn, rfl⟩
      · rintro ⟨n, hne, hn, rfl⟩
        obtain ⟨m, rfl⟩ := Nat.exists_eq_succ_of_ne_zero (hne rfl)
        exact ⟨m, by rw [List.mem_reverse, List.mem_range]; omega, rfl⟩

omit [DecidableEq α] in
/-- The beginnings of a text that are made of accepted symbols. -/
theorem le_takeWhile_length (accepts : α → Bool) (word text : List α) :
    word.length ≤ ((word ++ text).takeWhile accepts).length ↔
      ∀ c ∈ word, accepts c = true := by
  induction word with
  | nil => simp
  | cons c word ih =>
      cases hc : accepts c with
      | false => simp [hc]
      | true => simp [hc, ih]

/-- A run ends after any number of accepted symbols that meets its minimum. -/
theorem mem_results_many {accepts : α → Bool} {min : Bool} {cursor next : Cursor α} :
    next ∈ results (.loop (.one accepts) min.toNat none true) cursor ↔
      ∃ word text, cursor.rest = word ++ text ∧ (∀ c ∈ word, accepts c = true) ∧
        (min = true → word ≠ []) ∧ next = cursor.advance word.length := by
  rw [mem_results_range]
  constructor
  · rintro ⟨n, hmin, hn, rfl⟩
    have hle : n ≤ cursor.rest.length :=
      hn.trans (List.takeWhile_sublist accepts).length_le
    have hlength : (cursor.rest.take n).length = n := by simp [hle]
    refine ⟨cursor.rest.take n, cursor.rest.drop n, (List.take_append_drop n _).symm, ?_, ?_,
      by rw [hlength]⟩
    · apply (le_takeWhile_length accepts _ (cursor.rest.drop n)).mp
      rw [List.take_append_drop, hlength]
      exact hn
    · intro h hnil
      rw [hnil] at hlength
      exact hmin h hlength.symm
  · rintro ⟨word, text, hrest, hword, hmin, rfl⟩
    refine ⟨word.length, fun h => ?_, ?_, rfl⟩
    · exact fun hzero => hmin h (List.length_eq_zero_iff.mp hzero)
    · rw [hrest]
      exact (le_takeWhile_length accepts word text).mpr hword

theorem results_concat_singleton (regex : Regex α) (cursor : Cursor α) :
    results (concat [regex]) cursor = results regex cursor := by
  simp [concat, results]

theorem results_concat_cons (regex : Regex α) (regexes : List (Regex α))
    (cursor : Cursor α) :
    results (concat (regex :: regexes)) cursor =
      (results regex cursor).flatMap (results (concat regexes)) := rfl

theorem mem_results_captured {accepts : α → Bool} {index : Nat} {cursor next : Cursor α} :
    next ∈ results (.group index (concat [.loop (.one accepts) 1 none true])) cursor ↔
      ∃ word text, cursor.rest = word ++ text ∧ (∀ c ∈ word, accepts c = true) ∧
        word ≠ [] ∧ next = { cursor.advance word.length with
          captures := cursor.captures.set index (some word) } := by
  have hplus : ∀ middle : Cursor α,
      middle ∈ results (.loop (.one accepts) 1 none true) cursor ↔ _ :=
    fun middle => @mem_results_many α _ accepts true cursor middle
  rw [results, results_concat_singleton, List.mem_map]
  have hupTo : ∀ word text : List α, cursor.rest = word ++ text →
      cursor.upTo (cursor.advance word.length) = word := by
    intro word text hrest
    simp [Cursor.upTo, hrest]
  constructor
  · rintro ⟨middle, hmiddle, rfl⟩
    obtain ⟨word, text, hrest, hword, hne, rfl⟩ := (hplus middle).mp hmiddle
    exact ⟨word, text, hrest, hword, hne rfl, by rw [hupTo word text hrest]; rfl⟩
  · rintro ⟨word, text, hrest, hword, hne, rfl⟩
    refine ⟨cursor.advance word.length, ?_, by rw [hupTo word text hrest]; rfl⟩
    exact (hplus _).mpr ⟨word, text, hrest, hword, fun _ => hne, rfl⟩

theorem mem_results_one {accepts : α → Bool} {cursor next : Cursor α} :
    next ∈ results (.one accepts) cursor ↔
      ∃ c text, cursor.rest = c :: text ∧ accepts c = true ∧ next = cursor.advance 1 := by
  cases hrest : cursor.rest with
  | nil => simp [results, hrest]
  | cons c text => simp [results, hrest]

/-- What is matched is spelled, and the groups hold what is captured. -/
theorem spells_of_mem_results {pieces : List (Piece α)} (cursor next : Cursor α)
    (found : List (Option (List α)))
    (hcaptures : cursor.captures = found ++ List.replicate (Piece.groupCount pieces) none)
    (h : next ∈ results (concat (Piece.regexes found.length pieces ++ [.atEnd])) cursor) :
    ∃ captures, Spells pieces cursor.rest captures ∧ next.rest = [] ∧
      next.captures = found ++ captures.map some := by
  induction pieces generalizing cursor found with
  | nil =>
      rw [Piece.regexes, List.nil_append, results_concat_singleton] at h
      simp only [results, List.mem_ite_nil_right, List.mem_singleton,
        List.isEmpty_iff] at h
      obtain ⟨hrest, rfl⟩ := h
      refine ⟨[], ?_, hrest, by simpa [Piece.groupCount] using hcaptures⟩
      rw [hrest]
      exact .nil
  | cons piece pieces ih =>
      cases piece with
      | one accepts =>
          obtain ⟨middle, hmiddle, hnext⟩ := List.mem_flatMap.mp h
          obtain ⟨c, text, hrest, hc, rfl⟩ := mem_results_one.mp hmiddle
          obtain ⟨captures, hspells, hend, hfound⟩ :=
            ih (cursor.advance 1) found hcaptures hnext
          refine ⟨captures, ?_, hend, hfound⟩
          rw [Cursor.advance_rest, hrest] at hspells
          rw [hrest]
          exact .one hc hspells
      | many accepts min =>
          obtain ⟨middle, hmiddle, hnext⟩ := List.mem_flatMap.mp h
          obtain ⟨word, text, hrest, hword, hmin, rfl⟩ := mem_results_many.mp hmiddle
          obtain ⟨captures, hspells, hend, hfound⟩ :=
            ih (cursor.advance word.length) found hcaptures hnext
          refine ⟨captures, ?_, hend, hfound⟩
          rw [Cursor.advance_rest, hrest, List.drop_left] at hspells
          rw [hrest]
          exact .many hword hmin hspells
      | captured accepts =>
          obtain ⟨middle, hmiddle, hnext⟩ := List.mem_flatMap.mp h
          obtain ⟨word, text, hrest, hword, hne, rfl⟩ := mem_results_captured.mp hmiddle
          have hset : cursor.captures.set found.length (some word) =
              (found ++ [some word]) ++ List.replicate (Piece.groupCount pieces) none := by
            simp [hcaptures, Piece.groupCount, List.replicate_succ]
          have hlength : (found ++ [some word]).length = found.length + 1 := by simp
          obtain ⟨captures, hspells, hend, hfound⟩ :=
            ih { cursor.advance word.length with
              captures := cursor.captures.set found.length (some word) }
              (found ++ [some word]) hset (hlength ▸ hnext)
          refine ⟨word :: captures, ?_, hend, by simpa using hfound⟩
          have htext : (cursor.advance word.length).rest = text := by simp [hrest]
          rw [hrest]
          exact .captured hword hne (htext ▸ hspells)

/-- And what is spelled is matched. -/
theorem exists_mem_results {pieces : List (Piece α)} {text : List α}
    {captures : List (List α)} (h : Spells pieces text captures) (index : Nat)
    (cursor : Cursor α) (hrest : cursor.rest = text) :
    ∃ next ∈ results (concat (Piece.regexes index pieces ++ [.atEnd])) cursor,
      next.rest = [] := by
  induction h generalizing index cursor with
  | nil =>
      refine ⟨cursor, ?_, hrest⟩
      rw [Piece.regexes, List.nil_append, results_concat_singleton]
      simp [results, hrest]
  | one hc _ ih =>
      obtain ⟨next, hnext, hend⟩ := ih index (cursor.advance 1) (by simp [hrest])
      refine ⟨next, List.mem_flatMap.mpr ⟨_, ?_, hnext⟩, hend⟩
      exact mem_results_one.mpr ⟨_, _, hrest, hc, rfl⟩
  | @many accepts min word pieces text captures hword hmin _ ih =>
      obtain ⟨next, hnext, hend⟩ :=
        ih index (cursor.advance word.length) (by simp [hrest])
      refine ⟨next, List.mem_flatMap.mpr ⟨_, ?_, hnext⟩, hend⟩
      exact mem_results_many.mpr ⟨word, text, hrest, hword, hmin, rfl⟩
  | @captured accepts word pieces text captures hword hne _ ih =>
      obtain ⟨next, hnext, hend⟩ := ih (index + 1)
        { cursor.advance word.length with
          captures := cursor.captures.set index (some word) } (by simp [hrest])
      refine ⟨next, List.mem_flatMap.mpr ⟨_, ?_, hnext⟩, hend⟩
      exact mem_results_captured.mpr ⟨word, text, hrest, hword, hne, rfl⟩

theorem results_anchored (pieces : List (Piece α)) (groups : Nat) (text : List α) :
    results (Piece.anchored pieces) (Cursor.start groups text) =
      results (concat (Piece.regexes 0 pieces ++ [.atEnd])) (Cursor.start groups text) := by
  rw [Piece.anchored, results_concat_cons]
  simp [results, Cursor.start]

/-- A match of a whole subject spells it. -/
theorem spells_of_fullMatch {pieces : List (Piece α)} {text : List α}
    {captured : List (Option (List α))}
    (h : fullMatch (Piece.anchored pieces) (Piece.groupCount pieces) text = some captured) :
    ∃ captures, Spells pieces text captures ∧ captured = captures.map some := by
  obtain ⟨next, hfind, rfl⟩ := Option.map_eq_some_iff.mp h
  have hnext := List.mem_of_find?_eq_some hfind
  rw [results_anchored] at hnext
  obtain ⟨captures, hspells, _, hfound⟩ := spells_of_mem_results _ next [] rfl hnext
  exact ⟨captures, hspells, hfound⟩

/-- There is one if the subject can be spelled. -/
theorem fullMatch_of_spells {pieces : List (Piece α)} {text : List α}
    {captures : List (List α)} (h : Spells pieces text captures) :
    (fullMatch (Piece.anchored pieces) (Piece.groupCount pieces) text).isSome = true := by
  obtain ⟨next, hnext, hend⟩ := exists_mem_results h 0
    (Cursor.start (Piece.groupCount pieces) text) rfl
  rw [← results_anchored] at hnext
  rw [fullMatch, Option.isSome_map, List.find?_isSome]
  exact ⟨next, hnext, by rw [hend]; rfl⟩

end Results

end Backtracking
