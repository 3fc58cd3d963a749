/-
Regular expressions with capture groups, matched by backtracking.  A match is
tried in a fixed order of priority, so an expression takes a position to the
list of positions it can end at, the preferred one first.
-/
import Mathlib.Data.List.Basic
import Mathlib.Data.List.TakeWhile
import Mathlib.Tactic.Common

namespace Backtracking

universe u

variable {α : Type u}

inductive Regex (α : Type u)
  | empty
  | one (accepts : α → Bool)
  | seq (first second : Regex α)
  | alt (first second : Regex α)
  | group (index : Nat) (body : Regex α)
  | loop (body : Regex α) (min : Nat) (max : Option Nat) (greedy : Bool)
  | atStart
  | atEnd
  | boundary (isWord : α → Bool) (negated : Bool)
  | backref (index : Nat)
  | look (negated : Bool) (body : Regex α)

/-- The groups that an expression captures. -/
def Regex.groups : Regex α → List Nat
  | .seq first second => first.groups ++ second.groups
  | .alt first second => first.groups ++ second.groups
  | .group index body => index :: body.groups
  | .loop body _ _ _ => body.groups
  | .look _ body => body.groups
  | _ => []

@[simp] theorem Regex.groups_one (accepts : α → Bool) :
    (Regex.one accepts).groups = [] := rfl

/-- A position in a subject, and what the groups have captured before it. -/
structure Cursor (α : Type u) where
  previous : Option α
  rest : List α
  captures : List (Option (List α))

namespace Cursor

/-- Go on by a number of symbols. -/
def advance (cursor : Cursor α) (n : Nat) : Cursor α :=
  { cursor with
    previous := (cursor.rest.take n).getLast?.or cursor.previous
    rest := cursor.rest.drop n }

/-- Forget what some groups have captured. -/
def clear (cursor : Cursor α) (groups : List Nat) : Cursor α :=
  { cursor with
    captures := groups.foldl (fun captures index => captures.set index none)
      cursor.captures }

/-- The symbols between a position and a later one. -/
def upTo (cursor next : Cursor α) : List α :=
  cursor.rest.take (cursor.rest.length - next.rest.length)

@[simp] theorem advance_rest (cursor : Cursor α) (n : Nat) :
    (cursor.advance n).rest = cursor.rest.drop n := rfl

@[simp] theorem advance_captures (cursor : Cursor α) (n : Nat) :
    (cursor.advance n).captures = cursor.captures := rfl

@[simp] theorem clear_nil (cursor : Cursor α) : cursor.clear [] = cursor := rfl

@[simp] theorem advance_zero (cursor : Cursor α) : cursor.advance 0 = cursor := by
  simp [advance]

theorem advance_advance (cursor : Cursor α) (m n : Nat) :
    (cursor.advance m).advance n = cursor.advance (m + n) := by
  have htake : cursor.rest.take (m + n) =
      cursor.rest.take m ++ (cursor.rest.drop m).take n := List.take_add
  simp [advance, htake, List.getLast?_append, Option.or_assoc, List.drop_drop]

end Cursor

/-- Go through a loop: as long as `min` rounds are missing there is no choice,
then a further round, which must take something, or the end of the loop is
tried first. -/
def iterate (body : Cursor α → List (Cursor α)) (greedy : Bool) :
    Nat → Nat → Option Nat → Cursor α → List (Cursor α)
  | 0, _, _, _ => []
  | fuel + 1, min, max, cursor =>
      if max = some 0 then [cursor]
      else
        let deeper := (body cursor).flatMap fun next =>
          if min = 0 ∧ next.rest.length = cursor.rest.length then []
          else iterate body greedy fuel (min - 1) (max.map (· - 1)) next
        if min ≠ 0 then deeper
        else if greedy then deeper ++ [cursor]
        else cursor :: deeper

/-- Where an expression can end, the preferred end first. -/
def results [DecidableEq α] : Regex α → Cursor α → List (Cursor α)
  | .empty, cursor => [cursor]
  | .one accepts, cursor =>
      match cursor.rest with
      | c :: _ => if accepts c then [cursor.advance 1] else []
      | [] => []
  | .seq first second, cursor => (results first cursor).flatMap (results second)
  | .alt first second, cursor => results first cursor ++ results second cursor
  | .group index body, cursor =>
      (results body cursor).map fun next =>
        { next with captures := next.captures.set index (some (cursor.upTo next)) }
  | .loop body min max greedy, cursor =>
      iterate (fun cursor => results body (cursor.clear body.groups)) greedy
        (min + cursor.rest.length + 1) min max cursor
  | .atStart, cursor => if cursor.previous.isNone then [cursor] else []
  | .atEnd, cursor => if cursor.rest.isEmpty then [cursor] else []
  | .boundary isWord negated, cursor =>
      if (cursor.previous.any isWord != cursor.rest.head?.any isWord) != negated
      then [cursor] else []
  | .backref index, cursor =>
      match cursor.captures[index]?.join with
      | none => [cursor]
      | some text =>
          if text.isPrefixOf cursor.rest then [cursor.advance text.length] else []
  | .look negated body, cursor =>
      match (results body cursor).head? with
      | some next =>
          if negated then [] else [{ cursor with captures := next.captures }]
      | none => if negated then [cursor] else []

/-- The start of a subject, with nothing captured. -/
def Cursor.start (groups : Nat) (text : List α) : Cursor α :=
  ⟨none, text, List.replicate groups none⟩

/-- What the groups capture in the preferred match of the whole subject. -/
def fullMatch [DecidableEq α] (regex : Regex α) (groups : Nat) (text : List α) :
    Option (List (Option (List α))) :=
  ((results regex (Cursor.start groups text)).find? fun cursor =>
    cursor.rest.isEmpty).map Cursor.captures

/-- Replace every match, from left to right, by the same text.  The numbers of
symbols to skip belong to the match that was replaced last.  After an empty
match one that is not is tried at the same place. -/
def replaceFrom [DecidableEq α] (regex : Regex α) (groups : Nat) (replacement : List α) :
    Option α → Nat → List α → List α
  | _, skip + 1, c :: rest => replaceFrom regex groups replacement (some c) skip rest
  | previous, 0, c :: rest =>
      let found := results regex ⟨previous, c :: rest, List.replicate groups none⟩
      let used (cursor : Cursor α) := (c :: rest).length - cursor.rest.length
      match found.head? with
      | none => c :: replaceFrom regex groups replacement (some c) 0 rest
      | some next =>
          if used next ≠ 0 then
            replacement ++
              replaceFrom regex groups replacement (some c) (used next - 1) rest
          else
            match found.find? fun cursor => used cursor ≠ 0 with
            | some next =>
                replacement ++ replacement ++
                  replaceFrom regex groups replacement (some c) (used next - 1) rest
            | none =>
                replacement ++ c :: replaceFrom regex groups replacement (some c) 0 rest
  | previous, _, [] =>
      if (results regex ⟨previous, [], List.replicate groups none⟩).isEmpty then []
      else replacement

def replaceAll [DecidableEq α] (regex : Regex α) (groups : Nat) (replacement text : List α) :
    List α :=
  replaceFrom regex groups replacement none 0 text

/-- One expression after the other. -/
def concat (regexes : List (Regex α)) : Regex α := regexes.foldr .seq .empty

section Loops

variable {body : Cursor α → List (Cursor α)}

theorem iterate_length
    (hbody : ∀ cursor, ∀ next ∈ body cursor, next.rest.length ≤ cursor.rest.length)
    (greedy : Bool) {fuel min : Nat} {max : Option Nat} {cursor next : Cursor α}
    (h : next ∈ iterate body greedy fuel min max cursor) :
    next.rest.length ≤ cursor.rest.length := by
  induction fuel generalizing min max cursor with
  | zero => exact absurd h List.not_mem_nil
  | succ fuel ih =>
      have hdeeper : next ∈ (body cursor).flatMap (fun middle =>
          if min = 0 ∧ middle.rest.length = cursor.rest.length then []
          else iterate body greedy fuel (min - 1) (max.map (· - 1)) middle) →
          next.rest.length ≤ cursor.rest.length := by
        intro hmem
        obtain ⟨middle, hmiddle, hnext⟩ := List.mem_flatMap.mp hmem
        split at hnext
        · exact absurd hnext List.not_mem_nil
        · exact (ih hnext).trans (hbody cursor middle hmiddle)
      simp only [iterate] at h
      split at h
      · exact (List.mem_singleton.mp h) ▸ Nat.le_refl _
      · split at h
        · exact hdeeper h
        · split at h
          · rcases List.mem_append.mp h with h | h
            · exact hdeeper h
            · exact (List.mem_singleton.mp h) ▸ Nat.le_refl _
          · rcases List.mem_cons.mp h with rfl | h
            · exact Nat.le_refl _
            · exact hdeeper h

/-- Every round shortens the rest or brings the loop closer to its minimum, so
the rounds that `results` allows are enough. -/
theorem iterate_fuel
    (hbody : ∀ cursor, ∀ next ∈ body cursor, next.rest.length ≤ cursor.rest.length)
    (greedy : Bool) {fuel fuel' min : Nat} {max : Option Nat} {cursor : Cursor α}
    (h : min + cursor.rest.length < fuel) (h' : min + cursor.rest.length < fuel') :
    iterate body greedy fuel min max cursor = iterate body greedy fuel' min max cursor := by
  induction fuel generalizing fuel' min max cursor with
  | zero => omega
  | succ fuel ih =>
      obtain ⟨fuel', rfl⟩ := Nat.exists_eq_add_of_lt (Nat.zero_lt_of_lt h')
      rw [Nat.zero_add] at h' ⊢
      have hdeeper : (body cursor).flatMap (fun middle =>
          if min = 0 ∧ middle.rest.length = cursor.rest.length then []
          else iterate body greedy fuel (min - 1) (max.map (· - 1)) middle) =
          (body cursor).flatMap (fun middle =>
            if min = 0 ∧ middle.rest.length = cursor.rest.length then []
            else iterate body greedy fuel' (min - 1) (max.map (· - 1)) middle) := by
        apply List.flatMap_congr
        intro middle hmiddle
        have hle := hbody cursor middle hmiddle
        by_cases hstuck : min = 0 ∧ middle.rest.length = cursor.rest.length
        · rw [if_pos hstuck, if_pos hstuck]
        · rw [if_neg hstuck, if_neg hstuck]
          apply ih <;> omega
      simp only [iterate, hdeeper]

end Loops

section Results

variable [DecidableEq α]

theorem results_length (regex : Regex α) (cursor : Cursor α) :
    ∀ next ∈ results regex cursor, next.rest.length ≤ cursor.rest.length := by
  induction regex generalizing cursor with
  | empty =>
      intro next hnext
      exact (List.mem_singleton.mp hnext) ▸ Nat.le_refl _
  | one accepts =>
      intro next hnext
      cases hrest : cursor.rest with
      | nil => simp [results, hrest] at hnext
      | cons c rest =>
          simp only [results, hrest, List.mem_ite_nil_right, List.mem_singleton] at hnext
          simp [hnext.2, hrest]
  | seq first second ihFirst ihSecond =>
      intro next hnext
      obtain ⟨middle, hmiddle, hnext⟩ := List.mem_flatMap.mp hnext
      exact (ihSecond middle next hnext).trans (ihFirst cursor middle hmiddle)
  | alt first second ihFirst ihSecond =>
      intro next hnext
      rcases List.mem_append.mp hnext with hnext | hnext
      · exact ihFirst cursor next hnext
      · exact ihSecond cursor next hnext
  | group index body ih =>
      intro next hnext
      obtain ⟨middle, hmiddle, rfl⟩ := List.mem_map.mp hnext
      exact ih cursor middle hmiddle
  | loop body min max greedy ih =>
      intro next hnext
      apply iterate_length _ greedy hnext
      exact fun cursor => ih (cursor.clear body.groups)
  | atStart =>
      intro next hnext
      simp only [results, List.mem_ite_nil_right, List.mem_singleton] at hnext
      rw [hnext.2]
  | atEnd =>
      intro next hnext
      simp only [results, List.mem_ite_nil_right, List.mem_singleton] at hnext
      rw [hnext.2]
  | boundary isWord negated =>
      intro next hnext
      simp only [results, List.mem_ite_nil_right, List.mem_singleton] at hnext
      rw [hnext.2]
  | backref index =>
      intro next hnext
      cases htext : cursor.captures[index]?.join with
      | none =>
          simp only [results, htext, List.mem_singleton] at hnext
          rw [hnext]
      | some text =>
          simp only [results, htext, List.mem_ite_nil_right, List.mem_singleton] at hnext
          simp [hnext.2]
  | look negated body =>
      intro next hnext
      cases hfound : (results body cursor).head? with
      | none =>
          simp only [results, hfound, List.mem_ite_nil_right, List.mem_singleton] at hnext
          rw [hnext.2]
      | some found =>
          simp only [results, hfound, List.mem_ite_nil_left, List.mem_singleton] at hnext
          rw [hnext.2]

/-- A loop, unrolled once. -/
theorem results_loop (body : Regex α) (min : Nat) (max : Option Nat) (greedy : Bool)
    (cursor : Cursor α) :
    results (.loop body min max greedy) cursor =
      if max = some 0 then [cursor]
      else
        let deeper := (results body (cursor.clear body.groups)).flatMap fun next =>
          if min = 0 ∧ next.rest.length = cursor.rest.length then []
          else results (.loop body (min - 1) (max.map (· - 1)) greedy) next
        if min ≠ 0 then deeper
        else if greedy then deeper ++ [cursor]
        else cursor :: deeper := by
  have hbody : ∀ cursor : Cursor α, ∀ next ∈ results body (cursor.clear body.groups),
      next.rest.length ≤ cursor.rest.length :=
    fun cursor => results_length body (cursor.clear body.groups)
  have hdeeper : (results body (cursor.clear body.groups)).flatMap (fun next =>
      if min = 0 ∧ next.rest.length = cursor.rest.length then []
      else iterate (fun cursor => results body (cursor.clear body.groups)) greedy
        (min + cursor.rest.length) (min - 1) (max.map (· - 1)) next) =
      (results body (cursor.clear body.groups)).flatMap (fun next =>
        if min = 0 ∧ next.rest.length = cursor.rest.length then []
        else results (.loop body (min - 1) (max.map (· - 1)) greedy) next) := by
    apply List.flatMap_congr
    intro next hnext
    have hle := hbody cursor next hnext
    by_cases hstuck : min = 0 ∧ next.rest.length = cursor.rest.length
    · rw [if_pos hstuck, if_pos hstuck]
    · rw [if_neg hstuck, if_neg hstuck]
      apply iterate_fuel hbody greedy <;> omega
  rw [← hdeeper]
  rfl

theorem results_one_accepted {accepts : α → Bool} {cursor : Cursor α} {c : α}
    {rest : List α} (hrest : cursor.rest = c :: rest) (h : accepts c = true) :
    results (.one accepts) cursor = [cursor.advance 1] := by
  simp [results, hrest, h]

theorem results_one_refused {accepts : α → Bool} {cursor : Cursor α}
    (h : ∀ c ∈ cursor.rest.head?, accepts c = false) :
    results (.one accepts) cursor = [] := by
  cases hrest : cursor.rest with
  | nil => simp [results, hrest]
  | cons c rest => simp [results, hrest, h c (by simp [hrest])]

omit [DecidableEq α] in
theorem map_advance_range (cursor : Cursor α) (n : Nat) :
    (List.range (n + 1)).reverse.map cursor.advance =
      (List.range n).reverse.map (fun m => cursor.advance (m + 1)) ++ [cursor] := by
  rw [List.range_succ_eq_map, List.reverse_cons, List.map_append, List.map_singleton,
    Cursor.advance_zero, ← List.map_reverse, List.map_map]
  rfl

/-- A greedy loop over single symbols takes as many as it can, then fewer. -/
theorem results_star (accepts : α → Bool) (cursor : Cursor α) :
    results (.loop (.one accepts) 0 none true) cursor =
      (List.range ((cursor.rest.takeWhile accepts).length + 1)).reverse.map
        cursor.advance := by
  induction hlength : cursor.rest.length generalizing cursor with
  | zero =>
      rw [results_loop]
      simp [Regex.groups, results, List.length_eq_zero_iff.mp hlength]
  | succ n ih =>
      obtain ⟨c, rest, hrest⟩ := List.exists_cons_of_length_eq_add_one hlength
      rw [results_loop, Regex.groups_one, Cursor.clear_nil, map_advance_range]
      cases haccepted : accepts c with
      | false =>
          rw [results_one_refused (by simp [hrest, haccepted])]
          simp [hrest, haccepted]
      | true =>
          have hnext : (cursor.advance 1).rest = rest := by simp [hrest]
          have hlater := ih (cursor.advance 1) (by simp [hlength])
          rw [hnext] at hlater
          have hmoved : (cursor.advance 1).rest.length ≠ cursor.rest.length := by
            simp [hrest]
          have hshift : (List.range ((rest.takeWhile accepts).length + 1)).reverse.map
              (cursor.advance 1).advance =
              (List.range ((rest.takeWhile accepts).length + 1)).reverse.map
                (fun m => cursor.advance (m + 1)) := by
            apply List.map_congr_left
            intro m _
            rw [Cursor.advance_advance, Nat.add_comm]
          have htaken : (cursor.rest.takeWhile accepts).length =
              (rest.takeWhile accepts).length + 1 := by simp [hrest, haccepted]
          rw [results_one_accepted hrest haccepted, htaken, ← hshift, ← hlater]
          simp only [reduceCtorEq, if_false, List.flatMap_singleton, hmoved, and_false,
            ne_eq, not_true_eq_false, if_true]
          rfl

/-- At least one symbol, and as many as it can. -/
theorem results_plus (accepts : α → Bool) (cursor : Cursor α) :
    results (.loop (.one accepts) 1 none true) cursor =
      (List.range (cursor.rest.takeWhile accepts).length).reverse.map
        (fun m => cursor.advance (m + 1)) := by
  rw [results_loop, Regex.groups_one, Cursor.clear_nil]
  cases hrest : cursor.rest with
  | nil =>
      rw [results_one_refused (by simp [hrest])]
      simp
  | cons c rest =>
      cases haccepted : accepts c with
      | false =>
          rw [results_one_refused (by simp [hrest, haccepted])]
          simp [haccepted]
      | true =>
          have hlater := results_star accepts (cursor.advance 1)
          have hnext : (cursor.advance 1).rest = rest := by simp [hrest]
          rw [hnext] at hlater
          rw [results_one_accepted hrest haccepted, List.takeWhile_cons_of_pos haccepted]
          simp [hlater, Cursor.advance_advance, Nat.add_comm]

end Results

section Replacing

variable [DecidableEq α] {regex : Regex α} {groups : Nat} {replacement : List α}

/-- Symbols of a replaced match are skipped. -/
theorem replaceFrom_skip (previous : Option α) (word rest : List α) :
    replaceFrom regex groups replacement previous word.length (word ++ rest) =
      replaceFrom regex groups replacement (word.getLast?.or previous) 0 rest := by
  induction word generalizing previous with
  | nil => rfl
  | cons c word ih =>
      have hprevious : (c :: word).getLast?.or previous = word.getLast?.or (some c) := by
        simp [List.getLast?_cons]
      rw [hprevious, ← ih]
      rfl

/-- A symbol where no match begins stays. -/
theorem replaceFrom_unmatched {previous : Option α} {c : α} {rest : List α}
    (h : results regex ⟨previous, c :: rest, List.replicate groups none⟩ = []) :
    replaceFrom regex groups replacement previous 0 (c :: rest) =
      c :: replaceFrom regex groups replacement (some c) 0 rest := by
  simp [replaceFrom, h]

/-- A match with something in it is replaced. -/
theorem replaceFrom_matched {previous : Option α} {c : α} {word rest : List α}
    {next : Cursor α} (hrest : next.rest = rest)
    (h : (results regex
      ⟨previous, c :: (word ++ rest), List.replicate groups none⟩).head? = some next) :
    replaceFrom regex groups replacement previous 0 (c :: (word ++ rest)) =
      replacement ++
        replaceFrom regex groups replacement (word.getLast?.or (some c)) 0 rest := by
  have hused : (c :: (word ++ rest)).length - next.rest.length = word.length + 1 := by
    rw [hrest, List.length_cons, List.length_append]
    omega
  simp only [replaceFrom, h, hused]
  rw [if_pos (Nat.succ_ne_zero _), Nat.add_sub_cancel, replaceFrom_skip]

theorem replaceFrom_end {previous : Option α}
    (h : results regex ⟨previous, [], List.replicate groups none⟩ = []) :
    replaceFrom regex groups replacement previous 0 [] = [] := by
  simp [replaceFrom, h]

end Replacing

end Backtracking
