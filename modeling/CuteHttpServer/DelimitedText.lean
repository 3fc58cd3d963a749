/-
Text cut by delimiters.  The two-symbol delimiter serves line protocols: its
first occurrence, the complete lines before it and how both change when
symbols are appended.  The one-symbol delimiter serves field lists.
-/
import Mathlib.Data.List.Basic
import Mathlib.Data.List.Infix
import Mathlib.Data.List.TakeWhile
import Mathlib.Tactic.Common

namespace DelimitedText

universe u v

variable {α : Type u}

/-- Lines written one after the other, each closed by the delimiter. -/
def joinLines (a b : α) (lines : List (List α)) : List α :=
  lines.flatMap fun line => line ++ [a, b]

@[simp] theorem joinLines_nil (a b : α) : joinLines a b [] = [] := rfl

@[simp] theorem joinLines_cons (a b : α) (line : List α)
    (lines : List (List α)) :
    joinLines a b (line :: lines) = line ++ a :: b :: joinLines a b lines := by
  simp [joinLines]

@[simp] theorem joinLines_append (a b : α) (lines lines' : List (List α)) :
    joinLines a b (lines ++ lines') =
      joinLines a b lines ++ joinLines a b lines' := by
  simp [joinLines]

variable [DecidableEq α]

/-- Offset of the first occurrence of the symbol `a` followed by `b`. -/
def findPair (a b : α) : List α → Option Nat
  | x :: y :: rest =>
      if x = a ∧ y = b then some 0
      else (findPair a b (y :: rest)).map (· + 1)
  | _ => none

/-- The delimiter does not occur. -/
def PairFree (a b : α) (text : List α) : Prop :=
  findPair a b text = none

instance (a b : α) (text : List α) : Decidable (PairFree a b text) :=
  inferInstanceAs (Decidable (findPair a b text = none))

@[simp] theorem pairFree_nil (a b : α) : PairFree a b [] := rfl

theorem pairFree_cons_cons {a b x y : α} {rest : List α} :
    PairFree a b (x :: y :: rest) ↔
      ¬ (x = a ∧ y = b) ∧ PairFree a b (y :: rest) := by
  by_cases hpair : x = a ∧ y = b
  · simp [PairFree, findPair, hpair]
  · simp [PairFree, findPair, hpair]

/-- A text in which the first symbol of the delimiter is missing. -/
theorem pairFree_of_not_mem {a b : α} {text : List α} (h : a ∉ text) :
    PairFree a b text := by
  induction text with
  | nil => rfl
  | cons x rest ih =>
      cases rest with
      | nil => rfl
      | cons y rest =>
          simp only [List.mem_cons, not_or] at h
          rw [pairFree_cons_cons]
          exact ⟨fun hpair => h.1 hpair.1.symm, ih (by simp [h.2])⟩

/-- The end of a text without the delimiter. -/
theorem pairFree_of_suffix {a b : α} {text text' : List α} (hsuffix : text' <:+ text)
    (h : PairFree a b text) : PairFree a b text' := by
  obtain ⟨before, rfl⟩ := hsuffix
  induction before with
  | nil => exact h
  | cons x before ih =>
      apply ih
      cases hrest : before ++ text' with
      | nil => rfl
      | cons y rest =>
          rw [List.cons_append, hrest, pairFree_cons_cons] at h
          exact h.2

/-- And its beginning. -/
theorem pairFree_of_prefix {a b : α} {text text' : List α} (hbegin : text' <+: text)
    (h : PairFree a b text) : PairFree a b text' := by
  obtain ⟨later, rfl⟩ := hbegin
  induction text' with
  | nil => rfl
  | cons x text' ih =>
      cases text' with
      | nil => rfl
      | cons y text' =>
          obtain ⟨hpair, hrest⟩ := pairFree_cons_cons.mp h
          exact pairFree_cons_cons.mpr ⟨hpair, ih hrest⟩

/-- Two texts joined by a symbol that is no part of the delimiter. -/
theorem pairFree_append_cons {a b c : α} (hca : c ≠ a) (hcb : c ≠ b)
    {text text' : List α} (h : PairFree a b text) (h' : PairFree a b text') :
    PairFree a b (text ++ c :: text') := by
  induction text with
  | nil =>
      cases text' with
      | nil => rfl
      | cons y text' =>
          exact pairFree_cons_cons.mpr ⟨fun hpair => hca hpair.1, h'⟩
  | cons x text ih =>
      cases text with
      | nil =>
          exact pairFree_cons_cons.mpr ⟨fun hpair => hcb hpair.2, ih rfl⟩
      | cons y text =>
          rw [pairFree_cons_cons] at h
          exact pairFree_cons_cons.mpr ⟨h.1, ih h.2⟩

/-- The first delimiter after a line without one is where the line ends: a
delimiter cannot begin inside the line, since `a` and `b` differ. -/
theorem findPair_append_pair {a b : α} (hab : a ≠ b) {line : List α}
    (hline : PairFree a b line) (rest : List α) :
    findPair a b (line ++ a :: b :: rest) = some line.length := by
  induction line with
  | nil => simp [findPair]
  | cons x line ih =>
      cases line with
      | nil => simp [findPair, hab]
      | cons y line =>
          rw [pairFree_cons_cons] at hline
          have hnext := ih hline.2
          simp only [List.cons_append] at hnext ⊢
          simp [findPair, hline.1, hnext]

theorem eq_append_of_findPair {a b : α} {text : List α} {offset : Nat}
    (h : findPair a b text = some offset) :
    ∃ line rest, text = line ++ a :: b :: rest ∧ line.length = offset ∧
      PairFree a b line := by
  induction text generalizing offset with
  | nil => simp [findPair] at h
  | cons x text ih =>
      cases text with
      | nil => simp [findPair] at h
      | cons y rest =>
          by_cases hpair : x = a ∧ y = b
          · obtain ⟨rfl, rfl⟩ := hpair
            simp only [findPair, and_self, ↓reduceIte, Option.some.injEq] at h
            exact ⟨[], rest, rfl, by simpa using h, rfl⟩
          · simp only [findPair, hpair, ↓reduceIte, Option.map_eq_some_iff] at h
            obtain ⟨previous, hprevious, rfl⟩ := h
            obtain ⟨line, tail, htext, hlength, hfree⟩ := ih hprevious
            refine ⟨x :: line, tail, by rw [htext]; rfl, by simp [hlength], ?_⟩
            cases line with
            | nil => rfl
            | cons z line =>
                have hz : z = y := by
                  simpa using (List.cons.inj htext).1.symm
                rw [pairFree_cons_cons, hz]
                exact ⟨hpair, hz ▸ hfree⟩

/-- Either no delimiter is there yet, or the text starts with one line. -/
theorem pairFree_or_line (a b : α) (text : List α) :
    PairFree a b text ∨
      ∃ line rest, PairFree a b line ∧ text = line ++ a :: b :: rest := by
  cases hfind : findPair a b text with
  | none => exact Or.inl hfind
  | some offset =>
      obtain ⟨line, rest, htext, _, hline⟩ := eq_append_of_findPair hfind
      exact Or.inr ⟨line, rest, hline, htext⟩

theorem findPair_add_two_le {a b : α} {text : List α} {offset : Nat}
    (h : findPair a b text = some offset) : offset + 2 ≤ text.length := by
  obtain ⟨line, rest, rfl, rfl, _⟩ := eq_append_of_findPair h
  simp

/-- How often the symbol `a` is followed by `b`. -/
def pairCount (a b : α) (text : List α) : Nat := (text.zip text.tail).count (a, b)

theorem pairCount_le_cons (a b x : α) (text : List α) :
    pairCount a b text ≤ pairCount a b (x :: text) := by
  cases text with
  | nil => exact Nat.le_refl _
  | cons y rest =>
      rw [pairCount, pairCount, List.tail_cons, List.tail_cons, List.zip_cons_cons]
      exact List.count_le_count_cons

theorem pairCount_le_append (a b : α) (text rest : List α) :
    pairCount a b rest ≤ pairCount a b (text ++ rest) := by
  induction text with
  | nil => exact Nat.le_refl _
  | cons x text ih => exact ih.trans (pairCount_le_cons a b x _)

/-- Each line takes a delimiter with it. -/
theorem pairCount_lt_append (a b : α) (line rest : List α) :
    pairCount a b rest < pairCount a b (line ++ a :: b :: rest) := by
  induction line with
  | nil =>
      have hrest := pairCount_le_cons a b b rest
      have hpair : pairCount a b (a :: b :: rest) = pairCount a b (b :: rest) + 1 := by
        rw [pairCount, List.tail_cons, List.zip_cons_cons, List.count_cons_self]
        rfl
      rw [List.nil_append, hpair]
      exact Nat.lt_succ_of_le hrest
  | cons x line ih =>
      rw [List.cons_append]
      exact ih.trans_le (pairCount_le_cons a b x _)

/-- Every line of the text that is closed by a delimiter. -/
def completeLines (a b : α) : List α → List (List α)
  | x :: y :: rest =>
      if x = a ∧ y = b then [] :: completeLines a b rest
      else
        match completeLines a b (y :: rest) with
        | [] => []
        | line :: lines => (x :: line) :: lines
  | _ => []

theorem completeLines_append_pair {a b : α} (hab : a ≠ b) {line : List α}
    (hline : PairFree a b line) (rest : List α) :
    completeLines a b (line ++ a :: b :: rest) =
      line :: completeLines a b rest := by
  induction line with
  | nil => simp [completeLines]
  | cons x line ih =>
      cases line with
      | nil => simp [completeLines, hab]
      | cons y line =>
          rw [pairFree_cons_cons] at hline
          have hnext := ih hline.2
          simp only [List.cons_append] at hnext ⊢
          simp [completeLines, hline.1, hnext]

theorem completeLines_joinLines_append {a b : α} (hab : a ≠ b)
    {lines : List (List α)} (hlines : ∀ line ∈ lines, PairFree a b line)
    (rest : List α) :
    completeLines a b (joinLines a b lines ++ rest) =
      lines ++ completeLines a b rest := by
  induction lines with
  | nil => rfl
  | cons line lines ih =>
      have hnext := ih fun other hother =>
        hlines other (List.mem_cons_of_mem line hother)
      rw [joinLines_cons, List.append_assoc, List.cons_append, List.cons_append,
        completeLines_append_pair hab (hlines line List.mem_cons_self), hnext,
        List.cons_append]

/-- What follows a delimiter does not change the lines before it. -/
theorem completeLines_append {a b : α} (hab : a ≠ b) (text rest : List α) :
    completeLines a b (text ++ a :: b :: rest) =
      completeLines a b (text ++ [a, b]) ++ completeLines a b rest := by
  induction hlength : text.length using Nat.strong_induction_on generalizing text with
  | h n ih =>
      rcases pairFree_or_line a b text with hfree | ⟨line, later, hline, rfl⟩
      · rw [completeLines_append_pair hab hfree, completeLines_append_pair hab hfree]
        rfl
      · have hshorter : later.length < n := by
          rw [← hlength]
          simp only [List.length_append, List.length_cons]
          omega
        have hlater := ih later.length hshorter later rfl
        rw [List.append_assoc, List.cons_append, List.cons_append,
          completeLines_append_pair hab hline, hlater, List.append_assoc, List.cons_append,
          List.cons_append, completeLines_append_pair hab hline, List.cons_append]

/-- The lines up to the first empty one, and what comes after that.  The flag
tells whether the text begins at the start of a line. -/
def splitHead (a b : α) : Bool → List α → Option (List (List α) × List α)
  | fresh, x :: y :: rest =>
      if x = a ∧ y = b then
        if fresh then some ([], rest)
        else (splitHead a b true rest).map fun head => ([] :: head.1, head.2)
      else
        (splitHead a b false (y :: rest)).map fun head =>
          match head.1 with
          | [] => ([], head.2)
          | line :: lines => ((x :: line) :: lines, head.2)
  | _, _ => none

@[simp] theorem splitHead_pair (a b : α) (rest : List α) :
    splitHead a b true (a :: b :: rest) = some ([], rest) := by
  simp [splitHead]

theorem splitHead_false {a b : α} (hab : a ≠ b) {line : List α}
    (hline : PairFree a b line) (rest : List α) :
    splitHead a b false (line ++ a :: b :: rest) =
      (splitHead a b true rest).map fun head => (line :: head.1, head.2) := by
  induction line with
  | nil => simp [splitHead]
  | cons x line ih =>
      cases line with
      | nil => simp [splitHead, hab, Function.comp_def]
      | cons y line =>
          rw [pairFree_cons_cons] at hline
          have hnext := ih hline.2
          simp only [List.cons_append] at hnext ⊢
          simp [splitHead, hline.1, hnext, Function.comp_def]

/-- A line that is not empty belongs to the head. -/
theorem splitHead_line {a b : α} (hab : a ≠ b) {line : List α} (hne : line ≠ [])
    (hline : PairFree a b line) (rest : List α) :
    splitHead a b true (line ++ a :: b :: rest) =
      (splitHead a b true rest).map fun head => (line :: head.1, head.2) := by
  obtain ⟨x, line, rfl⟩ := List.exists_cons_of_ne_nil hne
  rw [← splitHead_false hab hline]
  cases line with
  | nil => simp [splitHead, hab]
  | cons y line =>
      rw [pairFree_cons_cons] at hline
      simp [splitHead, hline.1]

/-- Reading undoes writing for a head of non-empty lines. -/
theorem splitHead_joinLines {a b : α} (hab : a ≠ b) {lines : List (List α)}
    (hlines : ∀ line ∈ lines, line ≠ [] ∧ PairFree a b line) (rest : List α) :
    splitHead a b true (joinLines a b lines ++ a :: b :: rest) = some (lines, rest) := by
  induction lines with
  | nil => exact splitHead_pair a b rest
  | cons line lines ih =>
      obtain ⟨hne, hfree⟩ := hlines line List.mem_cons_self
      have hlater := ih fun other hother => hlines other (List.mem_cons_of_mem line hother)
      rw [joinLines_cons, List.append_assoc, List.cons_append, List.cons_append,
        splitHead_line hab hne hfree, hlater, Option.map_some]

/-- Pieces separated by one symbol, as a reader that stops at the end of the
text sees them: a closing separator opens no further piece. -/
def pieces (d : α) : List α → List (List α)
  | [] => []
  | x :: rest =>
      if x = d then [] :: pieces d rest
      else
        match pieces d rest with
        | [] => [[x]]
        | piece :: later => (x :: piece) :: later

theorem pieces_append_cons {d : α} {piece : List α} (hpiece : d ∉ piece)
    (rest : List α) :
    pieces d (piece ++ d :: rest) = piece :: pieces d rest := by
  induction piece with
  | nil => simp [pieces]
  | cons x piece ih =>
      simp only [List.mem_cons, not_or] at hpiece
      have hx : x ≠ d := fun heq => hpiece.1 heq.symm
      simp [pieces, hx, ih hpiece.2]

theorem pieces_of_not_mem {d : α} {piece : List α} (hpiece : d ∉ piece)
    (hne : piece ≠ []) : pieces d piece = [piece] := by
  induction piece with
  | nil => exact absurd rfl hne
  | cons x piece ih =>
      simp only [List.mem_cons, not_or] at hpiece
      have hx : x ≠ d := fun heq => hpiece.1 heq.symm
      cases piece with
      | nil => simp [pieces, hx]
      | cons y piece =>
          have htail := ih hpiece.2 (List.cons_ne_nil y piece)
          rw [pieces, if_neg hx, htail]

/-- Reading undoes writing for non-empty pieces without the separator. -/
theorem pieces_intercalate {d : α} {texts : List (List α)}
    (hfree : ∀ text ∈ texts, d ∉ text) (hne : ∀ text ∈ texts, text ≠ []) :
    pieces d (List.intercalate [d] texts) = texts := by
  induction texts with
  | nil => rfl
  | cons text texts ih =>
      have htext := hfree text List.mem_cons_self
      have hlater := ih (fun other hother => hfree other (List.mem_cons_of_mem _ hother))
        (fun other hother => hne other (List.mem_cons_of_mem _ hother))
      cases texts with
      | nil =>
          simpa [List.intercalate] using
            pieces_of_not_mem htext (hne text List.mem_cons_self)
      | cons next texts =>
          rw [List.intercalate_cons_cons, List.append_assoc,
            List.singleton_append, pieces_append_cons htext, hlater]

/-- A plain split has one piece more, an empty one, where the text is empty or
ends with a separator. -/
theorem splitOn_eq_pieces (d : α) (text : List α) :
    text.splitOn d = pieces d text ∨ text.splitOn d = pieces d text ++ [[]] := by
  induction text with
  | nil => exact Or.inr (List.splitOn_nil d)
  | cons x text ih =>
      rw [List.splitOn_cons_eq_if_modifyHead, pieces]
      by_cases hx : x = d
      · rw [if_pos (beq_iff_eq.mpr hx), if_pos hx]
        rcases ih with hsplit | hsplit
        · exact Or.inl (congrArg (List.cons []) hsplit)
        · exact Or.inr (congrArg (List.cons []) hsplit)
      · rw [if_neg (by simpa using hx), if_neg hx]
        rcases ih with hsplit | hsplit
        · rw [hsplit]
          cases hpieces : pieces d text with
          | nil => exact absurd (hsplit.trans hpieces) (List.splitOn_ne_nil d text)
          | cons piece later => exact Or.inl rfl
        · rw [hsplit]
          cases pieces d text with
          | nil => exact Or.inl rfl
          | cons piece later => exact Or.inr rfl

omit [DecidableEq α] in
theorem mem_intercalate {separator : List α} {texts : List (List α)} {c : α}
    (h : c ∈ List.intercalate separator texts) :
    c ∈ separator ∨ ∃ text ∈ texts, c ∈ text := by
  induction texts with
  | nil => exact absurd h List.not_mem_nil
  | cons text texts ih =>
      cases texts with
      | nil => exact Or.inr ⟨text, List.mem_cons_self, by simpa using h⟩
      | cons next texts =>
          rw [List.intercalate_cons_cons, List.mem_append, List.mem_append] at h
          rcases h with (hfirst | hseparator) | hlater
          · exact Or.inr ⟨text, List.mem_cons_self, hfirst⟩
          · exact Or.inl hseparator
          · rcases ih hlater with hseparator | ⟨other, hother, hc⟩
            · exact Or.inl hseparator
            · exact Or.inr ⟨other, List.mem_cons_of_mem text hother, hc⟩

omit [DecidableEq α] in
/-- What follows a separator. -/
theorem drop_append_cons (text rest : List α) (c : α) :
    (text ++ c :: rest).drop (text.length + 1) = rest := by
  rw [List.drop_length_add_append, List.drop_one, List.tail_cons]

/-- What comes before the first occurrence of a symbol is the same whatever
follows it. -/
theorem takeWhile_ne_append_of_mem {d : α} {text : List α} (h : d ∈ text) (rest : List α) :
    (text ++ rest).takeWhile (· ≠ d) = text.takeWhile (· ≠ d) := by
  rw [List.takeWhile_append, if_neg]
  intro hall
  have hwhole := (List.takeWhile_prefix _).eq_of_length hall
  exact of_decide_eq_true (List.takeWhile_eq_self_iff.mp hwhole d h) rfl

/-- A text without the symbol is not cut. -/
theorem takeWhile_ne_append_of_not_mem {d : α} {text : List α} (h : d ∉ text)
    (rest : List α) : (text ++ rest).takeWhile (· ≠ d) = text ++ rest.takeWhile (· ≠ d) :=
  List.takeWhile_append_of_pos fun _ hx => decide_eq_true fun heq => h (heq ▸ hx)

/-- What is left from the first occurrence of a symbol on. -/
theorem dropWhile_ne_append_cons {d : α} {text : List α} (h : d ∉ text) (rest : List α) :
    (text ++ d :: rest).dropWhile (· ≠ d) = d :: rest := by
  have htext : ∀ x ∈ text, decide (x ≠ d) = true :=
    fun x hx => decide_eq_true fun heq => h (heq ▸ hx)
  rw [List.dropWhile_append_of_pos htext, List.dropWhile_cons_of_neg (by simp)]

theorem dropWhile_ne_of_not_mem {d : α} {text : List α} (h : d ∉ text) :
    text.dropWhile (· ≠ d) = [] :=
  List.dropWhile_eq_nil_iff.mpr fun _ hx => decide_eq_true fun heq => h (heq ▸ hx)

/-- The first separator stands right after a text without one. -/
theorem idxOf?_append_cons {d : α} {text : List α} (htext : d ∉ text)
    (rest : List α) : (text ++ d :: rest).idxOf? d = some text.length := by
  rw [List.idxOf?_eq_some_iff]
  refine ⟨by simp, by simp, ?_⟩
  intro j hj heq
  rw [List.getElem_append_left hj] at heq
  exact htext (heq ▸ List.getElem_mem hj)

omit [DecidableEq α] in
theorem intercalate_cons (d : α) (first : List α) (rest : List (List α)) :
    List.intercalate [d] (first :: rest) = first ++ rest.flatMap (d :: ·) := by
  induction rest generalizing first with
  | nil => simp
  | cons s rest ih =>
      rw [List.intercalate_cons_cons, ih, List.flatMap_cons, List.append_assoc]
      rfl

theorem not_mem_of_mem_splitOn {d : α} {text s : List α} (h : s ∈ text.splitOn d) :
    d ∉ s := by
  induction text generalizing s with
  | nil =>
      rw [List.splitOn_nil, List.mem_singleton] at h
      rw [h]
      exact List.not_mem_nil
  | cons x text ih =>
      rw [List.splitOn_cons_eq_if_modifyHead] at h
      by_cases hx : x = d
      · rw [if_pos (beq_iff_eq.mpr hx), List.mem_cons] at h
        rcases h with rfl | h
        · exact List.not_mem_nil
        · exact ih h
      · rw [if_neg (by simpa using hx)] at h
        obtain ⟨first, rest, hsplit⟩ :=
          List.exists_cons_of_ne_nil (List.splitOn_ne_nil d text)
        rw [hsplit, List.modifyHead_cons, List.mem_cons] at h
        rcases h with rfl | h
        · rw [List.mem_cons, not_or]
          exact ⟨fun heq => hx heq.symm, ih (hsplit ▸ List.mem_cons_self)⟩
        · exact ih (hsplit ▸ List.mem_cons_of_mem first h)

/-- A text as its first piece and those behind a separator. -/
theorem exists_splitOn (d : α) (text : List α) :
    ∃ first rest, text.splitOn d = first :: rest ∧
      text = first ++ rest.flatMap (d :: ·) ∧ d ∉ first ∧ ∀ s ∈ rest, d ∉ s := by
  obtain ⟨first, rest, hsplit⟩ :=
    List.exists_cons_of_ne_nil (List.splitOn_ne_nil d text)
  have hfree : ∀ s ∈ first :: rest, d ∉ s := by
    intro s hs
    exact not_mem_of_mem_splitOn (hsplit ▸ hs)
  refine ⟨first, rest, hsplit, ?_, hfree first List.mem_cons_self, ?_⟩
  · rw [← intercalate_cons, ← hsplit, List.intercalate_splitOn]
  · exact fun s hs => hfree s (List.mem_cons_of_mem first hs)

theorem splitOn_append_flatMap {d : α} {first : List α} {rest : List (List α)}
    (hfirst : d ∉ first) (hrest : ∀ s ∈ rest, d ∉ s) :
    (first ++ rest.flatMap (d :: ·)).splitOn d = first :: rest := by
  rw [← intercalate_cons, List.splitOn_intercalate]
  · intro s hs
    rcases List.mem_cons.mp hs with rfl | hs
    · exact hfirst
    · exact hrest s hs
  · exact List.cons_ne_nil first rest

/-- One piece more than there are separators. -/
theorem length_splitOn (d : α) (text : List α) :
    (text.splitOn d).length = text.count d + 1 := by
  induction text with
  | nil => simp
  | cons x text ih =>
      rw [List.splitOn_cons_eq_if_modifyHead, List.count_cons]
      by_cases hx : x = d
      · simp [hx, ih]
      · simp [hx, ih]

section Stream

variable {β : Type v} (next : List α → Option (β × List α))

/-- Read so many values off the front of a text. -/
def readMany : Nat → List α → Option (List β × List α)
  | 0, text => some ([], text)
  | count + 1, text =>
      (next text).bind fun read =>
        (readMany count read.2).map fun later => (read.1 :: later.1, later.2)

variable {next}

omit [DecidableEq α] in
/-- Texts that are read whatever follows them are read one after the other. -/
theorem readMany_flatten {texts : List (List α)} {values : List β}
    (h : List.Forall₂ (fun text value => ∀ rest, next (text ++ rest) = some (value, rest))
      texts values) (rest : List α) :
    readMany next texts.length (texts.flatten ++ rest) = some (values, rest) := by
  induction h with
  | nil => rfl
  | cons hfirst _ ih =>
      rw [List.length_cons, List.flatten_cons, List.append_assoc, readMany, hfirst,
        Option.bind_some, ih, Option.map_some]

end Stream

end DelimitedText
