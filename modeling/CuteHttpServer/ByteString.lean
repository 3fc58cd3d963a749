/-
Byte strings and the operations of the C++ standard library on them: character
classes of the "C" locale, formatted extraction, substring search and the
number parser `std::stoul` together with the decimal writer `std::to_string`.
-/
import Mathlib.Data.List.DropRight
import Mathlib.Data.List.Infix
import Mathlib.Tactic.Common

namespace ByteString

abbrev Byte := UInt8

abbrev Bytes := List Byte

/-- The bytes of a literal of 7-bit characters. -/
def ascii (text : String) : Bytes :=
  text.toList.map fun c => c.toNat.toUInt8

def isBlank (c : Byte) : Bool := c = 32 || c = 9

/-- `std::isspace` in the "C" locale. -/
def isSpace (c : Byte) : Bool := c = 32 || (9 ≤ c && c ≤ 13)

def isDigit (c : Byte) : Bool := 48 ≤ c && c ≤ 57

/-- A letter without its case. -/
def lowerCase (c : Byte) : Byte := if 65 ≤ c ∧ c ≤ 90 then c + 32 else c

theorem isSpace_of_isBlank {c : Byte} (h : isBlank c = true) :
    isSpace c = true := by
  simp only [isBlank, isSpace, Bool.or_eq_true, decide_eq_true_eq] at h ⊢
  rcases h with rfl | rfl
  · exact Or.inl rfl
  · exact Or.inr rfl

theorem isSpace_eq_false_of_isDigit {c : Byte} (h : isDigit c = true) :
    isSpace c = false := by
  simp only [isDigit, isSpace, Bool.and_eq_true, decide_eq_true_eq,
    Bool.or_eq_false_iff, decide_eq_false_iff_not, UInt8.le_iff_toNat_le,
    ← UInt8.toNat_inj, UInt8.reduceToNat, Bool.and_eq_false_iff] at h ⊢
  omega

theorem isDigit_eq_false_of_isBlank {c : Byte} (h : isBlank c = true) :
    isDigit c = false := by
  simp only [isBlank, Bool.or_eq_true, decide_eq_true_eq] at h
  rcases h with rfl | rfl <;> rfl

/-- `stream >> token`: leading white space is skipped, the token runs to the
next white space, and what follows stays in the stream. -/
def extractToken (stream : Bytes) : Bytes × Bytes :=
  let unread := stream.dropWhile isSpace
  (unread.takeWhile fun c => !isSpace c, unread.dropWhile fun c => !isSpace c)

/-- A token without white space is read whole, up to the end of the stream or
the white space after it. -/
theorem extractToken_append {before token rest : Bytes}
    (hbefore : ∀ c ∈ before, isSpace c = true)
    (htoken : ∀ c ∈ token, isSpace c = false) (hne : token ≠ [])
    (hrest : ∀ c ∈ rest.head?, isSpace c = true) :
    extractToken (before ++ (token ++ rest)) = (token, rest) := by
  have hunread : (before ++ (token ++ rest)).dropWhile isSpace = token ++ rest := by
    rw [List.dropWhile_append_of_pos hbefore]
    obtain ⟨first, others, rfl⟩ := List.exists_cons_of_ne_nil hne
    simp [htoken first List.mem_cons_self]
  have hinside : ∀ c ∈ token, (!isSpace c) = true := by
    intro c hc
    simp [htoken c hc]
  simp only [extractToken, hunread]
  rw [List.takeWhile_append_of_pos hinside,
    List.dropWhile_append_of_pos hinside]
  cases rest with
  | nil => simp
  | cons c rest => simp [hrest c (by simp)]

/-- The texts between white space. -/
def words (text : Bytes) : List Bytes := (text.splitOnP isSpace).filter (· ≠ [])

theorem words_cons_space {c : Byte} (hc : isSpace c = true) (rest : Bytes) :
    words (c :: rest) = words rest := by
  unfold words
  rw [List.splitOnP_cons_eq_if_modifyHead, if_pos hc, List.filter_cons_of_neg (by simp)]

theorem words_dropWhile (text : Bytes) : words (text.dropWhile isSpace) = words text := by
  induction text with
  | nil => rfl
  | cons c text ih =>
      by_cases hc : isSpace c = true
      · rw [List.dropWhile_cons_of_pos hc, ih, words_cons_space hc]
      · rw [List.dropWhile_cons_of_neg hc]

/-- A word up to the next white space. -/
theorem words_append {token rest : Bytes} (htoken : ∀ c ∈ token, isSpace c = false)
    (hne : token ≠ []) (hrest : ∀ c ∈ rest.head?, isSpace c = true) :
    words (token ++ rest) = token :: words rest := by
  cases rest with
  | nil =>
      rw [List.append_nil, words, List.splitOnP_eq_singleton htoken,
        List.filter_cons_of_pos (by simp [hne])]
      rfl
  | cons c rest =>
      have hc := hrest c rfl
      rw [words_cons_space hc, words, List.splitOnP_append_cons_of_forall_mem htoken c hc,
        List.filter_cons_of_pos (by simp [hne])]
      rfl

/-- The tokens of a stream are the words of its text. -/
theorem words_eq (stream : Bytes) :
    words stream =
      if (extractToken stream).1 = [] then []
      else (extractToken stream).1 :: words (extractToken stream).2 := by
  have hunread : stream.dropWhile isSpace =
      (extractToken stream).1 ++ (extractToken stream).2 :=
    List.takeWhile_append_dropWhile.symm
  have hrest : ∀ c ∈ (extractToken stream).2.head?, isSpace c = true := by
    intro c hc
    have hnot := List.head?_dropWhile_not (fun c => !isSpace c) (stream.dropWhile isSpace)
    rw [show (stream.dropWhile isSpace).dropWhile (fun c => !isSpace c) =
      (extractToken stream).2 from rfl, hc] at hnot
    simpa using hnot
  have htoken : ∀ c ∈ (extractToken stream).1, isSpace c = false := by
    intro c hc
    simpa using List.mem_takeWhile_imp hc
  rw [← words_dropWhile]
  by_cases hne : (extractToken stream).1 = []
  · have hnone : stream.dropWhile isSpace = [] := by
      cases hcons : stream.dropWhile isSpace with
      | nil => rfl
      | cons c rest =>
          have hnot := List.head?_dropWhile_not isSpace stream
          rw [hcons] at hnot
          have hc : isSpace c = false := hnot
          rw [extractToken, hcons] at hne
          simp [hc] at hne
    rw [if_pos hne, hnone]
    rfl
  · rw [if_neg hne, hunread, words_append htoken hne hrest]

theorem takeWhile_ne_self {d : Byte} {word : Bytes} (h : d ∉ word) :
    word.takeWhile (· ≠ d) = word := by
  rw [List.takeWhile_eq_self_iff]
  intro c hc
  apply decide_eq_true
  rintro rfl
  exact h hc

theorem takeWhile_ne {d : Byte} {word : Bytes} (h : d ∉ word) (later : Bytes) :
    (word ++ d :: later).takeWhile (· ≠ d) = word := by
  rw [List.takeWhile_append_of_pos (List.takeWhile_eq_self_iff.mp (takeWhile_ne_self h))]
  simp

/-- `std::string::find` for a substring: the first position it occurs at. -/
def findSubstring (needle : Bytes) : Bytes → Option Nat
  | [] => if needle = [] then some 0 else none
  | c :: rest =>
      if needle.isPrefixOf (c :: rest) then some 0
      else (findSubstring needle rest).map (· + 1)

/-- At that position the text goes on with the substring. -/
theorem drop_of_findSubstring {needle text : Bytes} {position : Nat}
    (h : findSubstring needle text = some position) :
    text.drop position = needle ++ text.drop (position + needle.length) := by
  induction text generalizing position with
  | nil =>
      rw [findSubstring, Option.ite_none_right_eq_some] at h
      simp [h.1]
  | cons c text ih =>
      unfold findSubstring at h
      by_cases hhere : needle.isPrefixOf (c :: text) = true
      · rw [if_pos hhere, Option.some.injEq] at h
        subst h
        obtain ⟨later, hlater⟩ := List.isPrefixOf_iff_prefix.mp hhere
        simp [← hlater]
      · rw [if_neg hhere, Option.map_eq_some_iff] at h
        obtain ⟨previous, hprevious, rfl⟩ := h
        rw [List.drop_succ_cons, ih hprevious, Nat.add_right_comm, List.drop_succ_cons]

/-- What stands behind the first occurrence of a substring. -/
def textBehind (needle : Bytes) : Bytes → Option Bytes
  | [] => if needle = [] then some [] else none
  | c :: rest =>
      if needle.isPrefixOf (c :: rest) then some ((c :: rest).drop needle.length)
      else textBehind needle rest

theorem textBehind_eq (needle text : Bytes) :
    textBehind needle text =
      (findSubstring needle text).map fun position =>
        text.drop (position + needle.length) := by
  induction text with
  | nil => by_cases hneedle : needle = [] <;> simp [textBehind, findSubstring, hneedle]
  | cons c text ih =>
      unfold textBehind findSubstring
      by_cases hhere : needle.isPrefixOf (c :: text) = true
      · simp [hhere]
      · rw [if_neg hhere, if_neg hhere, ih, Option.map_map]
        congr 1
        funext position
        simp [Nat.add_right_comm]

/-- A substring without the symbol `d` does not reach past one. -/
theorem isPrefixOf_append_cons {needle : Bytes} {d : Byte} (hd : d ∉ needle)
    (text rest : Bytes) :
    needle.isPrefixOf (text ++ d :: rest) = needle.isPrefixOf text := by
  induction needle generalizing text with
  | nil => simp
  | cons c needle ih =>
      rw [List.mem_cons, not_or] at hd
      cases text with
      | nil => simp [List.isPrefixOf, Ne.symm hd.1]
      | cons x text => simp [List.isPrefixOf, ih hd.2]

/-- So its first occurrence is in the text before that symbol, or else in the
text after it. -/
theorem textBehind_append_cons {needle : Bytes} {d : Byte} (hd : d ∉ needle)
    (hne : needle ≠ []) (text rest : Bytes) :
    textBehind needle (text ++ d :: rest) =
      ((textBehind needle text).map (· ++ d :: rest)).or (textBehind needle rest) := by
  induction text with
  | nil =>
      have hhere : needle.isPrefixOf (d :: rest) = false := by
        have hnil := isPrefixOf_append_cons hd [] rest
        rw [List.nil_append] at hnil
        rw [hnil]
        cases needle with
        | nil => exact absurd rfl hne
        | cons c needle => rfl
      simp [textBehind, hhere, hne]
  | cons x text ih =>
      have hhere := isPrefixOf_append_cons hd (x :: text) rest
      rw [List.cons_append] at hhere ⊢
      rw [textBehind, textBehind, hhere]
      by_cases hstart : needle.isPrefixOf (x :: text) = true
      · have hlength : needle.length ≤ (x :: text).length :=
          (List.isPrefixOf_iff_prefix.mp hstart).length_le
        rw [if_pos hstart, if_pos hstart, ← List.cons_append,
          List.drop_append_of_le_length hlength]
        rfl
      · rw [if_neg hstart, if_neg hstart, ih]

/-- A substring that ends in its only `d` is found before the first `d` of a
text exactly if the text up to there ends in what comes before it. -/
theorem textBehind_key {key name : Bytes} {d : Byte} (hkey : d ∉ key) (hname : d ∉ name)
    (value : Bytes) :
    textBehind (key ++ [d]) (name ++ d :: value) =
      if key <:+ name then some value else textBehind (key ++ [d]) value := by
  induction name with
  | nil =>
      cases key with
      | nil => simp [textBehind]
      | cons c key =>
          rw [List.mem_cons, not_or] at hkey
          simp [textBehind, List.isPrefixOf, Ne.symm hkey.1]
  | cons x name ih =>
      rw [List.mem_cons, not_or] at hname
      have hhere : (key ++ [d]).isPrefixOf (x :: name ++ d :: value) = true ↔
          key = x :: name := by
        rw [List.isPrefixOf_iff_prefix]
        constructor
        · rintro ⟨later, hlater⟩
          rw [List.append_assoc, List.singleton_append] at hlater
          have hfree : d ∉ x :: name := by simpa using hname
          rw [← takeWhile_ne hkey later, hlater, takeWhile_ne hfree]
        · rintro rfl
          exact ⟨value, by simp⟩
      rw [List.cons_append] at hhere ⊢
      rw [textBehind, ih hname.2]
      by_cases hwhole : key = x :: name
      · subst hwhole
        rw [if_pos (hhere.mpr rfl), if_pos (List.suffix_refl _)]
        simp
      · rw [if_neg (mt hhere.mp hwhole)]
        simp [List.suffix_cons_iff, hwhole]

/-- What a string of digits denotes. -/
def digitsValue (digits : Bytes) : Nat :=
  digits.foldl (fun value c => 10 * value + (c.toNat - 48)) 0

/-- `std::to_string` of an unsigned number. -/
def decimal (n : Nat) : Bytes :=
  (Nat.toDigits 10 n).map fun c => c.toNat.toUInt8

/-- `std::to_string` of a signed number. -/
def decimalInt : Int → Bytes
  | .ofNat n => decimal n
  | .negSucc n => 45 :: decimal (n + 1)

inductive NumberError
  | invalidArgument
  | outOfRange
deriving DecidableEq, Repr

/-- An optional sign, and whether it is a minus. -/
def takeSign : Bytes → Bool × Bytes
  | [] => (false, [])
  | c :: rest =>
      if c = 45 then (true, rest)
      else if c = 43 then (false, rest)
      else (false, c :: rest)

/-- `std::stoul` in base ten: white space and a sign may come first, reading
stops at the first byte that is no digit, and a minus sign negates modulo
`2 ^ 64`. -/
def stoul (text : Bytes) : Except NumberError UInt64 :=
  let signed := takeSign (text.dropWhile isSpace)
  let digits := signed.2.takeWhile isDigit
  if digits = [] then .error .invalidArgument
  else if UInt64.size ≤ digitsValue digits then .error .outOfRange
  else if signed.1 then .ok (-(UInt64.ofNat (digitsValue digits)))
  else .ok (UInt64.ofNat (digitsValue digits))

/-- The number a value denotes when nothing but decimal digits, up to blanks
around them, is let through. -/
def strictDecimal (text : Bytes) : Option Nat :=
  let digits := (text.dropWhile isBlank).rdropWhile isBlank
  if digits ≠ [] ∧ digits.all isDigit then some (digitsValue digits) else none

theorem digitsValue_append_singleton (digits : Bytes) (c : Byte) :
    digitsValue (digits ++ [c]) = 10 * digitsValue digits + (c.toNat - 48) := by
  simp [digitsValue]

theorem digitChar_byte {d : Nat} (hd : d < 10) :
    isDigit d.digitChar.toNat.toUInt8 = true ∧
      d.digitChar.toNat.toUInt8.toNat - 48 = d := by
  revert d
  decide

theorem decimal_of_lt {n : Nat} (hn : n < 10) :
    decimal n = [n.digitChar.toNat.toUInt8] := by
  rw [decimal, Nat.toDigits_of_lt_base hn, List.map_singleton]

theorem decimal_of_le {n : Nat} (hn : 10 ≤ n) :
    decimal n = decimal (n / 10) ++ [(n % 10).digitChar.toNat.toUInt8] := by
  rw [decimal, Nat.toDigits_of_base_le (by omega) hn, List.map_append,
    List.map_singleton, ← decimal]

theorem decimal_ne_nil (n : Nat) : decimal n ≠ [] := by
  rcases Nat.lt_or_ge n 10 with hn | hn
  · simp [decimal_of_lt hn]
  · simp [decimal_of_le hn]

theorem isDigit_of_mem_decimal {n : Nat} {c : Byte} (hc : c ∈ decimal n) :
    isDigit c = true := by
  induction n using Nat.strong_induction_on with
  | h n ih =>
      rcases Nat.lt_or_ge n 10 with hn | hn
      · rw [decimal_of_lt hn, List.mem_singleton] at hc
        exact hc ▸ (digitChar_byte hn).1
      · rw [decimal_of_le hn, List.mem_append, List.mem_singleton] at hc
        rcases hc with hc | rfl
        · exact ih (n / 10) (by omega) hc
        · exact (digitChar_byte (Nat.mod_lt n (by omega))).1

theorem digitsValue_decimal (n : Nat) : digitsValue (decimal n) = n := by
  induction n using Nat.strong_induction_on with
  | h n ih =>
      rcases Nat.lt_or_ge n 10 with hn | hn
      · rw [decimal_of_lt hn]
        simpa [digitsValue] using (digitChar_byte hn).2
      · rw [decimal_of_le hn, digitsValue_append_singleton,
          (digitChar_byte (Nat.mod_lt n (by omega))).2, ih (n / 10) (by omega)]
        omega

/-- Digits are read up to the end of the text or the first byte that is none. -/
theorem takeWhile_isDigit_append {digits rest : Bytes}
    (hdigits : ∀ c ∈ digits, isDigit c = true)
    (hrest : ∀ c ∈ rest.head?, isDigit c = false) :
    (digits ++ rest).takeWhile isDigit = digits := by
  rw [List.takeWhile_append_of_pos hdigits]
  cases rest with
  | nil => simp
  | cons c rest => simp [hrest c (by simp)]

/-- A text that is digits up to white space around them is read as the number
they denote. -/
theorem stoul_of_digits {before digits after : Bytes}
    (hbefore : ∀ c ∈ before, isSpace c = true)
    (hdigits : ∀ c ∈ digits, isDigit c = true) (hne : digits ≠ [])
    (hafter : ∀ c ∈ after.head?, isDigit c = false)
    (hsmall : digitsValue digits < UInt64.size) :
    stoul (before ++ (digits ++ after)) =
      .ok (UInt64.ofNat (digitsValue digits)) := by
  obtain ⟨first, others, rfl⟩ := List.exists_cons_of_ne_nil hne
  have hfirst : isDigit first = true := hdigits first List.mem_cons_self
  have hunread :
      (before ++ (first :: others ++ after)).dropWhile isSpace =
        first :: others ++ after := by
    rw [List.dropWhile_append_of_pos hbefore]
    simp [isSpace_eq_false_of_isDigit hfirst]
  have hminus : first ≠ 45 := by
    rintro rfl
    exact absurd hfirst (by decide)
  have hplus : first ≠ 43 := by
    rintro rfl
    exact absurd hfirst (by decide)
  have hsigned :
      takeSign ((before ++ (first :: others ++ after)).dropWhile isSpace) =
        (false, first :: others ++ after) := by
    rw [hunread]
    simp [takeSign, hminus, hplus]
  have hlarge : ¬ UInt64.size ≤ digitsValue (first :: others) := by omega
  simp only [stoul, hsigned, takeWhile_isDigit_append hdigits hafter]
  rw [if_neg hne, if_neg hlarge, if_neg Bool.false_ne_true]

theorem stoul_decimal {n : Nat} (hn : n < UInt64.size) :
    stoul (decimal n) = .ok (UInt64.ofNat n) := by
  have h : stoul ([] ++ (decimal n ++ [])) = _ :=
    stoul_of_digits (by simp) (fun c hc => isDigit_of_mem_decimal hc) (decimal_ne_nil n)
      (by simp) (by rwa [digitsValue_decimal])
  simpa [digitsValue_decimal] using h

/-- Where the strict reading gives a number that fits, `std::stoul` gives the
same one. -/
theorem stoul_of_strictDecimal {text : Bytes} {n : Nat}
    (h : strictDecimal text = some n) (hn : n < UInt64.size) :
    stoul text = .ok (UInt64.ofNat n) := by
  unfold strictDecimal at h
  set digits := (text.dropWhile isBlank).rdropWhile isBlank with hdigits
  by_cases hall : digits ≠ [] ∧ digits.all isDigit
  · rw [if_pos hall, Option.some.injEq] at h
    set after := (text.dropWhile isBlank).rtakeWhile isBlank with hafter
    have htext :
        text = text.takeWhile isBlank ++ (digits ++ after) := by
      rw [hdigits, hafter, List.rdropWhile_append_rtakeWhile,
        List.takeWhile_append_dropWhile]
    have hblank : ∀ c ∈ after, isBlank c = true :=
      fun c hc => List.mem_rtakeWhile_imp hc
    rw [htext, ← h]
    apply stoul_of_digits
    · intro c hc
      exact isSpace_of_isBlank (List.mem_takeWhile_imp hc)
    · simpa using hall.2
    · exact hall.1
    · intro c hc
      exact isDigit_eq_false_of_isBlank (hblank c (List.mem_of_mem_head? hc))
    · rwa [h]
  · rw [if_neg hall] at h
    exact absurd h (by simp)

end ByteString
