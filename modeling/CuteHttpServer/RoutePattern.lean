/-
What `ConvertToRegex` makes of a path pattern: the text that replaces the
placeholders, and the expression that this text compiles to.
-/
import CuteHttpServer.Router
import CuteHttpServer.Spelling

namespace CuteHttpServer

open Backtracking ByteString DelimitedText EcmaScript

/-- A piece of the expression of a route: a symbol of the pattern, one with a
star or a plus after it, or the group of a placeholder. -/
inductive Item
  | one (c : Byte)
  | many (c : Byte) (plus : Bool)
  | param

namespace Item

def text : Item → Bytes
  | one c => [c]
  | many c plus => [c, if plus then 43 else 42]
  | param => ascii "([^/]+)"

/-- What a symbol of a pattern stands for. -/
def symbolTest (c : Byte) : Byte → Bool :=
  if c = 46 then isNotLineEnd else fun b => decide (b = c)

def notSlash (c : Byte) : Bool := decide (c ≠ 47)

def tokens : Item → List Token
  | one c => [.one (symbolTest c)]
  | many c plus => [.one (symbolTest c), .quantifier plus.toNat none true]
  | param => [.openCapture, .one notSlash, .quantifier 1 none true, .close]

def piece : Item → Piece Byte
  | one c => .one (symbolTest c)
  | many c plus => .many (symbolTest c) plus
  | param => .captured notSlash

/-- A symbol that stands for itself, or the dot. -/
def isSymbol (c : Byte) : Bool := isPlain c || c = 46

def isSimple : Item → Bool
  | one c => isSymbol c
  | many c _ => isSymbol c
  | param => true

theorem scanToken_symbol {c : Byte} (h : isSymbol c = true) (rest : Bytes) :
    scanToken c rest = .ok (.one (symbolTest c), 0) := by
  by_cases hdot : c = 46
  · rw [hdot]
    rfl
  · have hplain : isPlain c = true := by simpa [isSymbol, hdot] using h
    rw [scanToken_of_isPlain hplain, symbolTest, if_neg hdot]

theorem scan_quantifier (plus : Bool) {rest : Bytes} (hrest : rest.head? ≠ some 63) :
    scan 0 ((if plus then 43 else 42) :: rest) =
      (scan 0 rest).map (.quantifier plus.toNat none true :: ·) := by
  apply scan_cons
  have htoken : scanToken (if plus then 43 else 42) rest =
      .ok (quantified plus.toNat none 0 rest) := by
    cases plus with
    | true => rfl
    | false => rfl
  rw [htoken, quantified, List.drop_zero, if_neg hrest]

/-- The test that the scanner makes of `[^/]`. -/
theorem bracket_eq_notSlash :
    (fun c => ([fun c => decide (c = (47 : Byte))].any fun test => test c) != true) =
      notSlash := by
  funext c
  simp [notSlash]

theorem scan_param (rest : Bytes) :
    scan 0 (ascii "([^/]+)" ++ rest) = (scan 0 rest).map (param.tokens ++ ·) := by
  have hopen : scanToken 40 (91 :: 94 :: 47 :: 93 :: 43 :: 41 :: rest) =
      .ok (.openCapture, 0) := rfl
  have hclass : scanToken 91 (94 :: 47 :: 93 :: 43 :: 41 :: rest) =
      .ok (.one notSlash, 3) := by
    rw [← bracket_eq_notSlash]
    rfl
  have hplus : scanToken 43 (41 :: rest) = .ok (.quantifier 1 none true, 0) := rfl
  have hclose : scanToken 41 rest = .ok (.close, 0) := rfl
  change scan 0 (40 :: 91 :: 94 :: 47 :: 93 :: 43 :: 41 :: rest) = _
  rw [scan_cons hopen, scan_cons hclass, scan_skip, scan_skip, scan_skip, scan_cons hplus,
    scan_cons hclose]
  cases scan 0 rest with
  | ok tokens => rfl
  | error e => rfl

/-- A piece of the text makes its own tokens, unless a question mark follows. -/
theorem scan_text {item : Item} (h : item.isSimple = true) {rest : Bytes}
    (hrest : rest.head? ≠ some 63) :
    scan 0 (item.text ++ rest) = (scan 0 rest).map (item.tokens ++ ·) := by
  cases item with
  | one c => exact scan_cons (scanToken_symbol h rest)
  | many c plus =>
      change scan 0 (c :: (if plus then 43 else 42) :: rest) = _
      rw [scan_cons (scanToken_symbol h _), scan_quantifier plus hrest]
      cases scan 0 rest with
      | ok tokens => rfl
      | error e => rfl
  | param => exact scan_param rest

/-- No piece begins with a question mark. -/
theorem head?_text (items : List Item) (h : ∀ item ∈ items, item.isSimple = true) :
    (items.flatMap text ++ [36]).head? ≠ some 63 := by
  have hsymbol : ∀ c, isSymbol c = true → some c ≠ some 63 := by
    intro c hc heq
    rw [Option.some.inj heq] at hc
    exact absurd hc (by decide +kernel)
  cases items with
  | nil => decide
  | cons item items =>
      have hitem := h item List.mem_cons_self
      cases item with
      | one c => exact hsymbol c hitem
      | many c plus => exact hsymbol c hitem
      | param => exact (by decide : some (40 : Byte) ≠ some 63)

theorem scan_items (items : List Item) (h : ∀ item ∈ items, item.isSimple = true) :
    scan 0 (items.flatMap text ++ [36]) = .ok (items.flatMap tokens ++ [.atEnd]) := by
  induction items with
  | nil => rfl
  | cons item items ih =>
      have hlater := fun other hother => h other (List.mem_cons_of_mem item hother)
      rw [List.flatMap_cons, List.append_assoc,
        scan_text (h item List.mem_cons_self) (head?_text items hlater), ih hlater,
        List.flatMap_cons, List.append_assoc]
      rfl

/-- The tokens of pieces add their expressions to the group under construction. -/
theorem foldlM_tokens (items : List Item) (parsing : Parsing) :
    ∃ quantifiable, (items.flatMap tokens).foldlM Parsing.step parsing = .ok
      { current := { parsing.current with
          terms := (Piece.regexes parsing.groups (items.map piece)).reverse ++
            parsing.current.terms
          quantifiable := quantifiable }
        outer := parsing.outer
        groups := parsing.groups + Piece.groupCount (items.map piece) } := by
  induction items generalizing parsing with
  | nil => exact ⟨parsing.current.quantifiable, rfl⟩
  | cons item items ih =>
      cases item with
      | one c =>
          obtain ⟨quantifiable, hlater⟩ :=
            ih (parsing.add (.one (symbolTest c)) true)
          refine ⟨quantifiable, ?_⟩
          rw [List.flatMap_cons, List.foldlM_append]
          refine Eq.trans hlater ?_
          simp [piece, Piece.regexes, Piece.groupCount, Parsing.add, Frame.add]
      | many c plus =>
          obtain ⟨quantifiable, hlater⟩ :=
            ih (parsing.add (.loop (.one (symbolTest c)) plus.toNat none true) false)
          refine ⟨quantifiable, ?_⟩
          rw [List.flatMap_cons, List.foldlM_append]
          refine Eq.trans hlater ?_
          simp [piece, Piece.regexes, Piece.groupCount, Parsing.add, Frame.add]
      | param =>
          obtain ⟨quantifiable, hlater⟩ :=
            ih { parsing.add (.group parsing.groups
              (concat [.loop (.one notSlash) 1 none true])) true with
              groups := parsing.groups + 1 }
          refine ⟨quantifiable, ?_⟩
          rw [List.flatMap_cons, List.foldlM_append]
          refine Eq.trans hlater ?_
          simp [piece, Piece.regexes, Piece.groupCount, Parsing.add, Frame.add, Nat.add_assoc,
            Nat.add_comm]

theorem all_backref_tokens (items : List Item) (groups : Nat) :
    (items.flatMap tokens).all (fun token =>
      match token with
      | .backref index => index < groups
      | _ => true) = true := by
  rw [List.all_flatMap, List.all_eq_true]
  intro item _
  cases item with
  | one c => rfl
  | many c plus => rfl
  | param => rfl

/-- The expression that simple pieces compile to. -/
theorem compile_items (items : List Item) (h : ∀ item ∈ items, item.isSimple = true) :
    compile (ascii "^" ++ items.flatMap text ++ ascii "$") =
      .ok ⟨Piece.anchored (items.map piece), Piece.groupCount (items.map piece)⟩ := by
  have hstart : scanToken 94 (items.flatMap text ++ [36]) = .ok (.atStart, 0) := rfl
  have hscan : scan 0 (ascii "^" ++ items.flatMap text ++ ascii "$") =
      .ok (Token.atStart :: (items.flatMap tokens ++ [Token.atEnd])) := by
    change scan 0 (94 :: (items.flatMap text ++ [36])) = _
    rw [scan_cons hstart, scan_items items h]
    rfl
  obtain ⟨quantifiable, hitems⟩ := foldlM_tokens items
    { current := { opened := .plain, terms := [.atStart] } }
  have hparse : (Token.atStart :: (items.flatMap tokens ++ [Token.atEnd])).foldlM
      Parsing.step { current := { opened := .plain } } = .ok
        { current := { opened := .plain
                       terms := Regex.atEnd ::
                        ((Piece.regexes 0 (items.map piece)).reverse ++ [Regex.atStart]) }
          groups := Piece.groupCount (items.map piece) } := by
    have hfirst : (Token.atStart :: (items.flatMap tokens ++ [Token.atEnd])).foldlM
        Parsing.step { current := { opened := .plain } } =
          (items.flatMap tokens ++ [Token.atEnd]).foldlM Parsing.step
            { current := { opened := .plain, terms := [.atStart] } } := rfl
    rw [hfirst, List.foldlM_append, hitems, Nat.zero_add]
    rfl
  have hbody : (Regex.atEnd ::
      ((Piece.regexes 0 (items.map piece)).reverse ++ [Regex.atStart])).reverse =
        Regex.atStart :: (Piece.regexes 0 (items.map piece) ++ [Regex.atEnd]) := by simp
  rw [compile, hscan]
  simp only [bind, Except.bind]
  rw [hparse]
  simp only [List.all_cons, List.all_append, List.all_nil, Bool.true_and, Bool.and_true,
    Frame.body, hbody]
  exact if_pos (all_backref_tokens items (Piece.groupCount (items.map piece)))

end Item

open Item

/-- A segment with a colon and a name. -/
def isPlaceholder (segment : Bytes) : Bool := segment.head? = some 58 && segment ≠ [58]

theorem isPlaceholder_iff {segment : Bytes} :
    isPlaceholder segment = true ↔ ∃ name, segment = 58 :: name ∧ name ≠ [] := by
  cases segment with
  | nil => simp [isPlaceholder]
  | cons c name =>
      simp only [isPlaceholder, List.head?_cons, Bool.and_eq_true, decide_eq_true_eq,
        Option.some.injEq, List.cons.injEq]
      constructor
      · rintro ⟨rfl, hne⟩
        exact ⟨name, ⟨rfl, rfl⟩, fun hnil => hne (by rw [hnil])⟩
      · rintro ⟨name, ⟨rfl, rfl⟩, hne⟩
        exact ⟨rfl, by simpa using hne⟩

/-- A segment that is no placeholder does not become one by what follows. -/
theorem eq_slash_of_append {segment rest tail : Bytes} {c : Byte}
    (h : isPlaceholder segment = false) (hrest : ∀ c ∈ rest.head?, c = 47)
    (happend : segment ++ rest = 58 :: c :: tail) : c = 47 := by
  cases segment with
  | nil =>
      exact absurd (hrest 58 (congrArg List.head? happend)) (by decide)
  | cons colon name =>
      obtain ⟨rfl, hlater⟩ := List.cons.inj happend
      cases name with
      | nil => exact hrest c (congrArg List.head? hlater)
      | cons d name => simp [isPlaceholder] at h

/-- The expression that the placeholders are searched with. -/
def placeholderRegex : Regex Byte :=
  concat (Piece.regexes 0 [.one (· = 47), .one (· = 58), .captured Item.notSlash])

theorem compile_placeholder :
    compile (ascii "/:([^/]+)") = .ok ⟨placeholderRegex, 1⟩ := by
  rw [placeholderRegex, ← Item.bracket_eq_notSlash]
  rfl

theorem results_placeholder_eq_nil {cursor : Cursor Byte}
    (h : ∀ c rest, cursor.rest = 47 :: 58 :: c :: rest → c = 47) :
    results placeholderRegex cursor = [] := by
  apply List.eq_nil_iff_forall_not_mem.mpr
  intro next hnext
  obtain ⟨first, hfirst, hnext⟩ := List.mem_flatMap.mp hnext
  obtain ⟨second, hsecond, hnext⟩ := List.mem_flatMap.mp hnext
  obtain ⟨third, hthird, _⟩ := List.mem_flatMap.mp hnext
  obtain ⟨slash, text, hrest, hslash, rfl⟩ := mem_results_one.mp hfirst
  obtain ⟨colon, text', hrest', hcolon, rfl⟩ := mem_results_one.mp hsecond
  obtain ⟨name, rest, hname, hfree, hne, _⟩ := mem_results_captured.mp hthird
  obtain ⟨c, name, rfl⟩ := List.exists_cons_of_ne_nil hne
  have hsymbol : notSlash c = true := hfree c List.mem_cons_self
  rw [Cursor.advance_rest, hrest', List.drop_one, List.tail_cons] at hname
  rw [Cursor.advance_rest, hrest, List.drop_one, List.tail_cons, hname] at hrest'
  have hslash : slash = 47 := by simpa using hslash
  have hcolon : colon = 58 := by simpa using hcolon
  have hc := h c (name ++ rest) (by rw [hrest, hrest', hslash, hcolon, List.cons_append])
  simp [notSlash, hc] at hsymbol

/-- The preferred match of a placeholder takes its whole segment. -/
theorem results_placeholder (cursor : Cursor Byte) {name rest : Bytes}
    (hcursor : cursor.rest = 47 :: 58 :: (name ++ rest)) (hne : name ≠ [])
    (hname : 47 ∉ name) (hrest : ∀ c ∈ rest.head?, c = 47) :
    ∃ next, (results placeholderRegex cursor).head? = some next ∧ next.rest = rest := by
  have hcolon : (cursor.advance 1).rest = 58 :: (name ++ rest) := by simp [hcursor]
  have htext : ((cursor.advance 1).advance 1).rest = name ++ rest := by
    rw [Cursor.advance_rest, hcolon, List.drop_one, List.tail_cons]
  have htaken : (name ++ rest).takeWhile notSlash = name := by
    have hfree : ∀ c ∈ name, notSlash c = true := by
      intro c hc
      simpa [notSlash] using fun heq : c = 47 => hname (heq ▸ hc)
    rw [List.takeWhile_append_of_pos hfree]
    cases rest with
    | nil => simp
    | cons c rest => simp [notSlash, hrest c rfl]
  obtain ⟨n, hn⟩ := Nat.exists_eq_succ_of_ne_zero
    (fun hzero => hne (List.length_eq_zero_iff.mp hzero))
  have hresults : results placeholderRegex cursor =
      results (.group 0 (concat [.loop (.one notSlash) 1 none true]))
        ((cursor.advance 1).advance 1) := by
    rw [placeholderRegex, Piece.regexes, Piece.regexes, Piece.regexes, Piece.regexes,
      results_concat_cons, results_one_accepted hcursor (by decide), List.flatMap_singleton,
      results_concat_cons, results_one_accepted hcolon (by decide), List.flatMap_singleton,
      results_concat_singleton]
  rw [hresults, results, results_concat_singleton, results_plus, htext, htaken, hn,
    List.range_succ, List.reverse_concat, List.map_cons, List.map_cons, List.head?_cons]
  refine ⟨_, rfl, ?_⟩
  change (((cursor.advance 1).advance 1).advance (n + 1)).rest = rest
  rw [Cursor.advance_rest, htext, ← Nat.succ_eq_add_one, ← hn, List.drop_left]

/-- Text without a slash is taken over. -/
theorem replaceFrom_text {s : Bytes} (hs : 47 ∉ s) (replacement rest : Bytes)
    (previous : Option Byte) :
    ∃ previous', replaceFrom placeholderRegex 1 replacement previous 0 (s ++ rest) =
      s ++ replaceFrom placeholderRegex 1 replacement previous' 0 rest := by
  induction s generalizing previous with
  | nil => exact ⟨previous, rfl⟩
  | cons c s ih =>
      have hc : c ≠ 47 := fun heq => hs (heq ▸ List.mem_cons_self)
      obtain ⟨previous', hlater⟩ :=
        ih (fun hmem => hs (List.mem_cons_of_mem c hmem)) (some c)
      refine ⟨previous', ?_⟩
      rw [List.cons_append, replaceFrom_unmatched, hlater, List.cons_append]
      apply results_placeholder_eq_nil
      intro d later hcursor
      exact absurd (List.cons.inj hcursor).1 hc

/-- Segment by segment, the placeholders are replaced. -/
theorem replaceFrom_segments {segments : List Bytes} (h : ∀ s ∈ segments, 47 ∉ s)
    (replacement : Bytes) (previous : Option Byte) :
    replaceFrom placeholderRegex 1 replacement previous 0 (segments.flatMap (47 :: ·)) =
      segments.flatMap fun s => if isPlaceholder s then replacement else 47 :: s := by
  induction segments generalizing previous with
  | nil =>
      apply replaceFrom_end
      apply results_placeholder_eq_nil
      intro c rest hcursor
      exact absurd hcursor.symm (List.cons_ne_nil _ _)
  | cons s segments ih =>
      have hs := h s List.mem_cons_self
      have hlater := fun previous => ih (fun t ht => h t (List.mem_cons_of_mem s ht)) previous
      have hnext : ∀ c ∈ (segments.flatMap (47 :: ·)).head?, c = 47 := by
        cases segments with
        | nil => simp
        | cons t segments => simp
      rw [List.flatMap_cons, List.flatMap_cons]
      by_cases hplaceholder : isPlaceholder s = true
      · obtain ⟨name, rfl, hne⟩ := isPlaceholder_iff.mp hplaceholder
        have hname : 47 ∉ name := fun hmem => hs (List.mem_cons_of_mem 58 hmem)
        obtain ⟨next, hhead, hend⟩ := results_placeholder
          ⟨previous, 47 :: (58 :: name ++ segments.flatMap (47 :: ·)), List.replicate 1 none⟩
          rfl hne hname hnext
        rw [if_pos hplaceholder, List.cons_append, replaceFrom_matched hend hhead, hlater]
      · rw [if_neg hplaceholder]
        obtain ⟨previous', htext⟩ := replaceFrom_text hs replacement
          (segments.flatMap (47 :: ·)) (some 47)
        rw [List.cons_append, replaceFrom_unmatched, htext, hlater, List.cons_append]
        apply results_placeholder_eq_nil
        intro c rest hcursor
        exact eq_slash_of_append (by simpa using hplaceholder) hnext (List.cons.inj hcursor).2

/-- The pieces of a text that is taken over. -/
def symbols : Bytes → List Item
  | c :: q :: rest =>
      if q = 42 then .many c false :: symbols rest
      else if q = 43 then .many c true :: symbols rest
      else .one c :: symbols (q :: rest)
  | [c] => [.one c]
  | [] => []

/-- The pieces of a segment, with the slash before it. -/
def segmentItems (segment : Bytes) : List Item :=
  if isPlaceholder segment then [.one 47, .param] else symbols (47 :: segment)

/-- The pieces of a path pattern.  Nothing stands before its first segment that
could make it a placeholder. -/
def patternItems (pathPattern : Bytes) : List Item :=
  match pathPattern.splitOn 47 with
  | first :: segments => symbols first ++ segments.flatMap segmentItems
  | [] => []

theorem flatMap_text_symbols (s : Bytes) : (symbols s).flatMap text = s := by
  induction s using symbols.induct with
  | case1 c rest ih => simp [symbols, text, ih]
  | case2 c rest h ih => simp [symbols, text, ih]
  | case3 c q rest hstar hplus ih => simp [symbols, text, hstar, hplus, ih]
  | case4 c => rfl
  | case5 => rfl

theorem flatMap_text_segmentItems (segment : Bytes) :
    (segmentItems segment).flatMap text =
      if isPlaceholder segment then ascii "/([^/]+)" else 47 :: segment := by
  rw [segmentItems]
  split
  · rfl
  · exact flatMap_text_symbols (47 :: segment)

theorem regexReplace_placeholders (pathPattern : Bytes) :
    replaceAll placeholderRegex 1 (ascii "/([^/]+)") pathPattern =
      (patternItems pathPattern).flatMap text := by
  obtain ⟨first, segments, hsplit, hpattern, hfirst, hsegments⟩ :=
    exists_splitOn 47 pathPattern
  obtain ⟨previous, htext⟩ := replaceFrom_text hfirst (ascii "/([^/]+)")
    (segments.flatMap (47 :: ·)) none
  have hreplaced := replaceFrom_segments hsegments (ascii "/([^/]+)") previous
  have hitems : (patternItems pathPattern).flatMap text = first ++
      segments.flatMap fun s => if isPlaceholder s then ascii "/([^/]+)" else 47 :: s := by
    rw [patternItems, hsplit]
    simp only [List.flatMap_append, flatMap_text_symbols, List.flatMap_assoc,
      flatMap_text_segmentItems]
  rw [hitems, ← hreplaced, ← htext, ← hpattern]
  rfl

/-- `ConvertToRegex` on a pattern of simple pieces. -/
theorem Router.convertToRegex_eq {pathPattern : Bytes}
    (h : ∀ item ∈ patternItems pathPattern, item.isSimple = true) :
    Router.convertToRegex pathPattern = .ok
      ⟨Piece.anchored ((patternItems pathPattern).map piece),
        Piece.groupCount ((patternItems pathPattern).map piece)⟩ := by
  rw [Router.convertToRegex, compile_placeholder, ← compile_items _ h,
    ← regexReplace_placeholders]
  rfl

end CuteHttpServer
