/-
Query strings of any shape: what the parser stores for each key, against a
plain reading of the target.
-/
import CuteHttpServer.RequestLineForm

namespace CuteHttpServer

open ByteString DelimitedText KeyedMap

/-- The pieces of a target behind its first `?`. -/
def queryPieces (target : Bytes) : List Bytes :=
  ((target.dropWhile (· ≠ 63)).tail).splitOn 38

/-- A piece whose text before its first `=` is the key. -/
def names (key piece : Bytes) : Bool := 61 ∈ piece && piece.takeWhile (· ≠ 61) = key

theorem names_iff (key piece : Bytes) :
    names key piece = true ↔ 61 ∈ piece ∧ piece.takeWhile (· ≠ 61) = key := by
  rw [names, Bool.and_eq_true, decide_eq_true_eq, decide_eq_true_eq]

/-- The text behind the first `=` of the last piece that names the key, empty if
there is none. -/
def lastNamed (key : Bytes) (texts : List Bytes) : Bytes :=
  match texts.reverse.find? (names key) with
  | some piece => (piece.dropWhile (· ≠ 61)).tail
  | none => []

/-- An empty piece at the end names nothing. -/
theorem lastNamed_append_nil (key : Bytes) (texts : List Bytes) :
    lastNamed key (texts ++ [[]]) = lastNamed key texts := by
  have hempty : ¬ names key [] = true := by simp [names_iff]
  rw [lastNamed, List.reverse_append, List.reverse_singleton, List.singleton_append,
    List.find?_cons_of_neg hempty]
  rfl

theorem queryPair_eq (piece : Bytes) :
    queryPair piece =
      if 61 ∈ piece then
        some (piece.takeWhile (· ≠ 61), (piece.dropWhile (· ≠ 61)).tail)
      else none := by
  by_cases hequals : 61 ∈ piece
  · rw [if_pos hequals]
    obtain ⟨key, value, rfl, hkey⟩ := List.eq_append_cons_of_mem hequals
    rw [takeWhile_ne hkey, dropWhile_ne_append_cons hkey, queryPair, idxOf?_append_cons hkey]
    simp only [List.take_left, drop_append_cons, List.tail_cons]
  · have hnone : piece.idxOf? 61 = none := List.idxOf?_eq_none_iff.mpr hequals
    rw [if_neg hequals, queryPair, hnone]

theorem splitTarget_eq (target : Bytes) :
    splitTarget target =
      (target.takeWhile (· ≠ 63), pieces 38 (target.dropWhile (· ≠ 63)).tail) := by
  by_cases hmark : 63 ∈ target
  · obtain ⟨path, query, rfl, hpath⟩ := List.eq_append_cons_of_mem hmark
    rw [takeWhile_ne hpath, dropWhile_ne_append_cons hpath, splitTarget,
      idxOf?_append_cons hpath]
    simp only [List.take_left, drop_append_cons, List.tail_cons]
  · have hnone : target.idxOf? 63 = none := List.idxOf?_eq_none_iff.mpr hmark
    rw [takeWhile_ne_self hmark, dropWhile_ne_of_not_mem hmark, splitTarget, hnone]
    rfl

/-- The first pair with a key comes from the first piece that names it. -/
theorem fieldValue_queryPairs (key : Bytes) (texts : List Bytes) :
    fieldValue (texts.filterMap queryPair) key =
      (texts.find? (names key)).map
        fun piece => (piece.dropWhile (· ≠ 61)).tail := by
  induction texts with
  | nil => rfl
  | cons piece texts ih =>
      by_cases hequals : 61 ∈ piece
      · have hpair := queryPair_eq piece
        rw [if_pos hequals] at hpair
        rw [List.filterMap_cons_some hpair, fieldValue_cons, ih]
        by_cases hkey : piece.takeWhile (· ≠ 61) = key
        · have hnames := (names_iff key piece).mpr ⟨hequals, hkey⟩
          rw [List.find?_cons_of_pos hnames, if_pos hkey.symm]
          rfl
        · have hnames : ¬ names key piece = true :=
            fun hnames => hkey ((names_iff key piece).mp hnames).2
          rw [List.find?_cons_of_neg hnames, if_neg (Ne.symm hkey), Option.none_or]
      · have hpair := queryPair_eq piece
        rw [if_neg hequals] at hpair
        have hnames : ¬ names key piece = true :=
          fun hnames => hequals ((names_iff key piece).mp hnames).1
        rw [List.filterMap_cons_none hpair, ih, List.find?_cons_of_neg hnames]

namespace HttpRequest

/-- The pieces of `getline` give what those of a plain split give. -/
theorem getQueryParams_readRequestLine (request : HttpRequest)
    (hnone : request.queryParams = ∅) (line key : Bytes) :
    (request.readRequestLine line).getQueryParams key =
      lastNamed key (queryPieces (requestTokens line).2.1) := by
  have hpieces : lastNamed key (queryPieces (requestTokens line).2.1) =
      lastNamed key (splitTarget (requestTokens line).2.1).2 := by
    rw [splitTarget_eq, queryPieces]
    rcases splitOn_eq_pieces 38 ((requestTokens line).2.1.dropWhile (· ≠ 63)).tail with
      hsplit | hsplit
    · rw [hsplit]
    · rw [hsplit, lastNamed_append_nil]
  rw [hpieces, getQueryParams, readRequestLine, hnone, lookup_assignAll, AList.lookup_empty,
    Option.or_none, ← List.filterMap_reverse, fieldValue_queryPairs, lastNamed]
  cases (splitTarget (requestTokens line).2.1).2.reverse.find? _ with
  | none => rfl
  | some piece => rfl

end HttpRequest

namespace HttpContext

/-- After a request line on a new context, the path is the target up to its
first `?`, and each key has the value of the last piece that names it. -/
theorem parseRequestLine_query {line method target version : Bytes} {others : List Bytes}
    (hwords : words line = method :: target :: version :: others) (indeterminate : UInt64) :
    let parsed := (new indeterminate).parseRequestLine line
    parsed.1 = true ∧
      parsed.2.getRequest.getPath = target.takeWhile (· ≠ 63) ∧
      ∀ key, parsed.2.getRequest.getQueryParams key = lastNamed key (queryPieces target) := by
  obtain ⟨htokens, haccepts⟩ := requestTokens_of_words hwords
  rw [parseRequestLine_eq, if_pos haccepts]
  refine ⟨rfl, ?_, ?_⟩
  · rw [getRequest, HttpRequest.getPath, HttpRequest.readRequestLine, htokens, splitTarget_eq]
  · intro key
    have hempty : (HttpRequest.new indeterminate).queryParams = ∅ := rfl
    rw [getRequest, new, HttpRequest.getQueryParams_readRequestLine _ hempty, htokens]

/-- A target with empty pieces, a piece without `=`, two `=` and two `?`. -/
theorem parseRequestLine_query_malformed :
    let parsed := (new 0).parseRequestLine (ascii "GET /a?&b&k=1&k=x=y?&& HTTP/1.1")
    parsed.2.getRequest.getQueryParams (ascii "k") = ascii "x=y?" := by
  have hwords : words (ascii "GET /a?&b&k=1&k=x=y?&& HTTP/1.1") =
      [ascii "GET", ascii "/a?&b&k=1&k=x=y?&&", ascii "HTTP/1.1"] := by decide +kernel
  refine ((parseRequestLine_query hwords 0).2.2 (ascii "k")).trans ?_
  decide +kernel

end HttpContext

end CuteHttpServer
