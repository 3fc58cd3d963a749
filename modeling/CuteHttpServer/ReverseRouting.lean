/-
A path made from a route pattern and values for its placeholders is routed back
to that route, with the values as its path parameters.
-/
import CuteHttpServer.RouteMatching

namespace CuteHttpServer

open ByteString DelimitedText EcmaScript KeyedMap

namespace Router

theorem paramName_injective {i j : Nat} (h : paramName i = paramName j) : i = j := by
  have hdecimal : decimal i = decimal j := List.append_cancel_left h
  rw [← digitsValue_decimal i, hdecimal, digitsValue_decimal]

/-- Extraction changes nothing but the path parameters. -/
theorem extractPathParams_eq (i : Nat) (captures : List (Option Bytes))
    (request : HttpRequest) :
    extractPathParams i captures request =
      { request with pathParams := (extractPathParams i captures request).pathParams } := by
  induction captures generalizing i request with
  | nil => rfl
  | cons capture captures ih => exact ih (i + 1) _

theorem getPathParams_setPathParams (request : HttpRequest) (key value k : Bytes) :
    (request.setPathParams key value).getPathParams k =
      if k = key then value else request.getPathParams k := by
  rw [HttpRequest.getPathParams, HttpRequest.setPathParams, lookup_assign]
  split
  · rfl
  · rfl

theorem getPathParams_extract_of_ne {i : Nat} {captures : List (Option Bytes)}
    {request : HttpRequest} {key : Bytes}
    (h : ∀ n < captures.length, key ≠ paramName (i + n)) :
    (extractPathParams i captures request).getPathParams key = request.getPathParams key := by
  induction captures generalizing i request with
  | nil => rfl
  | cons capture captures ih =>
      rw [extractPathParams, ih, getPathParams_setPathParams, if_neg]
      · exact h 0 (Nat.succ_pos _)
      · intro n hn
        rw [Nat.add_assoc, Nat.add_comm 1 n]
        exact h (n + 1) (Nat.succ_lt_succ hn)

/-- Each group is found under its number. -/
theorem getPathParams_extract {i n : Nat} {captures : List (Option Bytes)}
    (hn : n < captures.length) (request : HttpRequest) :
    (extractPathParams i captures request).getPathParams (paramName (i + n)) =
      captures[n].getD [] := by
  induction captures generalizing i n request with
  | nil => exact absurd hn (Nat.not_lt_zero n)
  | cons capture captures ih =>
      rw [extractPathParams]
      cases n with
      | zero =>
          rw [getPathParams_extract_of_ne, getPathParams_setPathParams]
          · exact if_pos rfl
          · intro m _ heq
            have hindex := paramName_injective heq
            omega
      | succ n =>
          have hlater := ih (i := i + 1) (Nat.lt_of_succ_lt_succ hn)
            (request.setPathParams (paramName i) (capture.getD []))
          rw [Nat.add_assoc, Nat.add_comm 1 n] at hlater
          exact hlater

end Router

/-- One segment of a route pattern. -/
inductive Segment
  | literal (text : Bytes)
  | placeholder (name : Bytes)

namespace Segment

def text : Segment → Bytes
  | literal text => text
  | placeholder name => 58 :: name

def WellFormed : Segment → Prop
  | literal text =>
      text ≠ [] ∧ 47 ∉ text ∧ text.head? ≠ some 58 ∧ ∀ c ∈ text, isPlain c = true
  | placeholder name => name ≠ [] ∧ 47 ∉ name

instance (segment : Segment) : Decidable segment.WellFormed :=
  match segment with
  | literal text => inferInstanceAs (Decidable (text ≠ [] ∧ _ ∧ _ ∧ ∀ c ∈ text, _))
  | placeholder name => inferInstanceAs (Decidable (name ≠ [] ∧ _))

/-- Segments joined into a pattern. -/
def pattern (segments : List Segment) : Bytes :=
  segments.flatMap fun segment => 47 :: segment.text

def placeholderCount : List Segment → Nat
  | [] => 0
  | literal _ :: segments => placeholderCount segments
  | placeholder _ :: segments => placeholderCount segments + 1

/-- The segments of a path, with values put in the placeholders. -/
def fill : List Segment → List Bytes → List Bytes
  | [], _ => []
  | literal text :: segments, values => text :: fill segments values
  | placeholder _ :: segments, value :: values => value :: fill segments values
  | placeholder _ :: segments, [] => [] :: fill segments []

def path (segments : List Segment) (values : List Bytes) : Bytes :=
  (fill segments values).flatMap (47 :: ·)

theorem isPlaceholder_literal {text : Bytes} (h : (literal text).WellFormed) :
    isPlaceholder text = false := by
  simp [isPlaceholder, h.2.2.1]

theorem isPlaceholder_placeholder {name : Bytes} (h : (placeholder name).WellFormed) :
    isPlaceholder (58 :: name) = true :=
  isPlaceholder_iff.mpr ⟨name, rfl, h.1⟩

/-- Filled segments fit, and show the values where the placeholders are. -/
theorem fill_fits {segments : List Segment} {values : List Bytes}
    (hsegments : ∀ segment ∈ segments, segment.WellFormed)
    (hcount : values.length = placeholderCount segments)
    (hvalues : ∀ value ∈ values, value ≠ [] ∧ 47 ∉ value) :
    List.Forall₂ SegmentFits (segments.map text) (fill segments values) ∧
      (∀ word ∈ fill segments values, 47 ∉ word) ∧
      placed (segments.map text) (fill segments values) = values := by
  induction segments generalizing values with
  | nil =>
      have hnil : values = [] := List.length_eq_zero_iff.mp hcount
      rw [hnil]
      exact ⟨.nil, by simp [fill], rfl⟩
  | cons segment segments ih =>
      obtain ⟨hsegment, hlater⟩ := List.forall_mem_cons.mp hsegments
      cases segment with
      | literal text =>
          have hplaceholder := isPlaceholder_literal hsegment
          obtain ⟨hfits, hfree, hplaced⟩ := ih hlater hcount hvalues
          refine ⟨.cons ?_ hfits, List.forall_mem_cons.mpr ⟨hsegment.2.1, hfree⟩, ?_⟩
          · simp [SegmentFits, hplaceholder, Segment.text]
          · rw [List.map_cons, fill, placed_cons, hplaced, Segment.text]
            simp [placed, hplaceholder]
      | placeholder name =>
          have hplaceholder := isPlaceholder_placeholder hsegment
          cases values with
          | nil => exact absurd hcount (Nat.succ_ne_zero _).symm
          | cons value values =>
              obtain ⟨hvalue, hvalues⟩ := List.forall_mem_cons.mp hvalues
              obtain ⟨hfits, hfree, hplaced⟩ := ih hlater (Nat.succ.inj hcount) hvalues
              refine ⟨.cons ?_ hfits, List.forall_mem_cons.mpr ⟨hvalue.2, hfree⟩, ?_⟩
              · simpa [SegmentFits, Segment.text, hplaceholder] using hvalue.1
              · rw [List.map_cons, fill, placed_cons, hplaced, Segment.text]
                simp [placed, hplaceholder]

theorem not_mem_text {segment : Segment} (h : segment.WellFormed) : 47 ∉ segment.text := by
  cases segment with
  | literal text => exact h.2.1
  | placeholder name => simpa [Segment.text] using h.2

theorem splitOn_pattern {segments : List Segment}
    (h : ∀ segment ∈ segments, segment.WellFormed) :
    (pattern segments).splitOn 47 = [] :: segments.map text := by
  have hjoined : pattern segments = [] ++ (segments.map text).flatMap (47 :: ·) := by
    rw [List.flatMap_map]
    rfl
  rw [hjoined]
  apply splitOn_append_flatMap List.not_mem_nil
  intro s hs
  obtain ⟨segment, hsegment, rfl⟩ := List.mem_map.mp hs
  exact not_mem_text (h segment hsegment)

theorem isPlainPattern_pattern {segments : List Segment}
    (h : ∀ segment ∈ segments, segment.WellFormed) : IsPlainPattern (pattern segments) := by
  rw [isPlainPattern_iff (splitOn_pattern h)]
  refine ⟨by simp, ?_⟩
  intro s hs hplaceholder
  obtain ⟨segment, hsegment, rfl⟩ := List.mem_map.mp hs
  cases segment with
  | literal text => exact (h _ hsegment).2.2.2
  | placeholder name =>
      rw [Segment.text, isPlaceholder_placeholder (h _ hsegment)] at hplaceholder
      exact absurd hplaceholder (by decide)

end Segment

namespace Router

open Segment Registration

variable {H : Type}

/-- The path that a pattern and its values make is routed to the handler of the
pattern, and the handler finds the values under their numbers. -/
theorem route_reverse {table : RouteTable} (htable : table.isDynamic = true)
    {segments : List Segment} (hsegments : ∀ segment ∈ segments, segment.WellFormed)
    {values : List Bytes} (hcount : values.length = placeholderCount segments)
    (hvalues : ∀ value ∈ values, value ≠ [] ∧ 47 ∉ value)
    {request : HttpRequest} (hpath : request.getPath = path segments values) (handler : H) :
    ∃ request' : HttpRequest,
      (∀ {m : Type → Type} [Monad m] (call : H → HttpRequest → m Unit),
        (ofRegistrations [⟨table, request.getMethod, pattern segments, handler⟩]).route
            call request =
          do
            call handler request'
            pure true) ∧
        (∀ (n : Nat) (hn : n < values.length),
          request'.getPathParams (paramName (n + 1)) = values[n]) ∧
        (∀ key, (∀ n < values.length, key ≠ paramName (n + 1)) →
          request'.getPathParams key = request.getPathParams key) ∧
        request' = { request with pathParams := request'.pathParams } := by
  obtain ⟨hfits, hfree, hplaced⟩ := fill_fits hsegments hcount hvalues
  let registration : Registration H :=
    ⟨table, request.getMethod, pattern segments, handler⟩
  have hsplit : request.getPath.splitOn 47 = [] :: fill segments values := by
    rw [hpath]
    exact splitOn_append_flatMap List.not_mem_nil hfree
  have hcaptures : registration.captures request = some (values.map some) :=
    (captures_eq_some_iff (isPlainPattern_pattern hsegments) (splitOn_pattern hsegments)).mpr
      ⟨_, hsplit, hfits, by rw [hplaced]⟩
  have haccepts : registration.accepts request = true := by
    simp [accepts, registration, htable, hcaptures]
  have hrequest : registration.requestFor request =
      extractPathParams 1 (values.map some) request := by
    rw [requestFor, if_pos htable, hcaptures]
  refine ⟨extractPathParams 1 (values.map some) request, ?_, ?_, ?_,
    extractPathParams_eq _ _ _⟩
  · intro m _ call
    rw [route_ofRegistrations, chosen_singleton haccepts, invoke, hrequest]
  · intro n hn
    rw [Nat.add_comm n 1, getPathParams_extract (by simpa using hn)]
    simp
  · intro key hkey
    apply getPathParams_extract_of_ne
    intro n hn
    rw [Nat.add_comm 1 n]
    exact hkey n (by simpa using hn)

/-- Two adjacent placeholders, and values that look like patterns. -/
def userFile : List Segment :=
  [.literal (ascii "users"), .placeholder (ascii "id"), .placeholder (ascii "a.b"),
    .literal (ascii "raw")]

theorem route_reverse_userFile :
    let request := { HttpRequest.new 0 with path := ascii "/users/:x/(.*)/raw" }
    ∃ request' : HttpRequest,
      (∀ {m : Type → Type} [Monad m] (call : Nat → HttpRequest → m Unit),
        (ofRegistrations [⟨.regexCallbacks, .kInvalid, pattern userFile, 7⟩]).route
            call request =
          do
            call 7 request'
            pure true) ∧
        (∀ (n : Nat) (hn : n < [ascii ":x", ascii "(.*)"].length),
          request'.getPathParams (paramName (n + 1)) = [ascii ":x", ascii "(.*)"][n]) ∧
        (∀ key, (∀ n < [ascii ":x", ascii "(.*)"].length, key ≠ paramName (n + 1)) →
          request'.getPathParams key = request.getPathParams key) ∧
        request' = { request with pathParams := request'.pathParams } := by
  intro request
  have hsegments : ∀ segment ∈ userFile, segment.WellFormed := by decide +kernel
  have hcount : [ascii ":x", ascii "(.*)"].length = placeholderCount userFile := rfl
  have hvalues : ∀ value ∈ [ascii ":x", ascii "(.*)"], value ≠ [] ∧ 47 ∉ value := by
    decide +kernel
  have hpath : request.getPath = path userFile [ascii ":x", ascii "(.*)"] := by
    decide +kernel
  exact route_reverse rfl hsegments hcount hvalues hpath 7

end Router

end CuteHttpServer
