/-
Which paths a dynamic route takes, compared with what its pattern says.  They
are the same as long as the text that is taken over into the expression of the
route stands for itself there.
-/
import CuteHttpServer.RoutePattern
import CuteHttpServer.RouteResolution

namespace CuteHttpServer

open Backtracking ByteString DelimitedText EcmaScript Item

/-- A segment of a path is what a segment of a pattern asks for. -/
def SegmentFits (segment word : Bytes) : Prop :=
  if isPlaceholder segment then word ≠ [] else word = segment

instance (segment word : Bytes) : Decidable (SegmentFits segment word) :=
  inferInstanceAs (Decidable (if isPlaceholder segment then word ≠ [] else word = segment))

/-- Segment by segment, a path is what a pattern asks for. -/
def PatternFits (pathPattern path : Bytes) : Prop :=
  List.Forall₂ SegmentFits (pathPattern.splitOn 47) (path.splitOn 47)

instance (pathPattern path : Bytes) : Decidable (PatternFits pathPattern path) :=
  inferInstanceAs (Decidable (List.Forall₂ SegmentFits _ _))

/-- What the segments of a path hold where a pattern has placeholders. -/
def placed (segments words : List Bytes) : List Bytes :=
  (segments.zip words).filterMap fun pair =>
    if isPlaceholder pair.1 then some pair.2 else none

/-- The texts of a pattern that its expression takes over as they stand. -/
def takenOver (pathPattern : Bytes) : List Bytes :=
  match pathPattern.splitOn 47 with
  | first :: segments => first :: segments.filter fun segment => !isPlaceholder segment
  | [] => []

/-- All of them stand for themselves. -/
def IsPlainPattern (pathPattern : Bytes) : Prop :=
  ∀ text ∈ takenOver pathPattern, ∀ c ∈ text, isPlain c = true

instance (pathPattern : Bytes) : Decidable (IsPlainPattern pathPattern) :=
  inferInstanceAs (Decidable (∀ text ∈ _, ∀ c ∈ text, _))

theorem isPlain_ne {c : Byte} (h : isPlain c = true) : c ≠ 42 ∧ c ≠ 43 ∧ c ≠ 46 := by
  refine ⟨?_, ?_, ?_⟩ <;>
  · rintro rfl
    exact absurd h (by decide +kernel)

theorem symbols_of_isPlain {s : Bytes} (h : ∀ c ∈ s, isPlain c = true) :
    symbols s = s.map .one := by
  induction s using symbols.induct with
  | case1 c rest ih =>
      exact absurd rfl (isPlain_ne (h 42 (by simp))).1
  | case2 c rest hne ih =>
      exact absurd rfl (isPlain_ne (h 43 (by simp))).2.1
  | case3 c q rest hstar hplus ih =>
      have hlater := ih fun d hd => h d (List.mem_cons_of_mem c hd)
      rw [symbols, if_neg hstar, if_neg hplus, hlater]
      rfl
  | case4 c => rfl
  | case5 => rfl

theorem placed_cons (segment word : Bytes) (segments words : List Bytes) :
    placed (segment :: segments) (word :: words) =
      placed [segment] [word] ++ placed segments words := by
  cases hplaceholder : isPlaceholder segment with
  | true => simp [placed, hplaceholder]
  | false => simp [placed, hplaceholder]

/-- A symbol that stands for itself is spelled by itself only. -/
theorem spells_symbol {c : Byte} (hc : isPlain c = true) {pieces : List (Piece Byte)}
    {text : Bytes} {captures : List Bytes} :
    Spells ((Item.one c).piece :: pieces) text captures ↔
      ∃ text', text = c :: text' ∧ Spells pieces text' captures := by
  have htest : ∀ b, symbolTest c b = true ↔ b = c := by
    intro b
    rw [symbolTest, if_neg (isPlain_ne hc).2.2, decide_eq_true_iff]
  constructor
  · rintro (_ | ⟨hb, hrest⟩)
    rw [(htest _).mp hb]
    exact ⟨_, rfl, hrest⟩
  · rintro ⟨text', rfl, hrest⟩
    exact .one ((htest c).mpr rfl) hrest

theorem spells_symbols {s : Bytes} (hs : ∀ c ∈ s, isPlain c = true)
    {pieces : List (Piece Byte)} {text : Bytes} {captures : List Bytes} :
    Spells ((symbols s).map piece ++ pieces) text captures ↔
      ∃ text', text = s ++ text' ∧ Spells pieces text' captures := by
  rw [symbols_of_isPlain hs]
  induction s generalizing text with
  | nil => simp
  | cons c s ih =>
      have hlater := fun d hd => hs d (List.mem_cons_of_mem c hd)
      rw [List.map_cons, List.map_cons, List.cons_append,
        spells_symbol (hs c List.mem_cons_self)]
      constructor
      · rintro ⟨text', rfl, hspells⟩
        obtain ⟨text'', rfl, hrest⟩ := (ih hlater).mp hspells
        exact ⟨text'', rfl, hrest⟩
      · rintro ⟨text'', rfl, hrest⟩
        exact ⟨s ++ text'', rfl, (ih hlater).mpr ⟨text'', rfl, hrest⟩⟩

theorem notSlash_iff {word : Bytes} : (∀ c ∈ word, notSlash c = true) ↔ 47 ∉ word := by
  constructor
  · intro h hmem
    exact absurd (h 47 hmem) (by decide)
  · intro h c hc
    simpa [notSlash] using fun heq : c = 47 => h (heq ▸ hc)

/-- A segment after its slash is spelled by what fits it. -/
theorem spells_segmentItems {segment : Bytes} (hfree : 47 ∉ segment)
    (hplain : isPlaceholder segment = false → ∀ c ∈ segment, isPlain c = true)
    {pieces : List (Piece Byte)} {text : Bytes} {captures : List Bytes} :
    Spells ((segmentItems segment).map piece ++ pieces) text captures ↔
      ∃ word text' captures', text = 47 :: (word ++ text') ∧ 47 ∉ word ∧
        SegmentFits segment word ∧ captures = placed [segment] [word] ++ captures' ∧
        Spells pieces text' captures' := by
  have hslash : isPlain 47 = true := by decide +kernel
  cases hplaceholder : isPlaceholder segment with
  | true =>
      have hitems : segmentItems segment = [.one 47, .param] := if_pos hplaceholder
      rw [hitems, List.map_cons, List.cons_append, spells_symbol hslash]
      constructor
      · rintro ⟨text', rfl, hspells⟩
        rw [List.map_cons, List.map_nil, List.cons_append, List.nil_append] at hspells
        rcases hspells with _ | _ | _ | ⟨hword, hne, hrest⟩
        refine ⟨_, _, _, rfl, notSlash_iff.mp hword, ?_, ?_, hrest⟩
        · simpa [SegmentFits, hplaceholder] using hne
        · simp [placed, hplaceholder]
      · rintro ⟨word, text', captures', rfl, hword, hfits, rfl, hrest⟩
        refine ⟨word ++ text', rfl, ?_⟩
        have hplaced : placed [segment] [word] = [word] := by simp [placed, hplaceholder]
        rw [hplaced]
        refine .captured (notSlash_iff.mpr hword) ?_ hrest
        simpa [SegmentFits, hplaceholder] using hfits
  | false =>
      have hitems : segmentItems segment = symbols (47 :: segment) := by
        rw [segmentItems, hplaceholder]
        rfl
      have hsymbols : ∀ c ∈ 47 :: segment, isPlain c = true := by
        intro c hc
        rcases List.mem_cons.mp hc with rfl | hc
        · exact hslash
        · exact hplain hplaceholder c hc
      have hplaced : ∀ word, placed [segment] [word] = [] := by simp [placed, hplaceholder]
      rw [hitems, spells_symbols hsymbols]
      constructor
      · rintro ⟨text', rfl, hspells⟩
        refine ⟨segment, text', captures, rfl, hfree, ?_, ?_, hspells⟩
        · simp [SegmentFits, hplaceholder]
        · rw [hplaced, List.nil_append]
      · rintro ⟨word, text', captures', rfl, _, hfits, rfl, hrest⟩
        have hword : word = segment := by simpa [SegmentFits, hplaceholder] using hfits
        refine ⟨text', by rw [hword]; rfl, ?_⟩
        rw [hplaced, List.nil_append]
        exact hrest

/-- And so are all segments together. -/
theorem spells_segments {segments : List Bytes} (hfree : ∀ s ∈ segments, 47 ∉ s)
    (hplain : ∀ s ∈ segments, isPlaceholder s = false → ∀ c ∈ s, isPlain c = true)
    {text : Bytes} {captures : List Bytes} :
    Spells ((segments.flatMap segmentItems).map piece) text captures ↔
      ∃ words, List.Forall₂ SegmentFits segments words ∧ (∀ word ∈ words, 47 ∉ word) ∧
        text = words.flatMap (47 :: ·) ∧ captures = placed segments words := by
  induction segments generalizing text captures with
  | nil =>
      constructor
      · rintro ⟨⟩
        exact ⟨[], .nil, by simp, rfl, rfl⟩
      · rintro ⟨words, ⟨⟩, _, rfl, rfl⟩
        exact .nil
  | cons segment segments ih =>
      have ih' := @ih (fun s hs => hfree s (List.mem_cons_of_mem segment hs))
        (fun s hs => hplain s (List.mem_cons_of_mem segment hs))
      rw [List.flatMap_cons, List.map_append,
        spells_segmentItems (hfree segment List.mem_cons_self)
          (hplain segment List.mem_cons_self)]
      constructor
      · rintro ⟨word, text', captures', rfl, hword, hfits, rfl, hspells⟩
        obtain ⟨words, hall, hwords, rfl, rfl⟩ := ih'.mp hspells
        refine ⟨word :: words, .cons hfits hall, ?_, rfl, ?_⟩
        · exact List.forall_mem_cons.mpr ⟨hword, hwords⟩
        · exact (placed_cons segment word segments words).symm
      · rintro ⟨words, hall, hwords, rfl, rfl⟩
        cases hall with
        | @cons _ word _ words hfits hall =>
            obtain ⟨hword, hwords⟩ := List.forall_mem_cons.mp hwords
            exact ⟨word, words.flatMap (47 :: ·), placed segments words, rfl, hword, hfits,
              placed_cons segment word segments words,
              ih'.mpr ⟨words, hall, hwords, rfl, rfl⟩⟩

theorem patternItems_eq {pathPattern first : Bytes} {segments : List Bytes}
    (hsplit : pathPattern.splitOn 47 = first :: segments) :
    patternItems pathPattern = symbols first ++ segments.flatMap segmentItems := by
  rw [patternItems, hsplit]

theorem isPlainPattern_iff {pathPattern first : Bytes} {segments : List Bytes}
    (hsplit : pathPattern.splitOn 47 = first :: segments) :
    IsPlainPattern pathPattern ↔ (∀ c ∈ first, isPlain c = true) ∧
      ∀ s ∈ segments, isPlaceholder s = false → ∀ c ∈ s, isPlain c = true := by
  rw [IsPlainPattern, takenOver, hsplit]
  simp only [List.forall_mem_cons, List.mem_filter, Bool.not_eq_true', and_imp]

/-- A plain pattern consists of simple pieces. -/
theorem isSimple_of_isPlainPattern {pathPattern : Bytes} (h : IsPlainPattern pathPattern) :
    ∀ item ∈ patternItems pathPattern, item.isSimple = true := by
  have hsymbols : ∀ {s : Bytes}, (∀ c ∈ s, isPlain c = true) →
      ∀ item ∈ symbols s, item.isSimple = true := by
    intro s hs item hitem
    rw [symbols_of_isPlain hs] at hitem
    obtain ⟨c, hc, rfl⟩ := List.mem_map.mp hitem
    simp [isSimple, isSymbol, hs c hc]
  obtain ⟨first, segments, hsplit, _, _, _⟩ := exists_splitOn 47 pathPattern
  obtain ⟨hfirst, hsegments⟩ := (isPlainPattern_iff hsplit).mp h
  intro item hitem
  rw [patternItems_eq hsplit, List.mem_append, List.mem_flatMap] at hitem
  rcases hitem with hitem | ⟨segment, hsegment, hitem⟩
  · exact hsymbols hfirst item hitem
  · cases hplaceholder : isPlaceholder segment with
    | true =>
        rw [segmentItems, if_pos hplaceholder, List.mem_cons, List.mem_singleton] at hitem
        rcases hitem with rfl | rfl
        · decide +kernel
        · rfl
    | false =>
        rw [segmentItems, if_neg (by simp [hplaceholder])] at hitem
        refine hsymbols ?_ item hitem
        exact List.forall_mem_cons.mpr
          ⟨by decide +kernel, hsegments segment hsegment hplaceholder⟩

/-- The matches of a plain pattern, and what they capture. -/
theorem spells_patternItems {pathPattern first : Bytes} {segments : List Bytes}
    (hsplit : pathPattern.splitOn 47 = first :: segments) (h : IsPlainPattern pathPattern)
    {path : Bytes} {captures : List Bytes} :
    Spells ((patternItems pathPattern).map piece) path captures ↔
      ∃ words, path.splitOn 47 = first :: words ∧ List.Forall₂ SegmentFits segments words ∧
        captures = placed segments words := by
  have hfree : ∀ s ∈ first :: segments, 47 ∉ s := by
    intro s hs
    exact not_mem_of_mem_splitOn (hsplit ▸ hs)
  have hfirstFree := hfree first List.mem_cons_self
  have hsegmentsFree := fun s hs => hfree s (List.mem_cons_of_mem first hs)
  obtain ⟨hfirst, hsegments⟩ := (isPlainPattern_iff hsplit).mp h
  rw [patternItems_eq hsplit, List.map_append, spells_symbols hfirst]
  constructor
  · rintro ⟨path', rfl, hspells⟩
    obtain ⟨words, hall, hwords, rfl, rfl⟩ :=
      (spells_segments hsegmentsFree hsegments).mp hspells
    exact ⟨words, splitOn_append_flatMap hfirstFree hwords, hall, rfl⟩
  · rintro ⟨words, hpath, hall, rfl⟩
    obtain ⟨first', words', hpath', hjoined, _, hwords⟩ := exists_splitOn 47 path
    obtain ⟨rfl, rfl⟩ := List.cons.inj (hpath.symm.trans hpath')
    exact ⟨words.flatMap (47 :: ·), hjoined,
      (spells_segments hsegmentsFree hsegments).mpr ⟨words, hall, hwords, rfl, rfl⟩⟩

namespace Registration

variable {H : Type}

theorem captures_eq {registration : Registration H}
    (h : ∀ item ∈ patternItems registration.path, item.isSimple = true)
    (request : HttpRequest) :
    registration.captures request =
      fullMatch (Piece.anchored ((patternItems registration.path).map piece))
        (Piece.groupCount ((patternItems registration.path).map piece)) request.getPath := by
  rw [captures, Router.convertToRegex_eq h]
  rfl

/-- A dynamic route with a plain pattern takes the paths that fit it, and
captures what these hold in place of the placeholders. -/
theorem captures_eq_some_iff {registration : Registration H}
    (h : IsPlainPattern registration.path) {first : Bytes} {segments : List Bytes}
    (hsplit : registration.path.splitOn 47 = first :: segments) {request : HttpRequest}
    {captured : List (Option Bytes)} :
    registration.captures request = some captured ↔
      ∃ words, request.getPath.splitOn 47 = first :: words ∧
        List.Forall₂ SegmentFits segments words ∧
        captured = (placed segments words).map some := by
  rw [captures_eq (isSimple_of_isPlainPattern h)]
  have hsound : ∀ {captured : List (Option Bytes)},
      fullMatch (Piece.anchored ((patternItems registration.path).map piece))
        (Piece.groupCount ((patternItems registration.path).map piece)) request.getPath =
          some captured →
        ∃ words, request.getPath.splitOn 47 = first :: words ∧
          List.Forall₂ SegmentFits segments words ∧
          captured = (placed segments words).map some := by
    intro captured hmatch
    obtain ⟨captures, hspells, rfl⟩ := spells_of_fullMatch hmatch
    obtain ⟨words, hpath, hall, rfl⟩ := (spells_patternItems hsplit h).mp hspells
    exact ⟨words, hpath, hall, rfl⟩
  constructor
  · exact hsound
  · rintro ⟨words, hpath, hall, rfl⟩
    have hspells := (spells_patternItems hsplit h).mpr ⟨words, hpath, hall, rfl⟩
    obtain ⟨captured, hmatch⟩ := Option.isSome_iff_exists.mp (fullMatch_of_spells hspells)
    obtain ⟨words', hpath', _, rfl⟩ := hsound hmatch
    obtain ⟨_, rfl⟩ := List.cons.inj (hpath.symm.trans hpath')
    exact hmatch

theorem patternFits_of_captures {registration : Registration H}
    (h : IsPlainPattern registration.path) {request : HttpRequest}
    (hcaptures : (registration.captures request).isSome = true) :
    PatternFits registration.path request.getPath := by
  obtain ⟨first, segments, hsplit, _, _, _⟩ := exists_splitOn 47 registration.path
  obtain ⟨captured, hcaptured⟩ := Option.isSome_iff_exists.mp hcaptures
  obtain ⟨words, hpath, hall, _⟩ := (captures_eq_some_iff h hsplit).mp hcaptured
  rw [PatternFits, hsplit, hpath]
  refine .cons ?_ hall
  rw [SegmentFits]
  split
  · rename_i hplaceholder
    obtain ⟨name, rfl, _⟩ := isPlaceholder_iff.mp hplaceholder
    exact List.cons_ne_nil 58 name
  · rfl

/-- `Route` invokes the handler of one of the registrations, or of none. -/
def RoutesTo (registrations : List (Registration H)) (request : HttpRequest)
    (found : Option (Registration H)) : Prop :=
  (∀ registration ∈ found, registration ∈ registrations) ∧
    ∀ {m : Type → Type} [Monad m] (call : H → HttpRequest → m Unit),
      (Router.ofRegistrations registrations).route call request =
        Router.invoke call request found (pure false)

theorem routesTo_chosen (registrations : List (Registration H)) (request : HttpRequest) :
    RoutesTo registrations request (chosen registrations request) :=
  ⟨fun _ h => (of_chosen h).1,
    fun call => Router.route_ofRegistrations call registrations request⟩

/-- Whatever the request, `Route` invokes the route that is chosen for it, and if
that is a dynamic one, it has the method of the request and its pattern fits the
path. -/
def FitWhenInvoked (registrations : List (Registration H)) : Prop :=
  ∀ request : HttpRequest, RoutesTo registrations request (chosen registrations request) ∧
    ∀ registration ∈ chosen registrations request, registration.table.isDynamic = true →
      registration.method = request.getMethod ∧
        PatternFits registration.path request.getPath

theorem fitWhenInvoked_of_isPlain {registrations : List (Registration H)}
    (h : ∀ registration ∈ registrations, registration.table.isDynamic = true →
      IsPlainPattern registration.path) : FitWhenInvoked registrations := by
  intro request
  refine ⟨routesTo_chosen registrations request, ?_⟩
  intro registration hchosen hdynamic
  obtain ⟨hmem, haccepts⟩ := of_chosen hchosen
  simp only [accepts, hdynamic, if_true, Bool.and_eq_true, decide_eq_true_eq] at haccepts
  exact ⟨haccepts.1, patternFits_of_captures (h registration hmem hdynamic) haccepts.2⟩

end Registration

end CuteHttpServer
