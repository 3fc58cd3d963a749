/-
Patterns in which a dot, a star or a plus is taken over: the expression of such
a route takes a path that does not fit the pattern.
-/
import CuteHttpServer.RouteMatching

namespace CuteHttpServer

open Backtracking ByteString DelimitedText EcmaScript Item

namespace Item

/-- A symbol that a piece takes: a slash for a dot, and one round of a loop. -/
def sample : Item → Byte
  | one c => if c = 46 then 47 else c
  | many c _ => if c = 46 then 47 else c
  | param => 120

theorem symbolTest_sample (c : Byte) : symbolTest c (if c = 46 then 47 else c) = true := by
  by_cases hdot : c = 46
  · rw [symbolTest, if_pos hdot, if_pos hdot]
    decide
  · rw [symbolTest, if_neg hdot, if_neg hdot]
    exact decide_eq_true rfl

theorem spells_sample (items : List Item) :
    ∃ captures, Spells (items.map piece) (items.map sample) captures := by
  induction items with
  | nil => exact ⟨[], .nil⟩
  | cons item items ih =>
      obtain ⟨captures, hspells⟩ := ih
      cases item with
      | one c => exact ⟨captures, .one (symbolTest_sample c) hspells⟩
      | many c plus =>
          have hword : ∀ b ∈ [sample (.many c plus)], symbolTest c b = true :=
            List.forall_mem_singleton.mpr (symbolTest_sample c)
          exact ⟨captures, .many hword (fun _ => List.cons_ne_nil _ _) hspells⟩
      | param =>
          have hword : ∀ b ∈ [sample .param], notSlash b = true :=
            List.forall_mem_singleton.mpr (by decide)
          exact ⟨_, .captured hword (List.cons_ne_nil _ _) hspells⟩

end Item

theorem count_sample (c : Byte) (text text' : Bytes) (h : text.count 47 ≤ text'.count 47) :
    (c :: text).count 47 ≤ ((if c = 46 then 47 else c) :: text').count 47 := by
  by_cases hdot : c = 46
  · simp [hdot]
    omega
  · simpa [hdot, List.count_cons] using h

/-- The sample of a text is not longer, and has all of its slashes. -/
theorem sample_symbols (text : Bytes) :
    (symbols text).length ≤ text.length ∧
      text.count 47 ≤ ((symbols text).map sample).count 47 := by
  induction text using symbols.induct with
  | case1 c rest ih =>
      refine ⟨by simp [symbols]; omega, ?_⟩
      exact count_sample c (42 :: rest) _ (by simpa using ih.2)
  | case2 c rest hne ih =>
      refine ⟨by simp [symbols]; omega, ?_⟩
      exact count_sample c (43 :: rest) _ (by simpa using ih.2)
  | case3 c q rest hstar hplus ih =>
      rw [symbols, if_neg hstar, if_neg hplus]
      refine ⟨by simpa using ih.1, ?_⟩
      exact count_sample c (q :: rest) _ ih.2
  | case4 c =>
      refine ⟨by simp [symbols], ?_⟩
      exact count_sample c [] [] (Nat.le_refl 0)
  | case5 => simp [symbols]

/-- A symbol whose sample is no further slash stands for itself. -/
theorem isPlain_of_count_sample {c : Byte} {text text' : Bytes} (hc : isSymbol c = true)
    (hle : text.count 47 ≤ text'.count 47)
    (hcount : ((if c = 46 then 47 else c) :: text').count 47 ≤ (c :: text).count 47) :
    isPlain c = true ∧ text'.count 47 ≤ text.count 47 := by
  by_cases hdot : c = 46
  · simp [hdot] at hcount
    omega
  · refine ⟨by simpa [isSymbol, hdot] using hc, ?_⟩
    simpa [hdot, List.count_cons] using hcount

/-- As long and with no further slash it is only where all symbols stand for
themselves. -/
theorem isPlain_of_sample {text : Bytes} (h : ∀ item ∈ symbols text, item.isSimple = true)
    (hlength : text.length ≤ (symbols text).length)
    (hcount : ((symbols text).map sample).count 47 ≤ text.count 47) :
    ∀ c ∈ text, isPlain c = true := by
  induction text using symbols.induct with
  | case1 c rest ih =>
      -- a quantifier makes the sample shorter
      have hle := (sample_symbols rest).1
      simp [symbols] at hlength
      omega
  | case2 c rest hne ih =>
      have hle := (sample_symbols rest).1
      simp [symbols] at hlength
      omega
  | case3 c q rest hstar hplus ih =>
      rw [symbols, if_neg hstar, if_neg hplus] at h hlength hcount
      obtain ⟨hc, hlater⟩ := List.forall_mem_cons.mp h
      obtain ⟨hplain, hcount⟩ := isPlain_of_count_sample hc (sample_symbols (q :: rest)).2 hcount
      exact List.forall_mem_cons.mpr
        ⟨hplain, ih hlater (by simpa using hlength) hcount⟩
  | case4 c =>
      have hc := h (.one c) List.mem_cons_self
      obtain ⟨hplain, _⟩ := isPlain_of_count_sample hc (Nat.le_refl _) hcount
      exact List.forall_mem_singleton.mpr hplain
  | case5 => simp

/-- What a segment that fits is at least as long as, with its slash. -/
def leastLength (segment : Bytes) : Nat :=
  if isPlaceholder segment then 2 else segment.length + 1

def leastLengths : List Bytes → Nat
  | [] => 0
  | segment :: segments => leastLength segment + leastLengths segments

theorem sample_segmentItems (segment : Bytes) :
    (segmentItems segment).length ≤ leastLength segment ∧
      1 ≤ ((segmentItems segment).map sample).count 47 := by
  rw [segmentItems, leastLength]
  split
  · decide
  · obtain ⟨hlength, hcount⟩ := sample_symbols (47 :: segment)
    rw [List.count_cons_self] at hcount
    exact ⟨hlength, by omega⟩

theorem sample_segments (segments : List Bytes) :
    (segments.flatMap segmentItems).length ≤ leastLengths segments ∧
      segments.length ≤ ((segments.flatMap segmentItems).map sample).count 47 := by
  induction segments with
  | nil => simp
  | cons segment segments ih =>
      obtain ⟨hlength, hcount⟩ := sample_segmentItems segment
      simp only [List.flatMap_cons, List.map_append, List.length_append, List.count_append,
        leastLengths, List.length_cons]
      omega

/-- A sample that fits shows that nothing in the segments is a wildcard. -/
theorem isPlain_of_segments {segments : List Bytes} (hfree : ∀ s ∈ segments, 47 ∉ s)
    (h : ∀ item ∈ segments.flatMap segmentItems, item.isSimple = true)
    (hlength : leastLengths segments ≤ (segments.flatMap segmentItems).length)
    (hcount : ((segments.flatMap segmentItems).map sample).count 47 ≤ segments.length) :
    ∀ s ∈ segments, isPlaceholder s = false → ∀ c ∈ s, isPlain c = true := by
  induction segments with
  | nil => simp
  | cons segment segments ih =>
      obtain ⟨hlength₁, hcount₁⟩ := sample_segmentItems segment
      obtain ⟨hlength₂, hcount₂⟩ := sample_segments segments
      simp only [List.flatMap_cons, List.map_append, List.length_append, List.count_append,
        leastLengths, List.length_cons] at hlength hcount
      rw [List.flatMap_cons, List.forall_mem_append] at h
      refine List.forall_mem_cons.mpr ⟨?_, ?_⟩
      · intro hplaceholder
        have hitems : segmentItems segment = symbols (47 :: segment) := by
          rw [segmentItems, hplaceholder]
          rfl
        have hleast : leastLength segment = segment.length + 1 := by
          rw [leastLength, hplaceholder]
          rfl
        have hslashes : (47 :: segment).count 47 = 1 := by
          rw [List.count_cons_self, List.count_eq_zero.mpr (hfree segment List.mem_cons_self)]
        rw [hitems] at h hlength hcount hlength₁ hcount₁
        have hplain := isPlain_of_sample h.1 (by rw [List.length_cons]; omega)
          (by rw [hslashes]; omega)
        exact (List.forall_mem_cons.mp hplain).2
      · exact ih (fun s hs => hfree s (List.mem_cons_of_mem segment hs)) h.2 (by omega)
          (by omega)

/-- What fits is not shorter than the least length of every segment together. -/
theorem leastLength_le {segments words : List Bytes}
    (h : List.Forall₂ SegmentFits segments words) :
    leastLengths segments ≤ (words.flatMap (47 :: ·)).length := by
  induction h with
  | nil => exact Nat.le_refl 0
  | @cons segment word segments words hfits _ ih =>
      have hword : leastLength segment ≤ word.length + 1 := by
        rw [leastLength]
        rw [SegmentFits] at hfits
        split at hfits
        · rw [if_pos ‹_›]
          have hpos := List.length_pos_iff.mpr hfits
          omega
        · rw [if_neg ‹_›, hfits]
      simp only [leastLengths, List.flatMap_cons, List.length_append, List.length_cons]
      omega

/-- A pattern that begins with a slash and takes over no metacharacter but the
dot, the star and the plus, the latter two after a symbol. -/
def IsWildcardPattern (pathPattern : Bytes) : Prop :=
  pathPattern.head? = some 47 ∧ ∀ item ∈ patternItems pathPattern, item.isSimple = true

instance (pathPattern : Bytes) : Decidable (IsWildcardPattern pathPattern) :=
  inferInstanceAs (Decidable (_ ∧ ∀ item ∈ patternItems pathPattern, _))

/-- Such a pattern is plain if the sample of its expression fits it: then the
sample has neither fewer symbols nor more slashes than the pattern asks for. -/
theorem isPlainPattern_of_sample {pathPattern : Bytes} (hwild : IsWildcardPattern pathPattern)
    (hfits : PatternFits pathPattern ((patternItems pathPattern).map sample)) :
    IsPlainPattern pathPattern := by
  obtain ⟨hhead, hsimple⟩ := hwild
  obtain ⟨first, segments, hsplit, hpattern, hfirst, hfree⟩ := exists_splitOn 47 pathPattern
  have hnil : first = [] := by
    cases first with
    | nil => rfl
    | cons c first =>
        rw [hpattern] at hhead
        have hc : c = 47 := Option.some.inj hhead
        exact absurd (hc ▸ List.mem_cons_self) hfirst
  rw [hnil] at hsplit
  have hitems : patternItems pathPattern = segments.flatMap segmentItems :=
    patternItems_eq hsplit
  rw [hitems] at hsimple hfits
  obtain ⟨first', words, hpathSplit, hpath, _, _⟩ :=
    exists_splitOn 47 ((segments.flatMap segmentItems).map sample)
  rw [PatternFits, hsplit, hpathSplit] at hfits
  obtain ⟨hfirstFits, hall⟩ := List.forall₂_cons.mp hfits
  have hfirst' : first' = [] := hfirstFits
  have hlength := leastLength_le hall
  rw [hfirst', List.nil_append] at hpath
  rw [← hpath, List.length_map] at hlength
  have hcount : ((segments.flatMap segmentItems).map sample).count 47 = segments.length := by
    have hpieces := length_splitOn 47 ((segments.flatMap segmentItems).map sample)
    rw [hpathSplit, List.length_cons, ← hall.length_eq] at hpieces
    omega
  exact (isPlainPattern_iff hsplit).mpr
    ⟨by simp, isPlain_of_segments hfree hsimple hlength hcount.le⟩

namespace Registration

variable {H : Type}

/-- A route of simple pieces takes their sample. -/
theorem exists_accepts_sample {registration : Registration H}
    (hdynamic : registration.table.isDynamic = true)
    (hsimple : ∀ item ∈ patternItems registration.path, item.isSimple = true) :
    ∃ request : HttpRequest, registration.accepts request = true ∧
      request.getPath = (patternItems registration.path).map sample := by
  obtain ⟨request, hmethod, hpath⟩ : ∃ request : HttpRequest,
      request.getMethod = registration.method ∧
        request.getPath = (patternItems registration.path).map sample :=
    ⟨{ HttpRequest.new 0 with
        method := registration.method
        path := (patternItems registration.path).map sample }, rfl, rfl⟩
  obtain ⟨captures, hspells⟩ := spells_sample (patternItems registration.path)
  have hcaptures : (registration.captures request).isSome = true := by
    rw [captures_eq hsimple, hpath]
    exact fullMatch_of_spells hspells
  exact ⟨request, by simp [accepts, hdynamic, hcaptures, hmethod], hpath⟩

/-- Where such a route fits when it is invoked, its pattern is plain. -/
theorem isPlainPattern_of_fits {registration : Registration H}
    (hdynamic : registration.table.isDynamic = true)
    (hwild : IsWildcardPattern registration.path) (h : FitWhenInvoked [registration]) :
    IsPlainPattern registration.path := by
  obtain ⟨request, haccepts, hpath⟩ := exists_accepts_sample hdynamic hwild.2
  obtain ⟨_, hfits⟩ := (h request).2 registration (chosen_singleton haccepts) hdynamic
  rw [hpath] at hfits
  exact isPlainPattern_of_sample hwild hfits

/-- Routes whose patterns take over plain text only fit whenever they are invoked.
A single route with wildcards in its pattern does so only then. -/
theorem fitWhenInvoked_plain :
    (∀ registrations : List (Registration H),
      (∀ registration ∈ registrations, registration.table.isDynamic = true →
        IsPlainPattern registration.path) → FitWhenInvoked registrations) ∧
      ∀ registration : Registration H, registration.table.isDynamic = true →
        IsWildcardPattern registration.path →
          (FitWhenInvoked [registration] ↔ IsPlainPattern registration.path) := by
  refine ⟨fun registrations h => fitWhenInvoked_of_isPlain h, ?_⟩
  intro registration hdynamic hwild
  refine ⟨isPlainPattern_of_fits hdynamic hwild, ?_⟩
  intro hplain
  apply fitWhenInvoked_of_isPlain
  exact List.forall_mem_singleton.mpr fun _ => hplain

/-- A pattern with a file name in it. -/
def fileRoute : Registration Nat := ⟨.regexHandlers, .kGet, ascii "/:dir/a.b", 1⟩

/-- Two routes that take nothing but what they say. -/
def plainRoutes : List (Registration Nat) :=
  [⟨.regexHandlers, .kGet, ascii "/users/:id", 1⟩,
    ⟨.regexCallbacks, .kPost, ascii "/:a.b/:c", 2⟩]

theorem fitWhenInvoked_plain_routes :
    FitWhenInvoked plainRoutes ∧ ¬ FitWhenInvoked [fileRoute] := by
  refine ⟨fitWhenInvoked_plain.1 plainRoutes (by decide +kernel), ?_⟩
  rw [fitWhenInvoked_plain.2 fileRoute rfl (by decide +kernel)]
  decide +kernel

/-- The dot in the pattern takes any symbol. -/
theorem not_fitWhenInvoked_dot :
    ¬ ∀ registrations : List (Registration Nat), FitWhenInvoked registrations := by
  intro h
  let request : HttpRequest :=
    { HttpRequest.new 0 with method := .kGet, path := ascii "/etc/axb" }
  have haccepts : fileRoute.accepts request = true := by decide +kernel
  obtain ⟨_, hfits⟩ := (h [fileRoute] request).2 fileRoute (chosen_singleton haccepts) rfl
  exact absurd hfits (by decide +kernel)

end Registration

end CuteHttpServer
