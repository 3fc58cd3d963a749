/-
The same header lines in other spellings: names in another letter case, values
with blanks around them.
-/
import CuteHttpServer.HeaderBlock

namespace CuteHttpServer

open ByteString DelimitedText KeyedMap

/-- A header line is cut at its first colon. -/
theorem headerField_eq (line : Bytes) :
    headerField line =
      match line.dropWhile (· ≠ 58) with
      | [] => none
      | _ :: raw =>
          some ((line.takeWhile (· ≠ 58)).rdropWhile isBlank, raw.dropWhile isBlank) := by
  by_cases hcolon : 58 ∈ line
  · obtain ⟨name, raw, rfl, hname⟩ := List.eq_append_cons_of_mem hcolon
    rw [takeWhile_ne hname, dropWhile_ne_append_cons hname, headerField,
      idxOf?_append_cons hname]
    simp only [List.take_left, drop_append_cons]
  · have hnone : line.idxOf? 58 = none := by simpa using hcolon
    rw [dropWhile_ne_of_not_mem hcolon, headerField, hnone]

/-- Two lines that are the same but for the letter case of what stands before
the first colon. -/
def SameButCase (line line' : Bytes) : Prop :=
  (line.takeWhile (· ≠ 58)).map lowerCase = (line'.takeWhile (· ≠ 58)).map lowerCase ∧
    line.dropWhile (· ≠ 58) = line'.dropWhile (· ≠ 58)

instance (line line' : Bytes) : Decidable (SameButCase line line') :=
  inferInstanceAs (Decidable (_ ∧ _))

/-- Their values are the same. -/
theorem values_sameButCase {lines lines' : List Bytes}
    (h : List.Forall₂ SameButCase lines lines') :
    (headerFields lines).map Prod.snd = (headerFields lines').map Prod.snd := by
  induction h with
  | nil => rfl
  | @cons line line' lines lines' hline _ ih =>
      unfold headerFields at ih ⊢
      rw [List.filterMap_cons, List.filterMap_cons, headerField_eq line, headerField_eq line',
        ← hline.2]
      cases line.dropWhile (· ≠ 58) with
      | nil => exact ih
      | cons c raw => exact congrArg (List.cons _) ih

/-- The place of the first field with this very name, behind the last one if
there is none. -/
def firstSpelled (name : Bytes) (lines : List Bytes) : Nat :=
  (headerFields lines).findIdx fun field => decide (field.1 = name)

namespace RequestBlock

/-- The same block but for the letter case of header names. -/
structure SameUpToCase (block block' : RequestBlock) : Prop where
  requestLine : block.requestLine = block'.requestLine
  headerLines : List.Forall₂ SameButCase block.headerLines block'.headerLines

/-- The first line that spells a name so stands at the same place in both. -/
def SpellsAlike (block block' : RequestBlock) (name : Bytes) : Prop :=
  firstSpelled name block.headerLines = firstSpelled name block'.headerLines

theorem SameUpToCase.value_eq {block block' : RequestBlock} (h : block.SameUpToCase block')
    {name : Bytes} (hname : block.SpellsAlike block' name) :
    block.value name = block'.value name := by
  have hplace : firstSpelled name block.headerLines = firstSpelled name block'.headerLines :=
    hname
  unfold firstSpelled at hplace
  rw [value, value, fieldValue_eq_getElem?, fieldValue_eq_getElem?,
    values_sameButCase h.headerLines, hplace]

/-- Header names count as they are spelled. -/
theorem parseRequest_sameUpToCase {B : Type} [Buffer B] {block block' : RequestBlock}
    (h : block.SameUpToCase block') (indeterminate indeterminate' : UInt64) (tail : Bytes)
    (receiveTime : Timestamp) {buff buff' : B}
    (hbuff : Buffer.readable buff = block.text tail)
    (hbuff' : Buffer.readable buff' = block'.text tail) :
    let result := (HttpContext.new indeterminate).parseRequest buff receiveTime
    let result' := (HttpContext.new indeterminate').parseRequest buff' receiveTime
    (block.SpellsAlike block' contentLengthName → SameFraming result result') ∧
      (∀ name, block.SpellsAlike block' name →
        result.context.getRequest.getHeader name =
          result'.context.getRequest.getHeader name) ∧
      (block.SpellsAlike block' (ascii "Connection") →
        closesByDefault result.context.getRequest =
          closesByDefault result'.context.getRequest) := by
  refine ⟨?_, ?_, ?_⟩
  · intro hlength
    exact sameFraming_parseRequest (h.value_eq hlength) hbuff hbuff'
  · intro name hname
    rw [getHeader_parseRequest hbuff, getHeader_parseRequest hbuff', h.value_eq hname]
  · intro hconnection
    exact closesByDefault_parseRequest h.requestLine (h.value_eq hconnection) hbuff hbuff'

/-- A length and a host in some spelling after a plain request line. -/
def spelled (length host : Bytes) (h : AcceptedLines [length, host]) : RequestBlock where
  requestLine := ascii "POST / HTTP/1.1"
  headerLines := [length, host]
  requestLine_free := by decide +kernel
  requestLine_accepted := by decide +kernel
  headerLines_accepted := h

/-- As browsers write them. -/
def usual : RequestBlock :=
  spelled (ascii "Content-Length: 2") (ascii "Host: a") (by decide +kernel)

def upperHost : RequestBlock :=
  spelled (ascii "Content-Length: 2") (ascii "HOST: a") (by decide +kernel)

def lowerLength : RequestBlock :=
  spelled (ascii "content-length: 2") (ascii "Host: a") (by decide +kernel)

theorem parseRequest_sameUpToCase_host :
    SameFraming ((HttpContext.new 0).parseRequest (usual.text (ascii "hi")) 0)
      ((HttpContext.new 0).parseRequest (upperHost.text (ascii "hi")) 0) := by
  have h : usual.SameUpToCase upperHost :=
    ⟨by decide +kernel, .cons (by decide +kernel) (.cons (by decide +kernel) .nil)⟩
  have hplace : firstSpelled contentLengthName usual.headerLines =
      firstSpelled contentLengthName upperHost.headerLines := by decide +kernel
  have hbuff : ∀ block : RequestBlock,
      Buffer.readable (block.text (ascii "hi")) = block.text (ascii "hi") := fun _ => rfl
  exact (parseRequest_sameUpToCase h 0 0 (ascii "hi") 0 (hbuff usual)
    (hbuff upperHost)).1 hplace

/-- With the length in lower case the body is left in the buffer. -/
theorem not_sameFraming_lowerLength :
    usual.SameUpToCase lowerLength ∧
      ¬ SameFraming ((HttpContext.new 0).parseRequest (usual.text (ascii "hi")) 0)
        ((HttpContext.new 0).parseRequest (lowerLength.text (ascii "hi")) 0) := by
  have h : usual.SameUpToCase lowerLength :=
    ⟨by decide +kernel, .cons (by decide +kernel) (.cons (by decide +kernel) .nil)⟩
  refine ⟨h, ?_⟩
  intro hsame
  exact absurd hsame.body (by decide +kernel)

end RequestBlock

/-- A header line with blanks around its value. -/
structure PaddedHeader where
  name : Bytes
  before : Bytes
  value : Bytes
  after : Bytes
  name_colonFree : 58 ∉ name
  name_free : CrlfFree name
  value_free : CrlfFree value
  before_blank : ∀ c ∈ before, isBlank c = true
  after_blank : ∀ c ∈ after, isBlank c = true
  value_first : ∀ c ∈ value.head?, isBlank c = false
  value_last : ∀ c ∈ value.getLast?, isBlank c = false

namespace PaddedHeader

def line (header : PaddedHeader) : Bytes :=
  header.name ++ 58 :: (header.before ++ (header.value ++ header.after))

/-- The name under which the parser stores it. -/
def key (header : PaddedHeader) : Bytes := header.name.rdropWhile isBlank

/-- The same without the blanks. -/
def bare (header : PaddedHeader) : PaddedHeader :=
  { header with
    before := []
    after := []
    before_blank := fun _ hc => absurd hc List.not_mem_nil
    after_blank := fun _ hc => absurd hc List.not_mem_nil }

/-- The value that the parser stores. -/
def stored (header : PaddedHeader) : Bytes :=
  (header.before ++ (header.value ++ header.after)).dropWhile isBlank

theorem headerField_line (header : PaddedHeader) :
    headerField header.line = some (header.key, header.stored) := by
  rw [line, headerField, idxOf?_append_cons header.name_colonFree]
  simp only [List.take_left, drop_append_cons]
  rfl

theorem ne_of_isBlank {c : Byte} (h : isBlank c = true) : c ≠ CR ∧ c ≠ LF := by
  constructor
  · rintro rfl
    exact absurd h (by decide)
  · rintro rfl
    exact absurd h (by decide)

theorem blanks_append_free {blanks text : Bytes} (hblanks : ∀ c ∈ blanks, isBlank c = true)
    (htext : CrlfFree text) : CrlfFree (blanks ++ text) := by
  induction blanks with
  | nil => exact htext
  | cons c blanks ih =>
      obtain ⟨hCR, hLF⟩ := ne_of_isBlank (hblanks c List.mem_cons_self)
      exact pairFree_append_cons hCR hLF (pairFree_nil CR LF)
        (ih fun d hd => hblanks d (List.mem_cons_of_mem c hd))

theorem line_accepted (header : PaddedHeader) :
    HeaderLineText header.line ∧ acceptsHeaderLine header.line = true := by
  have hvalue : CrlfFree (header.value ++ header.after) := by
    cases hafter : header.after with
    | nil => simpa using header.value_free
    | cons c rest =>
        have hblank : ∀ d ∈ c :: rest, isBlank d = true := hafter ▸ header.after_blank
        obtain ⟨hCR, hLF⟩ := ne_of_isBlank (hblank c List.mem_cons_self)
        have hrest : CR ∉ rest :=
          fun hmem => (ne_of_isBlank (hblank CR (List.mem_cons_of_mem c hmem))).1 rfl
        exact pairFree_append_cons hCR hLF header.value_free (pairFree_of_not_mem hrest)
  have hraw := blanks_append_free header.before_blank hvalue
  refine ⟨⟨by simp [line], ?_⟩, by simp [acceptsHeaderLine, headerField_line]⟩
  exact pairFree_append_cons (by decide) (by decide) header.name_free hraw

/-- Blanks after the value stay, unless there is no value. -/
theorem stored_eq (header : PaddedHeader) :
    header.stored = if header.value = [] then [] else header.value ++ header.after := by
  rw [stored, List.dropWhile_append_of_pos header.before_blank]
  by_cases hvalue : header.value = []
  · rw [if_pos hvalue, hvalue, List.nil_append, List.dropWhile_eq_nil_iff]
    exact header.after_blank
  · obtain ⟨c, rest, hcons⟩ := List.exists_cons_of_ne_nil hvalue
    have hfirst : isBlank c = false := header.value_first c (by rw [hcons]; rfl)
    rw [if_neg hvalue, hcons, List.cons_append, List.dropWhile_cons_of_neg (by simp [hfirst])]

theorem stored_bare (header : PaddedHeader) : header.bare.stored = header.value := by
  rw [stored_eq]
  by_cases hvalue : header.value = []
  · simp [bare, hvalue]
  · simp [bare, hvalue]

theorem stored_eq_value_iff (header : PaddedHeader) :
    header.stored = header.value ↔ header.value = [] ∨ header.after = [] := by
  rw [stored_eq]
  by_cases hvalue : header.value = []
  · simp [hvalue]
  · simp [hvalue]

end PaddedHeader

/-- A request up to the end of its header block, with any padding. -/
structure PaddedRequest where
  requestLine : Bytes
  headers : List PaddedHeader
  requestLine_free : CrlfFree requestLine
  requestLine_accepted : acceptsRequestLine requestLine = true

namespace PaddedRequest

def block (request : PaddedRequest) : RequestBlock where
  requestLine := request.requestLine
  headerLines := request.headers.map PaddedHeader.line
  requestLine_free := request.requestLine_free
  requestLine_accepted := request.requestLine_accepted
  headerLines_accepted := by
    intro line hline
    obtain ⟨header, _, rfl⟩ := List.mem_map.mp hline
    exact header.line_accepted

def bare (request : PaddedRequest) : PaddedRequest :=
  { request with headers := request.headers.map PaddedHeader.bare }

/-- The first header with a name. -/
def firstNamed (request : PaddedRequest) (name : Bytes) : Option PaddedHeader :=
  request.headers.find? fun header => decide (header.key = name)

/-- The value that a request means for a name. -/
def meantValue (request : PaddedRequest) (name : Bytes) : Bytes :=
  ((request.firstNamed name).map PaddedHeader.value).getD []

theorem value_block (request : PaddedRequest) (name : Bytes) :
    request.block.value name = ((request.firstNamed name).map PaddedHeader.stored).getD [] := by
  unfold RequestBlock.value firstNamed
  congr 1
  change fieldValue ((request.headers.map PaddedHeader.line).filterMap headerField) name = _
  induction request.headers with
  | nil => rfl
  | cons header headers ih =>
      rw [List.map_cons, List.filterMap_cons_some header.headerField_line, fieldValue_cons, ih]
      by_cases hkey : name = header.key
      · simp [hkey]
      · simp [hkey, Ne.symm hkey]

theorem value_bare (request : PaddedRequest) (name : Bytes) :
    request.bare.block.value name = request.meantValue name := by
  have hfirst : request.bare.firstNamed name =
      (request.firstNamed name).map PaddedHeader.bare := by
    rw [firstNamed, bare, List.find?_map]
    rfl
  rw [value_block, hfirst, meantValue, Option.map_map]
  congr 2
  exact funext PaddedHeader.stored_bare

/-- Padding carries no meaning: the calls on the padded and on the bare text
differ in nothing that the server looks at. -/
structure PaddingIgnored {B : Type} [Buffer B] (request : PaddedRequest)
    (result result' : ParseResult B) : Prop where
  values : ∀ name, result.context.getRequest.getHeader name = request.meantValue name
  framing : SameFraming result result'
  decision : closesByDefault result.context.getRequest =
    closesByDefault result'.context.getRequest

/-- So it is exactly if no value that counts has blanks after it. -/
theorem paddingIgnored_iff {B : Type} [Buffer B] (request : PaddedRequest)
    (indeterminate indeterminate' : UInt64) (tail : Bytes) (receiveTime : Timestamp)
    {buff buff' : B} (hbuff : Buffer.readable buff = request.block.text tail)
    (hbuff' : Buffer.readable buff' = request.bare.block.text tail) :
    request.PaddingIgnored
        ((HttpContext.new indeterminate).parseRequest buff receiveTime)
        ((HttpContext.new indeterminate').parseRequest buff' receiveTime) ↔
      ∀ name header, request.firstNamed name = some header →
        header.value = [] ∨ header.after = [] := by
  have hvalues : (∀ name, request.block.value name = request.meantValue name) ↔
      ∀ name header, request.firstNamed name = some header →
        header.value = [] ∨ header.after = [] := by
    apply forall_congr'
    intro name
    rw [value_block, meantValue]
    cases request.firstNamed name with
    | none => simp
    | some header => simp [header.stored_eq_value_iff]
  rw [← hvalues]
  constructor
  · intro h name
    rw [← RequestBlock.getHeader_parseRequest hbuff]
    exact h.values name
  · intro h
    have hbare : ∀ name, request.block.value name = request.bare.block.value name :=
      fun name => (h name).trans (request.value_bare name).symm
    refine ⟨?_, ?_, ?_⟩
    · intro name
      rw [RequestBlock.getHeader_parseRequest hbuff, h name]
    · exact RequestBlock.sameFraming_parseRequest (hbare contentLengthName) hbuff hbuff'
    · have hline : request.block.requestLine = request.bare.block.requestLine := rfl
      exact RequestBlock.closesByDefault_parseRequest hline (hbare _) hbuff hbuff'

/-- A request for which the client wants the connection closed. -/
def closing (before after : Bytes) (hbefore : ∀ c ∈ before, isBlank c = true)
    (hafter : ∀ c ∈ after, isBlank c = true) : PaddedRequest where
  requestLine := ascii "GET /a HTTP/1.1"
  headers :=
    [{ name := ascii "Connection"
       before := before
       value := ascii "close"
       after := after
       name_colonFree := by decide +kernel
       name_free := by decide +kernel
       value_free := by decide +kernel
       before_blank := hbefore
       after_blank := hafter
       value_first := by decide +kernel
       value_last := by decide +kernel }]
  requestLine_free := by decide +kernel
  requestLine_accepted := by decide +kernel

theorem paddingIgnored_before :
    let request := closing (ascii " \t ") [] (by decide +kernel) (by decide +kernel)
    request.PaddingIgnored
      ((HttpContext.new 0).parseRequest (request.block.text []) 0)
      ((HttpContext.new 0).parseRequest (request.bare.block.text []) 0) := by
  intro request
  have hbuff : ∀ block : RequestBlock,
      Buffer.readable (block.text []) = block.text [] := fun _ => rfl
  rw [paddingIgnored_iff request 0 0 [] 0 (hbuff request.block) (hbuff request.bare.block)]
  intro name header hheader
  have hmem := List.mem_of_find?_eq_some hheader
  rw [List.mem_singleton.mp hmem]
  exact Or.inr rfl

/-- With one blank behind it the wish is not heard. -/
theorem not_paddingIgnored_after :
    let request := closing [] [32] (by decide +kernel) (by decide +kernel)
    ¬ request.PaddingIgnored
      ((HttpContext.new 0).parseRequest (request.block.text []) 0)
      ((HttpContext.new 0).parseRequest (request.bare.block.text []) 0) := by
  intro request h
  exact absurd h.decision (by decide +kernel)

end PaddedRequest

end CuteHttpServer
