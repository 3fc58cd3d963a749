/-
The ECMAScript syntax of `std::regex` over bytes, in the "C" locale: a scanner
that cuts a pattern into tokens, and a parser that builds the expression on a
stack of open groups.
-/
import CuteHttpServer.Backtracking
import CuteHttpServer.ByteString
import CuteHttpServer.DelimitedText

namespace EcmaScript

open Backtracking ByteString DelimitedText

/-- The kinds of `std::regex_error` that a pattern can raise. -/
inductive SyntaxError
  | ctype
  | collate
  | escape
  | backref
  | brack
  | paren
  | brace
  | badbrace
  | range
  | badrepeat
deriving DecidableEq, Repr

inductive Token
  | one (accepts : Byte → Bool)
  | atStart
  | atEnd
  | boundary (negated : Bool)
  | backref (index : Nat)
  | bar
  | openCapture
  | openPlain
  | openLook (negated : Bool)
  | close
  | quantifier (min : Nat) (max : Option Nat) (greedy : Bool)

def isUpper (c : Byte) : Bool := 65 ≤ c && c ≤ 90

def isLower (c : Byte) : Bool := 97 ≤ c && c ≤ 122

def isAlpha (c : Byte) : Bool := isUpper c || isLower c

/-- The symbols that `\w` stands for. -/
def isWord (c : Byte) : Bool := isAlpha c || isDigit c || c = 95

/-- What `.` stands for: anything but a line terminator. -/
def isNotLineEnd (c : Byte) : Bool := c ≠ 10 && c ≠ 13

/-- The value of a hexadecimal digit. -/
def hexValue (c : Byte) : Option Nat :=
  if isDigit c then some (c.toNat - 48)
  else if 97 ≤ c && c ≤ 102 then some (c.toNat - 87)
  else if 65 ≤ c && c ≤ 70 then some (c.toNat - 55)
  else none

/-- The number that a run of hexadecimal digits denotes. -/
def hexNumber (digits : Bytes) : Option Nat :=
  digits.foldlM (fun value c => (hexValue c).map (16 * value + ·)) 0

/-- `\d`, `\s`, `\w` and their complements. -/
def classEscape (c : Byte) : Option (Byte → Bool) :=
  if c = 100 then some isDigit
  else if c = 68 then some fun c => !isDigit c
  else if c = 115 then some isSpace
  else if c = 83 then some fun c => !isSpace c
  else if c = 119 then some isWord
  else if c = 87 then some fun c => !isWord c
  else none

/-- An escape of exactly so many hexadecimal digits. -/
def hexEscape (count : Nat) (rest : Bytes) : Except SyntaxError (Byte × Nat) :=
  match hexNumber (rest.take count) with
  | some value =>
      if (rest.take count).length = count ∧ value < 256 then
        .ok (UInt8.ofNat value, count + 1)
      else .error .escape
  | none => .error .escape

/-- The byte that an escape stands for, and the number of bytes it is written
with after the backslash. -/
def characterEscape (c : Byte) (rest : Bytes) : Except SyntaxError (Byte × Nat) :=
  if c = 48 then .ok (0, 1)
  else if c = 116 then .ok (9, 1)
  else if c = 110 then .ok (10, 1)
  else if c = 118 then .ok (11, 1)
  else if c = 102 then .ok (12, 1)
  else if c = 114 then .ok (13, 1)
  else if c = 120 then hexEscape 2 rest
  else if c = 117 then hexEscape 4 rest
  else if c = 99 then
    match rest with
    | letter :: _ => if isAlpha letter then .ok (letter % 32, 2) else .error .escape
    | [] => .error .escape
  else .ok (c, 1)

/-- What follows a backslash outside of brackets. -/
def scanEscape : Bytes → Except SyntaxError (Token × Nat)
  | [] => .error .escape
  | c :: rest =>
      if c = 98 then .ok (.boundary false, 1)
      else if c = 66 then .ok (.boundary true, 1)
      else if isDigit c && c ≠ 48 then
        let digits := (c :: rest).takeWhile isDigit
        .ok (.backref (digitsValue digits - 1), digits.length)
      else
        match classEscape c with
        | some accepts => .ok (.one accepts, 1)
        | none => (characterEscape c rest).map fun found => (.one (· = found.1), found.2)

/-- One member of a bracket expression. -/
inductive ClassAtom
  | char (c : Byte)
  | dash
  | set (accepts : Byte → Bool)

namespace ClassAtom

def accepts : ClassAtom → Byte → Bool
  | char c => (· = c)
  | dash => (· = 45)
  | set accepts => accepts

/-- A member that can begin or end a range. -/
def endpoint : ClassAtom → Option Byte
  | char c => some c
  | dash => some 45
  | set _ => none

end ClassAtom

/-- The names that can stand in `[:name:]`. -/
def namedClass (name : Bytes) : Option (Byte → Bool) :=
  if name = ascii "alpha" then some isAlpha
  else if name = ascii "upper" then some isUpper
  else if name = ascii "lower" then some isLower
  else if name = ascii "digit" ∨ name = ascii "d" then some isDigit
  else if name = ascii "alnum" then some fun c => isAlpha c || isDigit c
  else if name = ascii "word" ∨ name = ascii "w" then some isWord
  else if name = ascii "space" ∨ name = ascii "s" then some isSpace
  else if name = ascii "blank" then some isBlank
  else if name = ascii "xdigit" then some fun c => (hexValue c).isSome
  else if name = ascii "cntrl" then some fun c => c < 32 || c = 127
  else if name = ascii "print" then some fun c => 32 ≤ c && c < 127
  else if name = ascii "graph" then some fun c => 33 ≤ c && c < 127
  else if name = ascii "punct" then
    some fun c => 33 ≤ c && c < 127 && !(isAlpha c || isDigit c)
  else none

/-- The inner brackets `[:name:]`, `[.x.]` and `[=x=]`, after the first of
them; the kind is the byte that stands next to it. -/
def innerBracket (kind : Byte) (rest : Bytes) : Except SyntaxError (ClassAtom × Nat) :=
  match findPair kind 93 rest with
  | none => .error .brack
  | some length =>
      let name := rest.take length
      if kind = 58 then
        match namedClass name with
        | some accepts => .ok (.set accepts, length + 3)
        | none => .error .ctype
      else
        match name with
        | [c] => .ok (.char c, length + 3)
        | _ => .error .collate

/-- One member, and the number of bytes it has after its first. -/
def classAtom (c : Byte) (rest : Bytes) : Except SyntaxError (ClassAtom × Nat) :=
  if c = 45 then .ok (.dash, 0)
  else if c = 92 then
    match rest with
    | [] => .error .escape
    | escaped :: rest =>
        if escaped = 98 then .ok (.char 8, 1)
        else if isDigit escaped && escaped ≠ 48 then .error .escape
        else
          match classEscape escaped with
          | some accepts => .ok (.set accepts, 1)
          | none =>
              (characterEscape escaped rest).map fun found => (.char found.1, found.2)
  else if c = 91 then
    match rest with
    | kind :: rest =>
        if kind = 58 ∨ kind = 46 ∨ kind = 61 then innerBracket kind rest
        else .ok (.char c, 0)
    | [] => .ok (.char c, 0)
  else .ok (.char c, 0)

/-- The members up to the closing bracket, and the number of bytes with it.
The first argument counts bytes that belong to the member before. -/
def classAtoms : Nat → Bytes → Except SyntaxError (List ClassAtom × Nat)
  | _, [] => .error .brack
  | skip + 1, _ :: rest =>
      (classAtoms skip rest).map fun found => (found.1, found.2 + 1)
  | 0, c :: rest =>
      if c = 93 then .ok ([], 1)
      else do
        let atom ← classAtom c rest
        let later ← classAtoms atom.2 rest
        .ok (atom.1 :: later.1, later.2 + 1)

/-- Members on both sides of a dash make a range. -/
def classTests : List ClassAtom → Except SyntaxError (List (Byte → Bool))
  | low :: .dash :: high :: rest =>
      match low.endpoint, high.endpoint with
      | some first, some last =>
          if first ≤ last then
            (classTests rest).map fun tests => (fun c => first ≤ c && c ≤ last) :: tests
          else .error .range
      | _, _ => .error .range
  | atom :: rest => (classTests rest).map fun tests => atom.accepts :: tests
  | [] => .ok []

/-- A bracket expression, after the opening bracket. -/
def scanClass (rest : Bytes) : Except SyntaxError (Token × Nat) := do
  let negated := rest.head? = some 94
  let skipped := if negated then 1 else 0
  let atoms ← classAtoms 0 (rest.drop skipped)
  let tests ← classTests atoms.1
  .ok (.one fun c => (tests.any fun test => test c) != negated, atoms.2 + skipped)

/-- A quantifier, which a question mark makes lazy. -/
def quantified (min : Nat) (max : Option Nat) (used : Nat) (rest : Bytes) : Token × Nat :=
  if (rest.drop used).head? = some 63 then (.quantifier min max false, used + 1)
  else (.quantifier min max true, used)

/-- A quantifier in braces, after the opening brace. -/
def scanBraces (rest : Bytes) : Except SyntaxError (Token × Nat) :=
  let low := rest.takeWhile isDigit
  let min := digitsValue low
  if low = [] then .error .badbrace
  else
    match rest.drop low.length with
    | 125 :: _ => .ok (quantified min (some min) (low.length + 1) rest)
    | 44 :: later =>
        let high := later.takeWhile isDigit
        let max := digitsValue high
        match later.drop high.length with
        | 125 :: _ =>
            let used := low.length + high.length + 2
            if high = [] then .ok (quantified min none used rest)
            else if min ≤ max then .ok (quantified min (some max) used rest)
            else .error .badbrace
        | _ => .error .brace
    | _ => .error .brace

/-- An opening parenthesis with what follows it. -/
def scanOpen : Bytes → Except SyntaxError (Token × Nat)
  | 63 :: 58 :: _ => .ok (.openPlain, 2)
  | 63 :: 61 :: _ => .ok (.openLook false, 2)
  | 63 :: 33 :: _ => .ok (.openLook true, 2)
  | 63 :: _ => .error .paren
  | _ => .ok (.openCapture, 0)

/-- One token, and the number of bytes it has after its first. -/
def scanToken (c : Byte) (rest : Bytes) : Except SyntaxError (Token × Nat) :=
  if c = 94 then .ok (.atStart, 0)
  else if c = 36 then .ok (.atEnd, 0)
  else if c = 92 then scanEscape rest
  else if c = 46 then .ok (.one isNotLineEnd, 0)
  else if c = 42 then .ok (quantified 0 none 0 rest)
  else if c = 43 then .ok (quantified 1 none 0 rest)
  else if c = 63 then .ok (quantified 0 (some 1) 0 rest)
  else if c = 40 then scanOpen rest
  else if c = 41 then .ok (.close, 0)
  else if c = 91 then scanClass rest
  else if c = 93 then .error .brack
  else if c = 123 then scanBraces rest
  else if c = 125 then .error .brace
  else if c = 124 then .ok (.bar, 0)
  else .ok (.one (· = c), 0)

/-- All tokens of a pattern.  The first argument counts bytes that belong to
the token before. -/
def scan : Nat → Bytes → Except SyntaxError (List Token)
  | _, [] => .ok []
  | skip + 1, _ :: rest => scan skip rest
  | 0, c :: rest => do
      let token ← scanToken c rest
      let tokens ← scan token.2 rest
      .ok (token.1 :: tokens)

/-- How a group was opened. -/
inductive Opened
  | plain
  | capture (index : Nat)
  | look (negated : Bool)

/-- A group under construction: the alternatives that are complete, and the
terms of the one under way, the last of them first. -/
structure Frame where
  opened : Opened
  alternatives : Option (Regex Byte) := none
  terms : List (Regex Byte) := []
  quantifiable : Bool := false

/-- The alternatives and the terms under way, as one expression. -/
def Frame.body (frame : Frame) : Regex Byte :=
  match frame.alternatives with
  | none => concat frame.terms.reverse
  | some before => .alt before (concat frame.terms.reverse)

/-- The group, closed. -/
def Frame.closed (frame : Frame) : Regex Byte :=
  match frame.opened with
  | .plain => frame.body
  | .capture index => .group index frame.body
  | .look negated => .look negated frame.body

def Frame.add (frame : Frame) (term : Regex Byte) (quantifiable : Bool) : Frame :=
  { frame with terms := term :: frame.terms, quantifiable := quantifiable }

/-- The innermost open group, those around it, and the number of captures. -/
structure Parsing where
  current : Frame
  outer : List Frame := []
  groups : Nat := 0

namespace Parsing

def add (parsing : Parsing) (term : Regex Byte) (quantifiable : Bool) : Parsing :=
  { parsing with current := parsing.current.add term quantifiable }

def enter (parsing : Parsing) (opened : Opened) : Parsing :=
  { parsing with
    current := { opened := opened }
    outer := parsing.current :: parsing.outer }

def step (parsing : Parsing) : Token → Except SyntaxError Parsing
  | .one accepts => .ok (parsing.add (.one accepts) true)
  | .atStart => .ok (parsing.add .atStart false)
  | .atEnd => .ok (parsing.add .atEnd false)
  | .boundary negated => .ok (parsing.add (.boundary isWord negated) false)
  | .backref index => .ok (parsing.add (.backref index) true)
  | .bar =>
      .ok { parsing with
        current := { opened := parsing.current.opened
                     alternatives := some parsing.current.body } }
  | .openCapture =>
      .ok { parsing.enter (.capture parsing.groups) with groups := parsing.groups + 1 }
  | .openPlain => .ok (parsing.enter .plain)
  | .openLook negated => .ok (parsing.enter (.look negated))
  | .close =>
      match parsing.outer with
      | [] => .error .paren
      | frame :: outer =>
          .ok { parsing with
            current := frame.add parsing.current.closed true
            outer := outer }
  | .quantifier min max greedy =>
      match parsing.current.quantifiable, parsing.current.terms with
      | true, term :: terms =>
          .ok { parsing with
            current := { parsing.current with
              terms := .loop term min max greedy :: terms
              quantifiable := false } }
      | _, _ => .error .badrepeat

end Parsing

/-- A compiled pattern. -/
structure Pattern where
  regex : Regex Byte
  groups : Nat

/-- The constructor of `std::regex`. -/
def compile (text : Bytes) : Except SyntaxError Pattern := do
  let tokens ← scan 0 text
  let parsing ← tokens.foldlM Parsing.step { current := { opened := .plain } }
  let known := tokens.all fun token =>
    match token with
    | .backref index => index < parsing.groups
    | _ => true
  match parsing.outer with
  | _ :: _ => .error .paren
  | [] =>
      if known then .ok ⟨parsing.current.body, parsing.groups⟩ else .error .backref

/-- `std::regex_match`: what the groups capture. -/
def Pattern.regexMatch (pattern : Pattern) (text : Bytes) :
    Option (List (Option Bytes)) :=
  fullMatch pattern.regex pattern.groups text

/-- `std::regex_replace` with a format that has no `$` in it. -/
def Pattern.regexReplace (pattern : Pattern) (text format : Bytes) : Bytes :=
  replaceAll pattern.regex pattern.groups format text

theorem scan_cons {c : Byte} {rest : Bytes} {token : Token} {skip : Nat}
    (h : scanToken c rest = .ok (token, skip)) :
    scan 0 (c :: rest) = (scan skip rest).map (token :: ·) := by
  rw [scan, h]
  cases hlater : scan skip rest with
  | ok tokens => simp [bind, Except.bind, Except.map, hlater]
  | error e => simp [bind, Except.bind, Except.map, hlater]

theorem scan_skip (c : Byte) (skip : Nat) (rest : Bytes) :
    scan (skip + 1) (c :: rest) = scan skip rest := rfl

/-- The bytes that do not stand for themselves. -/
def metacharacters : Bytes := ascii "^$\\.*+?()[]\x7b\x7d|"

def isPlain (c : Byte) : Bool := !metacharacters.contains c

theorem scanToken_of_isPlain {c : Byte} (h : isPlain c = true) (rest : Bytes) :
    scanToken c rest = .ok (.one (· = c), 0) := by
  have hplain : c ∉ metacharacters := by simpa [isPlain] using h
  have hne : ∀ d ∈ metacharacters, c ≠ d := fun d hd heq => hplain (heq ▸ hd)
  have h94 := hne 94 (by decide +kernel)
  have h36 := hne 36 (by decide +kernel)
  have h92 := hne 92 (by decide +kernel)
  have h46 := hne 46 (by decide +kernel)
  have h42 := hne 42 (by decide +kernel)
  have h43 := hne 43 (by decide +kernel)
  have h63 := hne 63 (by decide +kernel)
  have h40 := hne 40 (by decide +kernel)
  have h41 := hne 41 (by decide +kernel)
  have h91 := hne 91 (by decide +kernel)
  have h93 := hne 93 (by decide +kernel)
  have h123 := hne 123 (by decide +kernel)
  have h125 := hne 125 (by decide +kernel)
  have h124 := hne 124 (by decide +kernel)
  simp [scanToken, h94, h36, h92, h46, h42, h43, h63, h40, h41, h91, h93, h123, h125, h124]

end EcmaScript
