/-
The network buffer of cutemuduo, known by its interface only.  Its source is a
submodule, so it is a parameter: any type with these operations and laws.
-/
import CuteHttpServer.ByteString
import CuteHttpServer.DelimitedText

namespace CuteHttpServer

open ByteString DelimitedText

/-- `\r`, the first byte of the line delimiter. -/
abbrev CR : Byte := 13

/-- `\n`, its second byte. -/
abbrev LF : Byte := 10

/-- `cutemuduo::Buffer` as the server uses it.  `readable` is the text between
`Peek()` and `Peek() + ReadableBytes()`, positions are offsets from `Peek()`,
and the laws are what the server relies on. -/
class Buffer (B : Type) where
  empty : B
  readable : B → Bytes
  findCRLF : B → Option Nat
  retrieve : B → Nat → B
  append : B → Bytes → B
  readable_empty : readable empty = []
  findCRLF_eq : ∀ buffer, findCRLF buffer = findPair CR LF (readable buffer)
  readable_retrieve : ∀ buffer n, n ≤ (readable buffer).length →
    readable (retrieve buffer n) = (readable buffer).drop n
  readable_append : ∀ buffer text,
    readable (append buffer text) = readable buffer ++ text

/-- The buffer that is nothing but its readable bytes. -/
instance : Buffer Bytes where
  empty := []
  readable buffer := buffer
  findCRLF := findPair CR LF
  retrieve buffer n := buffer.drop n
  append buffer text := buffer ++ text
  readable_empty := rfl
  findCRLF_eq _ := rfl
  readable_retrieve _ _ _ := rfl
  readable_append _ _ := rfl

attribute [simp] Buffer.readable_empty Buffer.readable_append

/-- One buffer seen as another, with the same readable bytes, from which as
much can be retrieved. -/
structure Buffer.View (B B' : Type) [Buffer B] [Buffer B'] where
  see : B → B'
  readable_see : ∀ buffer, readable (see buffer) = readable buffer
  see_retrieve : ∀ buffer n, n ≤ (readable buffer).length →
    see (retrieve buffer n) = retrieve (see buffer) n

/-- A buffer seen as its readable bytes. -/
def Buffer.View.bytes (B : Type) [Buffer B] : Buffer.View B Bytes where
  see := Buffer.readable
  readable_see _ := rfl
  see_retrieve := Buffer.readable_retrieve

theorem Buffer.View.findCRLF_see {B B' : Type} [Buffer B] [Buffer B'] (view : Buffer.View B B')
    (buffer : B) : findCRLF (view.see buffer) = findCRLF buffer := by
  rw [findCRLF_eq, findCRLF_eq, view.readable_see]

@[simp] theorem readable_bytes (buffer : Bytes) :
    Buffer.readable buffer = buffer := rfl

@[simp] theorem append_bytes (buffer text : Bytes) :
    Buffer.append buffer text = buffer ++ text := rfl

theorem CR_ne_LF : CR ≠ LF := by decide

/-- Text without a line end in it. -/
abbrev CrlfFree (line : Bytes) : Prop := PairFree CR LF line

/-- Lines, each followed by `\r\n`. -/
abbrev withCrlf (lines : List Bytes) : Bytes := joinLines CR LF lines

end CuteHttpServer
