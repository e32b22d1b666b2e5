import SourceInventory.Text.Hex

/-!
# Utf8: the text that a sequence of bytes encodes

A character is encoded by one to four bytes. The first byte of a longer sequence fixes the number of continuation bytes and the
interval of the first of them, so that overlong forms, surrogates and values beyond U+10FFFF are refused at that byte; every
later continuation byte lies in 80..BF. Decoding stops at the first sequence that is no character. The fault names its place,
the longest stretch of bytes from there that begins a character (its first byte at least), and what is wrong with the byte
after that stretch.
-/

namespace SourceInventory.Utf8

/-- What is wrong with a sequence of bytes. -/
inductive Cause where
  /-- No character begins with this byte. -/
  | invalidStart
  /-- The bytes end inside a character. -/
  | unexpectedEnd
  /-- The next byte does not continue the character. -/
  | invalidContinuation
deriving DecidableEq, Repr

/-- The first bytes that are no character: their place, the first of them, their number and the cause. -/
structure Fault where
  /-- The number of bytes before them. -/
  position : Nat
  /-- The first of them. -/
  byte : UInt8
  /-- How many they are, one at least. -/
  count : Nat
  /-- What is wrong. -/
  cause : Cause
deriving DecidableEq, Repr

/-- What the first byte of a character says about the bytes after it. -/
structure Lead where
  /-- The number of continuation bytes. -/
  tail : Nat
  /-- The least first continuation byte. -/
  low : Nat
  /-- The greatest first continuation byte. -/
  high : Nat
  /-- The bits of the code point in the first byte. -/
  bits : Nat
deriving DecidableEq, Repr

/-- The first byte of a character. -/
def lead? (b : UInt8) : Option Lead :=
  let n := b.toNat
  if n < 0x80 then some ⟨0, 0x80, 0xBF, n⟩
  else if n < 0xC2 then none
  else if n < 0xE0 then some ⟨1, 0x80, 0xBF, n - 0xC0⟩
  else if n = 0xE0 then some ⟨2, 0xA0, 0xBF, n - 0xE0⟩
  else if n = 0xED then some ⟨2, 0x80, 0x9F, n - 0xE0⟩
  else if n < 0xF0 then some ⟨2, 0x80, 0xBF, n - 0xE0⟩
  else if n = 0xF0 then some ⟨3, 0x90, 0xBF, n - 0xF0⟩
  else if n < 0xF4 then some ⟨3, 0x80, 0xBF, n - 0xF0⟩
  else if n = 0xF4 then some ⟨3, 0x80, 0x8F, n - 0xF0⟩
  else none

/-- The code point that continuation bytes complete, the first of them between `low` and `high`; on failure the number of
bytes that belong to the character, counted from `read`. -/
def continuation : (tail low high : Nat) → (bits read : Nat) → List UInt8 → Except (Nat × Cause) Nat
  | 0, _, _, bits, _, _ => .ok bits
  | _ + 1, _, _, _, read, [] => .error (read, .unexpectedEnd)
  | tail + 1, low, high, bits, read, b :: bs =>
    if low ≤ b.toNat ∧ b.toNat ≤ high then
      continuation tail 0x80 0xBF (64 * bits + (b.toNat - 0x80)) (read + 1) bs
    else .error (read, .invalidContinuation)

/-- The character that bytes begin with and the number of its continuation bytes. -/
def first (b : UInt8) (bs : List UInt8) : Except (Nat × Cause) (Char × Nat) :=
  match lead? b with
  | none => .error (1, .invalidStart)
  | some l => (continuation l.tail l.low l.high l.bits 1 bs).map (Char.ofNat ·, l.tail)

/-- The text of the bytes from a position on, where the next `skip` bytes belong to a character already read. -/
def decodeFrom (position : Nat) : (skip : Nat) → List UInt8 → Except Fault Text
  | _, [] => .ok []
  | skip + 1, _ :: bs => decodeFrom (position + 1) skip bs
  | 0, b :: bs =>
    match first b bs with
    | .error (count, cause) => .error ⟨position, b, count, cause⟩
    | .ok (c, tail) => (decodeFrom (position + 1) tail bs).map (c :: ·)

/-- The text that bytes encode, or the first bytes that are no character. -/
def decode (bs : List UInt8) : Except Fault Text := decodeFrom 0 0 bs

/-- The bytes of a text. -/
def encode (s : Text) : List UInt8 := s.flatMap String.utf8EncodeChar

/-- The number of bytes of a text. -/
def size (s : Text) : Nat := s.foldl (fun n c => n + c.utf8Size) 0

/-- The wording of a cause. -/
def Cause.message : Cause → Text
  | .invalidStart => "invalid start byte".toList
  | .unexpectedEnd => "unexpected end of data".toList
  | .invalidContinuation => "invalid continuation byte".toList

/-- The wording of a fault: a single byte is shown, of several bytes only the places. -/
def Fault.message (f : Fault) : Text :=
  let place :=
    if f.count ≤ 1 then
      "byte 0x".toList ++ Text.hex 2 f.byte.toNat ++ " in position ".toList ++ Text.ofNat f.position
    else
      "bytes in position ".toList ++ Text.ofNat f.position ++ "-".toList ++ Text.ofNat (f.position + f.count - 1)
  "'utf-8' codec can't decode ".toList ++ place ++ ": ".toList ++ f.cause.message

end SourceInventory.Utf8
