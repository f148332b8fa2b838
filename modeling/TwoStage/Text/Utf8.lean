import TwoStage.Text.Hex

/-!
# UTF-8

Bytes to characters and back. Decoding refuses the first byte that rules the bytes out, and says
where it stands and why.

## Main definitions

- `Utf8.Fault` — why and where bytes are not UTF-8
- `Utf8.decode` — the characters of a sequence of bytes
- `utf8Bytes` — the bytes of a text
-/

namespace TwoStage

/-- The bytes of a text in UTF-8. -/
def utf8Bytes (s : String) : ByteArray := s.toUTF8

namespace Utf8

/-- Why a sequence of bytes is not UTF-8, with the offset of the bytes at fault. -/
inductive Fault where
  /-- No character starts with this byte. -/
  | invalidStart (byte : UInt8) (offset : Nat)
  /-- The byte starts a character, and after `count` good bytes the next one does not go on. -/
  | invalidContinuation (byte : UInt8) (offset count : Nat)
  /-- The bytes end inside a character of which `count` bytes are there. -/
  | unexpectedEnd (byte : UInt8) (offset count : Nat)
  deriving Repr, DecidableEq

/-- The byte in small hexadecimal digits, or the range of offsets when it is not alone. -/
def Fault.place (byte : UInt8) (offset count : Nat) : String :=
  if count = 1 then
    "byte 0x" ++ String.ofList (hexDigits 2 byte.toNat) ++ " in position " ++ toString offset
  else "bytes in position " ++ toString offset ++ "-" ++ toString (offset + count - 1)

/-- The wording of a fault. -/
def Fault.message : Fault → String
  | invalidStart byte offset =>
    "'utf-8' codec can't decode " ++ place byte offset 1 ++ ": invalid start byte"
  | invalidContinuation byte offset count =>
    "'utf-8' codec can't decode " ++ place byte offset count ++ ": invalid continuation byte"
  | unexpectedEnd byte offset count =>
    "'utf-8' codec can't decode " ++ place byte offset count ++ ": unexpected end of data"

/-- What the first byte of a character promises: the bits it holds, the number of bytes to come,
and the least and greatest value of the next one. -/
structure Lead where
  bits : Nat
  more : Nat
  low : Nat
  high : Nat

/-- Reads a first byte; `none` if no character starts with it. -/
def lead? (b : UInt8) : Option Lead :=
  let n := b.toNat
  if n < 0x80 then some ⟨n, 0, 0, 0⟩
  else if n < 0xc2 then none
  else if n < 0xe0 then some ⟨n - 0xc0, 1, 0x80, 0xbf⟩
  else if n = 0xe0 then some ⟨n - 0xe0, 2, 0xa0, 0xbf⟩
  else if n = 0xed then some ⟨n - 0xe0, 2, 0x80, 0x9f⟩
  else if n < 0xf0 then some ⟨n - 0xe0, 2, 0x80, 0xbf⟩
  else if n = 0xf0 then some ⟨n - 0xf0, 3, 0x90, 0xbf⟩
  else if n < 0xf4 then some ⟨n - 0xf0, 3, 0x80, 0xbf⟩
  else if n = 0xf4 then some ⟨n - 0xf0, 3, 0x80, 0x8f⟩
  else none

/-- A character being read: its first byte and where that stands, the bytes read so far, the bits
collected, the bytes still to come and the bounds of the next one. -/
structure Partial where
  first : UInt8
  offset : Nat
  count : Nat
  bits : Nat
  more : Nat
  low : Nat
  high : Nat

/-- Decodes the bytes from `offset` on; `done` holds the characters before, last one first. -/
def decodeFrom (offset : Nat) (pending : Option Partial) (done : List Char) :
    List UInt8 → Except Fault (List Char)
  | [] =>
    match pending with
    | none => .ok done.reverse
    | some p => .error (.unexpectedEnd p.first p.offset p.count)
  | b :: rest =>
    match pending with
    | none =>
      match lead? b with
      | none => .error (.invalidStart b offset)
      | some lead =>
        if lead.more = 0 then decodeFrom (offset + 1) none (Char.ofNat lead.bits :: done) rest
        else
          decodeFrom (offset + 1)
            (some ⟨b, offset, 1, lead.bits, lead.more, lead.low, lead.high⟩) done rest
    | some p =>
      if p.low ≤ b.toNat && b.toNat ≤ p.high then
        let bits := p.bits * 64 + (b.toNat - 0x80)
        if p.more = 1 then decodeFrom (offset + 1) none (Char.ofNat bits :: done) rest
        else
          decodeFrom (offset + 1)
            (some ⟨p.first, p.offset, p.count + 1, bits, p.more - 1, 0x80, 0xbf⟩) done rest
      else .error (.invalidContinuation p.first p.offset p.count)

/-- The text that a sequence of bytes stands for. -/
def decode (bytes : ByteArray) : Except Fault String :=
  (decodeFrom 0 none [] bytes.toList).map String.ofList

end Utf8

end TwoStage
