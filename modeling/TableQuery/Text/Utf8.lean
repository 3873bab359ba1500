/-!
# Decoding UTF-8

Bytes are decoded one at a time. A fault names the byte where the character
that could not be read starts, and how many bytes of it were well formed; a
character that the end of the bytes cuts short has no such number.
-/

namespace TableQuery
namespace Text
namespace Utf8

/-- Where a sequence of bytes stops being UTF-8. -/
structure Fault where
  /-- The number of bytes before the character that cannot be read. -/
  index : Nat
  /-- The number of bytes that cannot begin a character, unless the bytes end
  inside it. -/
  length : Option Nat
deriving DecidableEq

/-- A fault in words. -/
def Fault.message (fault : Fault) : String :=
  match fault.length with
  | some length => s!"invalid utf-8 sequence of {length} bytes from index {fault.index}"
  | none => s!"incomplete utf-8 byte sequence from index {fault.index}"

/-- A character of which some bytes have been read. -/
structure Pending where
  /-- Where it starts. -/
  start : Nat
  /-- How many of its bytes have been read. -/
  seen : Nat
  /-- How many bytes it still lacks. -/
  owed : Nat
  /-- The least next byte it allows. -/
  low : Nat
  /-- The greatest next byte it allows. -/
  high : Nat
  /-- The code point that its bytes spell so far. -/
  value : Nat

/-- What the byte `b` at position `start` begins, if it begins a character of
several bytes. -/
def begin? (start b : Nat) : Option Pending :=
  if 0xc2 ≤ b ∧ b ≤ 0xdf then some ⟨start, 1, 1, 0x80, 0xbf, b - 0xc0⟩
  else if b = 0xe0 then some ⟨start, 1, 2, 0xa0, 0xbf, 0⟩
  else if b = 0xed then some ⟨start, 1, 2, 0x80, 0x9f, 0xd⟩
  else if 0xe1 ≤ b ∧ b ≤ 0xef then some ⟨start, 1, 2, 0x80, 0xbf, b - 0xe0⟩
  else if b = 0xf0 then some ⟨start, 1, 3, 0x90, 0xbf, 0⟩
  else if 0xf1 ≤ b ∧ b ≤ 0xf3 then some ⟨start, 1, 3, 0x80, 0xbf, b - 0xf0⟩
  else if b = 0xf4 then some ⟨start, 1, 3, 0x80, 0x8f, 4⟩
  else none

/-- Decodes bytes of which the first is at position `index`, `pending` being
the character that they continue. -/
def decodeFrom (index : Nat) : Option Pending → List UInt8 → Except Fault (List Char)
  | none, [] => .ok []
  | some p, [] => .error ⟨p.start, none⟩
  | none, b :: bytes =>
    if b.toNat < 0x80 then
      (decodeFrom (index + 1) none bytes).map (Char.ofNat b.toNat :: ·)
    else
      match begin? index b.toNat with
      | none => .error ⟨index, some 1⟩
      | some p => decodeFrom (index + 1) (some p) bytes
  | some p, b :: bytes =>
    if p.low ≤ b.toNat ∧ b.toNat ≤ p.high then
      let value := p.value * 0x40 + b.toNat % 0x40
      if p.owed = 1 then
        (decodeFrom (index + 1) none bytes).map (Char.ofNat value :: ·)
      else
        let next := ⟨p.start, p.seen + 1, p.owed - 1, 0x80, 0xbf, value⟩
        decodeFrom (index + 1) (some next) bytes
    else
      .error ⟨p.start, some p.seen⟩

/-- The text that a sequence of bytes spells. -/
def decode (bytes : List UInt8) : Except Fault (List Char) :=
  decodeFrom 0 none bytes

/-- The number of bytes that a text takes. -/
def size : List Char → Nat
  | [] => 0
  | c :: s => c.utf8Size + size s

end Utf8
end Text
end TableQuery
