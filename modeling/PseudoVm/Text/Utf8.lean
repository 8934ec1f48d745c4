/-!
# Text.Utf8: bytes and characters

A program's strings are byte sequences; what is shown, searched for as text or read from a file is
characters.  `items` reads bytes from left to right and structurally: each item is one character, or `none`
for a longest run of bytes that begins a character and does not complete it (or for one byte that begins
none).  Strict reading asks that no item is `none`; lossy reading shows `none` as U+FFFD.
-/
namespace PseudoVm

/-- A program's string: any bytes at all. -/
abbrev Bytes := List UInt8

namespace Utf8

/-- A character whose first bytes have been read: how many are owed, the bounds of the next one, and the
bits gathered so far. -/
structure Partial where
  owed : Nat
  low : UInt8
  high : UInt8
  bits : Nat

/-- What a byte between characters begins: `none` if no character starts with it. -/
def lead (b : UInt8) : Option (Char ⊕ Partial) :=
  if b < 0x80 then some (.inl (Char.ofNat b.toNat))
  else if b < 0xC2 then none
  else if b < 0xE0 then some (.inr ⟨1, 0x80, 0xBF, b.toNat - 0xC0⟩)
  else if b == 0xE0 then some (.inr ⟨2, 0xA0, 0xBF, 0⟩)
  else if b == 0xED then some (.inr ⟨2, 0x80, 0x9F, 0xD⟩)
  else if b < 0xF0 then some (.inr ⟨2, 0x80, 0xBF, b.toNat - 0xE0⟩)
  else if b == 0xF0 then some (.inr ⟨3, 0x90, 0xBF, 0⟩)
  else if b < 0xF4 then some (.inr ⟨3, 0x80, 0xBF, b.toNat - 0xF0⟩)
  else if b == 0xF4 then some (.inr ⟨3, 0x80, 0x8F, 4⟩)
  else none

/-- The bits of a partial character with one more byte. -/
def Partial.gather (p : Partial) (b : UInt8) : Nat := p.bits * 64 + (b.toNat - 0x80)

/-- **The items of a byte sequence,** given the character that is under way, if any. -/
def itemsFrom : Option Partial → Bytes → List (Option Char)
  | none, [] => []
  | some _, [] => [none]
  | none, b :: rest =>
    match lead b with
    | none => none :: itemsFrom none rest
    | some (.inl c) => some c :: itemsFrom none rest
    | some (.inr p) => itemsFrom (some p) rest
  | some p, b :: rest =>
    if p.low ≤ b ∧ b ≤ p.high then
      if p.owed ≤ 1 then some (Char.ofNat (p.gather b)) :: itemsFrom none rest
      else itemsFrom (some ⟨p.owed - 1, 0x80, 0xBF, p.gather b⟩) rest
    else
      none :: match lead b with
        | none => none :: itemsFrom none rest
        | some (.inl c) => some c :: itemsFrom none rest
        | some (.inr q) => itemsFrom (some q) rest

def items (bytes : Bytes) : List (Option Char) := itemsFrom none bytes

def replacement : Char := '\uFFFD'

def decode? (bytes : Bytes) : Option (List Char) := (items bytes).mapM id

/-- The characters of any bytes, each ill-formed run shown as one replacement character. -/
def decodeLossy (bytes : Bytes) : List Char := (items bytes).map (·.getD replacement)

def textLossy (bytes : Bytes) : String := String.ofList (decodeLossy bytes)

def text? (bytes : Bytes) : Option String := (decode? bytes).map String.ofList

def encode (cs : List Char) : Bytes := cs.flatMap String.utf8EncodeChar

end Utf8

def bytesOf (s : String) : Bytes := Utf8.encode s.toList

end PseudoVm
