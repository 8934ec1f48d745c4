import PseudoVm.Number.Numeral
import PseudoVm.Text.Blank
/-!
# Image.Address: instruction offsets as display addresses

Listings show an offset as an address in a window from `0x1000` to `0xFFFF`, four units an instruction.
Offsets past the window all show as its end, which is no instruction's address, so such a text does not
decode.
-/
namespace PseudoVm

namespace Address

/-- The address of the first instruction. -/
def base : Nat := 0x1000

def width : Nat := 4

def last : Nat := 0xFFFF

/-- The address of an offset, held inside the window. -/
def ofPc (pc : Nat) : Nat := min (pc * width + base) last

/-- A number in hexadecimal capitals with at least four digits. -/
def digits (n : Nat) : List Char :=
  let hex := (Nat.toDigits 16 n).map Char.toUpper
  List.replicate (4 - hex.length) '0' ++ hex

def pcOf? (address : Nat) : Option Nat :=
  if base ≤ address ∧ address ≤ last ∧ (address - base) % width = 0 then some ((address - base) / width) else none

/-- The number that characters denote: hexadecimal after a mark, decimal otherwise. -/
def number? : List Char → Option Nat
  | '0' :: 'x' :: hex => (Numeral.readNat 16 Numeral.wordMax hex).toOption
  | '0' :: 'X' :: hex => (Numeral.readNat 16 Numeral.wordMax hex).toOption
  | decimal => (Numeral.readWord decimal).toOption

end Address

def addressText (pc : Nat) : String := "0x" ++ String.ofList (Address.digits (Address.ofPc pc))

def addressPc? (text : String) : Option Nat := (Address.number? (Blank.trim text.toList)).bind Address.pcOf?

end PseudoVm
