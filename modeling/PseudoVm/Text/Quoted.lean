import PseudoVm.Text.Utf8
/-!
# Text.Quoted: strings and characters in a data file

A value of bytes is written on one line between two delimiters, in printable ASCII only.  `read` undoes
`write`: it accepts the letter escapes, both quotes after a backslash, and any byte as two hexadecimal digits.
-/
namespace PseudoVm

namespace Quoted

def backslash : UInt8 := 0x5C

/-- A hexadecimal digit, lower case. -/
def hexDigit (n : UInt8) : UInt8 := if n < 10 then 0x30 + n else 0x61 + (n - 10)

/-- The value of a hexadecimal digit of either case. -/
def hexValue? (b : UInt8) : Option UInt8 :=
  if 0x30 ≤ b ∧ b ≤ 0x39 then some (b - 0x30)
  else if 0x61 ≤ b ∧ b ≤ 0x66 then some (b - 0x61 + 10)
  else if 0x41 ≤ b ∧ b ≤ 0x46 then some (b - 0x41 + 10)
  else none

/-- How one byte is written inside the delimiter `delim`. -/
def writeByte (delim b : UInt8) : Bytes :=
  if b = backslash then [backslash, backslash]
  else if b = 0x0A then [backslash, 0x6E]
  else if b = 0x0D then [backslash, 0x72]
  else if b = 0x09 then [backslash, 0x74]
  else if b = delim then [backslash, b]
  else if 0x20 ≤ b ∧ b ≤ 0x7E then [b]
  else [backslash, 0x78, hexDigit (b / 16), hexDigit (b % 16)]

def write (delim : UInt8) (bytes : Bytes) : Bytes := delim :: bytes.flatMap (writeByte delim) ++ [delim]

/-- The byte that a letter after a backslash stands for; `x` is not such a letter. -/
def letter? (b : UInt8) : Option UInt8 :=
  if b = 0x6E then some 0x0A
  else if b = 0x72 then some 0x0D
  else if b = 0x74 then some 0x09
  else if b = backslash ∨ b = 0x22 ∨ b = 0x27 then some b
  else none

/-- What is written between two delimiters, read back. -/
def readInner (delim : UInt8) : Bytes → Option Bytes
  | [] => some []
  | b :: rest =>
    if b = delim then none
    else if b = backslash then
      match rest with
      | [] => none
      | e :: rest =>
        if e = 0x78 then
          match rest with
          | hi :: lo :: rest => do
            let h ← hexValue? hi
            let l ← hexValue? lo
            let tail ← readInner delim rest
            return (h * 16 + l) :: tail
          | _ => none
        else do
          let c ← letter? e
          let tail ← readInner delim rest
          return c :: tail
    else (readInner delim rest).map (b :: ·)

/-- The bytes that a line between two delimiters stands for. -/
def read (delim : UInt8) : Bytes → Option Bytes
  | [] => none
  | b :: rest =>
    if b = delim ∧ rest.getLast? = some delim then readInner delim rest.dropLast else none

def stringDelim : UInt8 := 0x22

def charDelim : UInt8 := 0x27

end Quoted

end PseudoVm
