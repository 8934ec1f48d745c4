import PseudoVm.Text.Printable
/-!
# Text.Escaped: text as a debugger shows it

A text between double quotes, or a character between single quotes, on one line: the delimiter and the
backslash are escaped, the usual control characters have letters, and every character that cannot be shown as
it is appears as its number between braces.
-/
namespace PseudoVm

namespace Escaped

/-- The hexadecimal digits of a number, lower case, without leading zeros. -/
def hex (n : Nat) : List Char := Nat.toDigits 16 n

/-- One character inside the delimiter `delim`. -/
def escape (delim c : Char) : List Char :=
  if c = '\x00' then ['\\', '0']
  else if c = '\t' then ['\\', 't']
  else if c = '\r' then ['\\', 'r']
  else if c = '\n' then ['\\', 'n']
  else if c = '\\' || c = delim then ['\\', c]
  else if isPrintable c then [c]
  else ['\\', 'u', '\x7b'] ++ hex c.toNat ++ ['\x7d']

def enclose (delim : Char) (cs : List Char) : List Char := delim :: cs.flatMap (escape delim) ++ [delim]

end Escaped

def escapedText (s : String) : String := String.ofList (Escaped.enclose '"' s.toList)

def escapedChar (c : Char) : String := String.ofList (Escaped.enclose '\'' [c])

end PseudoVm
