import PseudoVm.Json.Basic
import PseudoVm.Number.RealText
/-!
# Json.Printer: writing JSON text

Two layouts: `compact` on one line, and `pretty` with one item or member to a line, indented by two spaces a
level.  A real that is no number is written as `null`.
-/
namespace PseudoVm

namespace Json.Printer

/-- A hexadecimal digit, lower case. -/
def hexDigit (n : Nat) : Char := Nat.digitChar n

def escape (c : Char) : List Char :=
  if c = '"' then ['\\', '"']
  else if c = '\\' then ['\\', '\\']
  else if c = '\n' then ['\\', 'n']
  else if c = '\r' then ['\\', 'r']
  else if c = '\t' then ['\\', 't']
  else if c = '\x08' then ['\\', 'b']
  else if c = '\x0c' then ['\\', 'f']
  else if c.toNat < 0x20 then ['\\', 'u', '0', '0', hexDigit (c.toNat / 16), hexDigit (c.toNat % 16)]
  else [c]

def literal (s : String) : String := "\"" ++ String.ofList (s.toList.flatMap escape) ++ "\""

def real (x : Float) : String := if x.isNaN || x.isInf then "null" else RealText.finite .image x

def scalar : Json → String
  | .bool true => "true"
  | .bool false => "false"
  | .int n => toString n
  | .real x => real x
  | .str s => literal s
  | _ => "null"

/-- The line break before something at a level of nesting. -/
def newline (level : Nat) : String := "\n" ++ String.ofList (List.replicate (2 * level) ' ')

mutual

def compact : Json → String
  | .arr items => "[" ++ compactItems items ++ "]"
  | .obj members => "\x7b" ++ compactMembers members ++ "\x7d"
  | v => scalar v

def compactItems : List Json → String
  | [] => ""
  | [v] => compact v
  | v :: rest => compact v ++ "," ++ compactItems rest

def compactMembers : List (String × Json) → String
  | [] => ""
  | [(name, v)] => literal name ++ ":" ++ compact v
  | (name, v) :: rest => literal name ++ ":" ++ compact v ++ "," ++ compactMembers rest

end

mutual

def pretty (level : Nat) : Json → String
  | .arr [] => "[]"
  | .arr items => "[" ++ prettyItems (level + 1) items ++ newline level ++ "]"
  | .obj [] => "\x7b\x7d"
  | .obj members => "\x7b" ++ prettyMembers (level + 1) members ++ newline level ++ "\x7d"
  | v => scalar v

def prettyItems (level : Nat) : List Json → String
  | [] => ""
  | [v] => newline level ++ pretty level v
  | v :: rest => newline level ++ pretty level v ++ "," ++ prettyItems level rest

def prettyMembers (level : Nat) : List (String × Json) → String
  | [] => ""
  | [(name, v)] => newline level ++ literal name ++ ": " ++ pretty level v
  | (name, v) :: rest => newline level ++ literal name ++ ": " ++ pretty level v ++ "," ++ prettyMembers level rest

end

end Json.Printer

def Json.compact (v : Json) : String := Json.Printer.compact v

/-- A value with one item or member to a line. -/
def Json.pretty (v : Json) : String := Json.Printer.pretty 0 v

end PseudoVm
