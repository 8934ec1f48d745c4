import PseudoVm.Json.Basic
import PseudoVm.Number.RealText
/-!
# Json.Parser: reading JSON text

A recursive descent over characters.  `fuel` bounds the nesting and the number of items together; the length of
the text is always enough, since every call consumes a character first.

A number without fraction and exponent that fits into 64 bits is a whole number.  Every other number is a
real: its leading digits, as many as fit into 64 bits, are scaled once by a power of ten.  A number that
leaves the range of reals becomes an infinity, which no reader of numbers accepts.
-/
namespace PseudoVm

namespace Json.Parser

def isSpace (c : Char) : Bool := c == ' ' || c == '\n' || c == '\t' || c == '\r'

def skip (cs : List Char) : List Char := cs.dropWhile isSpace

def unit? : List Char → Option (Nat × List Char)
  | a :: b :: c :: d :: rest => do
    let digit := Numeral.digit? 16
    return (((← digit a) * 4096 + (← digit b) * 256 + (← digit c) * 16 + (← digit d)), rest)
  | _ => none

/-- The character that a letter after a backslash stands for. -/
def letter? (c : Char) : Option Char :=
  if c = '"' || c = '\\' || c = '/' then some c
  else if c = 'b' then some '\x08'
  else if c = 'f' then some '\x0c'
  else if c = 'n' then some '\n'
  else if c = 'r' then some '\r'
  else if c = 't' then some '\t'
  else none

/-- The inside of a string literal up to its closing quote; `text` is what was read, backwards, or `none`
once half of a surrogate pair was met. -/
def stringFrom : Nat → Option (List Char) → List Char → Option (Option String × List Char)
  | 0, _, _ => none
  | _, _, [] => none
  | fuel + 1, text, c :: rest =>
    if c = '"' then some (text.map fun cs => String.ofList cs.reverse, rest)
    else if c.toNat < 0x20 then none
    else if c ≠ '\\' then stringFrom fuel (text.map (c :: ·)) rest
    else
      match rest with
      | 'u' :: rest =>
        match unit? rest with
        | none => none
        | some (high, rest) =>
          if high < 0xD800 || 0xE000 ≤ high then
            stringFrom fuel (text.map (Char.ofNat high :: ·)) rest
          else if 0xDC00 ≤ high then stringFrom fuel none rest
          else
            match rest with
            | '\\' :: 'u' :: after =>
              match unit? after with
              | none => none
              | some (low, after) =>
                if 0xDC00 ≤ low && low < 0xE000 then
                  let c := Char.ofNat (0x10000 + (high - 0xD800) * 1024 + (low - 0xDC00))
                  stringFrom fuel (text.map (c :: ·)) after
                else stringFrom fuel none rest
            | _ => stringFrom fuel none rest
      | e :: rest =>
        match letter? e with
        | some c => stringFrom fuel (text.map (c :: ·)) rest
        | none => none
      | [] => none

/-- Digits gathered into 64 bits: the value, how many were taken, and how many no longer fitted. -/
structure Gathered where
  value : Nat
  taken : Nat
  dropped : Nat

/-- Gathers digits onto a value; after one that does not fit, none is taken. -/
def gather (value : Nat) : List Char → Gathered
  | [] => ⟨value, 0, 0⟩
  | c :: rest =>
    let next := value * 10 + (c.toNat - 48)
    if next ≤ Numeral.wordMax then
      let g := gather next rest
      { g with taken := g.taken + 1 }
    else ⟨value, 0, rest.length + 1⟩

/-- A value scaled by a power of ten; `steps` bounds how often a very small number is divided. -/
def scale (x : Float) (exponent : Int) : Nat → Float
  | 0 => x
  | steps + 1 =>
    if exponent.natAbs ≤ 308 then
      let power := Float.ofScientific 1 false exponent.natAbs
      if 0 ≤ exponent then x * power else x / power
    else if x == 0.0 then x
    else if 0 ≤ exponent then 1.0 / 0.0
    else scale (x / Float.ofScientific 1 false 308) (exponent + 308) steps

/-- The real with the given whole digits, fraction digits and exponent. -/
def realOf (whole fraction : List Char) (exponent : Int) : Float :=
  let w := gather 0 whole
  let f := gather w.value fraction
  let exponent := max (-2147483648) (min 2147483647 ((w.dropped : Int) - f.taken + exponent))
  scale (Float.ofNat f.value) exponent 4

/-- A number without its sign: whole digits, fraction digits and exponent, the last two if written. -/
def numeral? (cs : List Char) :
    Option ((List Char × Option (List Char) × Option Int) × List Char) := do
  let whole := cs.takeWhile Char.isDigit
  let rest := cs.dropWhile Char.isDigit
  guard !(whole.isEmpty || (whole.head? == some '0' && 1 < whole.length))
  let (fraction, rest) ← match rest with
    | '.' :: rest =>
      let digits := rest.takeWhile Char.isDigit
      if digits.isEmpty then none else some (some digits, rest.dropWhile Char.isDigit)
    | rest => some (none, rest)
  match rest with
  | c :: after =>
    if c = 'e' || c = 'E' then
      let (negative, after) := match after with
        | '+' :: after => (false, after)
        | '-' :: after => (true, after)
        | after => (false, after)
      let digits := after.takeWhile Char.isDigit
      if digits.isEmpty then none
      else
        let n : Int := RealText.valueOf digits
        some ((whole, fraction, some (if negative then -n else n)), after.dropWhile Char.isDigit)
    else some ((whole, fraction, none), rest)
  | [] => some ((whole, fraction, none), [])

def number (negative : Bool) (whole : List Char) (fraction : Option (List Char)) (exponent : Option Int) : Json :=
  let sign (x : Float) : Float := if negative then -x else x
  match fraction, exponent with
  | none, none =>
    let n := RealText.valueOf whole
    if negative then
      if n = 0 then .real (-0.0)
      else if n ≤ Bound.int then .int (-n)
      else .real (sign (realOf whole [] 0))
    else if n ≤ Numeral.wordMax then .int n
    else .real (realOf whole [] 0)
  | fraction, exponent => .real (sign (realOf whole (fraction.getD []) (exponent.getD 0)))

def number? (cs : List Char) : Option (Json × List Char) := do
  let (negative, cs) := match cs with
    | '-' :: rest => (true, rest)
    | rest => (false, rest)
  let ((whole, fraction, exponent), rest) ← numeral? cs
  return (number negative whole fraction exponent, rest)

mutual

def value? : Nat → List Char → Option (Json × List Char)
  | 0, _ => none
  | fuel + 1, cs =>
    match skip cs with
    | 'n' :: 'u' :: 'l' :: 'l' :: rest => some (.null, rest)
    | 't' :: 'r' :: 'u' :: 'e' :: rest => some (.bool true, rest)
    | 'f' :: 'a' :: 'l' :: 's' :: 'e' :: rest => some (.bool false, rest)
    | '"' :: rest =>
      match stringFrom (rest.length + 1) (some []) rest with
      | none => none
      | some (some s, rest) => some (.str s, rest)
      | some (none, rest) => some (.unpaired, rest)
    | '[' :: rest =>
      match skip rest with
      | ']' :: rest => some (.arr [], rest)
      | rest => items? fuel [] rest
    | '\x7b' :: rest =>
      match skip rest with
      | '\x7d' :: rest => some (.obj [], rest)
      | rest => members? fuel (some []) rest
    | rest => number? rest

/-- The items of a list up to its closing bracket; `done` are those before, backwards. -/
def items? : Nat → List Json → List Char → Option (Json × List Char)
  | 0, _, _ => none
  | fuel + 1, done, cs =>
    match value? fuel cs with
    | none => none
    | some (item, rest) =>
      match skip rest with
      | ',' :: rest => items? fuel (item :: done) rest
      | ']' :: rest => some (.arr (item :: done).reverse, rest)
      | _ => none

/-- The members of an object up to its closing brace; `done` are those before, backwards, or `none` once half of a
surrogate pair was met in a name. -/
def members? : Nat → Option (List (String × Json)) → List Char → Option (Json × List Char)
  | 0, _, _ => none
  | fuel + 1, done, cs =>
    match skip cs with
    | '"' :: rest =>
      match stringFrom (rest.length + 1) (some []) rest with
      | some (name, rest) =>
        match skip rest with
        | ':' :: rest =>
          match value? fuel rest with
          | none => none
          | some (v, rest) =>
            let done := done.bind fun done => name.map fun name => (name, v) :: done
            match skip rest with
            | ',' :: rest => members? fuel done rest
            | '\x7d' :: rest => some ((done.map fun done => .obj done.reverse).getD .unpaired, rest)
            | _ => none
        | _ => none
      | _ => none
    | _ => none

end

end Json.Parser

/-- The JSON value that a text is, with white space around it and nothing else. -/
def Json.parse? (text : String) : Option Json :=
  let cs := text.toList
  match Json.Parser.value? (2 * cs.length + 2) cs with
  | some (v, rest) => if (Json.Parser.skip rest).isEmpty then some v else none
  | none => none

end PseudoVm
