import PseudoVm.Number.RealText
import PseudoVm.Toml.Basic
/-!
# Toml.Parser: reading settings files

Readers take characters and give what they read with the characters that are left.  Lines end in a line feed,
with or without a carriage return before it; a comment runs to the end of its line.  Control characters other
than tabs occur nowhere.

Lists and tables in braces nest, and the parts of a key are joined, fewer than `nesting` deep.
-/
namespace PseudoVm

namespace Toml

def isSpace (c : Char) : Bool := c == ' ' || c == '\t'

def isPlain (c : Char) : Bool := c == '\t' || (' ' ≤ c && c != '\x7f')

/-- Without the blanks in front. -/
def skipSpace (cs : List Char) : List Char := cs.dropWhile isSpace

/-- Without the blanks, line ends and comments in front; `true` inside a comment. -/
def skipLines : Bool → List Char → Option (List Char)
  | _, [] => some []
  | _, '\r' :: '\n' :: rest => skipLines false rest
  | _, '\n' :: rest => skipLines false rest
  | true, c :: rest => if isPlain c then skipLines true rest else none
  | false, '#' :: rest => skipLines true rest
  | false, c :: rest => if isSpace c then skipLines false rest else some (c :: rest)

def lineEnd : List Char → Option (List Char)
  | [] => some []
  | '\n' :: rest => some rest
  | '\r' :: '\n' :: rest => some rest
  | _ => none

/-- The end of a statement: blanks, a comment, the end of the line. -/
def statementEnd (cs : List Char) : Option (List Char) :=
  match skipSpace cs with
  | '#' :: rest => lineEnd (rest.dropWhile isPlain)
  | rest => lineEnd rest

def coded? (digits : List Char) : Option Char := do
  let values ← digits.mapM (Numeral.digit? 16)
  let n := values.foldl (fun n d => n * 16 + d) 0
  if n.isValidChar then some (Char.ofNat n) else none

/-- The character that a letter after a backslash stands for. -/
def letter? : Char → Option Char
  | 'b' => some '\x08'
  | 't' => some '\t'
  | 'n' => some '\n'
  | 'f' => some '\x0c'
  | 'r' => some '\r'
  | '"' => some '"'
  | '\\' => some '\\'
  | _ => none

/-- The text gathered so far, the latest character first. -/
def gathered (cs : List Char) : String := String.ofList cs.reverse

def basic (done : List Char) : List Char → Option (String × List Char)
  | [] => none
  | '"' :: rest => some (gathered done, rest)
  | '\\' :: 'u' :: a :: b :: c :: d :: rest => do basic ((← coded? [a, b, c, d]) :: done) rest
  | '\\' :: 'U' :: a :: b :: c :: d :: e :: f :: g :: h :: rest => do
    basic ((← coded? [a, b, c, d, e, f, g, h]) :: done) rest
  | '\\' :: c :: rest => do basic ((← letter? c) :: done) rest
  | c :: rest => if isPlain c then basic (c :: done) rest else none

/-- The rest of a string in single quotes, in which nothing is escaped. -/
def literal (done : List Char) : List Char → Option (String × List Char)
  | [] => none
  | '\'' :: rest => some (gathered done, rest)
  | c :: rest => if isPlain c then literal (c :: done) rest else none

/-- The end of a string of several lines: up to two more quotes belong to it. -/
def closing (quote : Char) (done : List Char) (cs : List Char) : String × List Char :=
  let extra := (cs.take 2).takeWhile (· == quote)
  (gathered (extra ++ done), cs.drop extra.length)

def breaksLine (cs : List Char) : Bool :=
  match skipSpace cs with
  | '\n' :: _ | '\r' :: '\n' :: _ => true
  | _ => false

/-- The rest of a string in three double quotes; `skipping` after a backslash at the end of a line. -/
def basicLines (skipping : Bool) (done : List Char) : List Char → Option (String × List Char)
  | [] => none
  | '\r' :: '\n' :: rest => basicLines skipping (if skipping then done else '\n' :: done) rest
  | '\n' :: rest => basicLines skipping (if skipping then done else '\n' :: done) rest
  | ' ' :: rest => basicLines skipping (if skipping then done else ' ' :: done) rest
  | '\t' :: rest => basicLines skipping (if skipping then done else '\t' :: done) rest
  | '"' :: '"' :: '"' :: rest => some (closing '"' done rest)
  | '\\' :: 'u' :: a :: b :: c :: d :: rest => do basicLines false ((← coded? [a, b, c, d]) :: done) rest
  | '\\' :: 'U' :: a :: b :: c :: d :: e :: f :: g :: h :: rest => do
    basicLines false ((← coded? [a, b, c, d, e, f, g, h]) :: done) rest
  | '\\' :: c :: rest =>
    if breaksLine (c :: rest) then basicLines true done (c :: rest)
    else do basicLines false ((← letter? c) :: done) rest
  | c :: rest => if isPlain c then basicLines false (c :: done) rest else none

def literalLines (done : List Char) : List Char → Option (String × List Char)
  | [] => none
  | '\r' :: '\n' :: rest => literalLines ('\n' :: done) rest
  | '\n' :: rest => literalLines ('\n' :: done) rest
  | '\'' :: '\'' :: '\'' :: rest => some (closing '\'' done rest)
  | c :: rest => if isPlain c then literalLines (c :: done) rest else none

/-- A line end right after the opening quotes does not count. -/
def dropFirstLineEnd : List Char → List Char
  | '\n' :: rest => rest
  | '\r' :: '\n' :: rest => rest
  | cs => cs

/-- Characters of a key without quotes. -/
def isBare (c : Char) : Bool := c.isAlphanum || c == '_' || c == '-'

def keyPart (cs : List Char) : Option (String × List Char) :=
  match cs with
  | '"' :: rest => basic [] rest
  | '\'' :: rest => literal [] rest
  | _ =>
    let name := cs.takeWhile isBare
    if name.isEmpty then none else some (String.ofList name, cs.dropWhile isBare)

/-- A key: parts with dots between them; `fuel` bounds their number. -/
def keyFor : Nat → List Char → Option (List String × List Char)
  | 0, _ => none
  | fuel + 1, cs => do
    let (name, rest) ← keyPart cs
    match skipSpace rest with
    | '.' :: more =>
      let (path, rest) ← keyFor fuel (skipSpace more)
      return (name :: path, rest)
    | rest => return ([name], rest)

def nesting : Nat := 80

def key (cs : List Char) : Option (List String × List Char) := do
  let (path, rest) ← keyFor cs.length cs
  if path.length < nesting then some (path, rest) else none

def digitsOf? (radix : Nat) : List Char → Option (List Char)
  | [] => none
  | [c] => (Numeral.digit? radix c).map fun _ => [c]
  | c :: '_' :: rest => do
    let _ ← Numeral.digit? radix c
    return c :: (← digitsOf? radix rest)
  | c :: rest => do
    let _ ← Numeral.digit? radix c
    return c :: (← digitsOf? radix rest)

/-- A number from digits, below `2 ^ 63`, or at it if it is to be negative. -/
def numberOf? (radix : Nat) (negative : Bool) (digits : List Char) : Option Value :=
  let n := digits.foldl (fun n c => n * radix + (Numeral.digit? radix c).getD 0) 0
  if negative then if n ≤ Bound.int then some (.int (-n)) else none
  else if n < Bound.int then some (.int n) else none

/-- A decimal number, which starts with a zero only if it is one. -/
def decimal? (negative : Bool) (cs : List Char) : Option Value := do
  let digits ← digitsOf? 10 cs
  if digits.head? == some '0' && digits.length != 1 then none else numberOf? 10 negative digits

def number? : List Char → Option Value
  | '+' :: cs => decimal? false cs
  | '-' :: cs => decimal? true cs
  | '0' :: 'x' :: cs => (digitsOf? 16 cs).bind (numberOf? 16 false)
  | '0' :: 'o' :: cs => (digitsOf? 8 cs).bind (numberOf? 8 false)
  | '0' :: 'b' :: cs => (digitsOf? 2 cs).bind (numberOf? 2 false)
  | cs => decimal? false cs

/-- Whether a text starts with a minus, and what follows its sign. -/
def signOf : List Char → Bool × List Char
  | '+' :: cs => (false, cs)
  | '-' :: cs => (true, cs)
  | cs => (false, cs)

def isDigitPart (c : Char) : Bool := c.isDigit || c == '_'

def fraction? : List Char → Option (List Char × List Char)
  | '.' :: rest => (digitsOf? 10 (rest.takeWhile isDigitPart)).map (·, rest.dropWhile isDigitPart)
  | cs => some ([], cs)

/-- The exponent of a real, if one is written, at its end. -/
def exponent? : List Char → Option Int
  | [] => some 0
  | c :: rest => do
    guard (c = 'e' || c = 'E')
    let (negative, rest) := signOf rest
    let n : Int := RealText.valueOf (← digitsOf? 10 rest)
    return if negative then -n else n

/-- A real without its sign, with a fraction or an exponent. -/
def magnitude? (cs : List Char) : Option Float := do
  let whole ← digitsOf? 10 (cs.takeWhile isDigitPart)
  guard (whole.head? != some '0' || whole.length == 1)
  let rest := cs.dropWhile isDigitPart
  guard !rest.isEmpty
  let (fraction, rest) ← fraction? rest
  let exponent ← exponent? rest
  let digits := (whole ++ fraction).dropWhile (· == '0')
  return RealText.round (RealText.valueOf digits) digits.length (exponent - fraction.length)

/-- A real from its characters; one that is too large for a real is none. -/
def real? (cs : List Char) : Option Value :=
  match signOf cs with
  | (negative, ['i', 'n', 'f']) => some (.real (if negative then -1.0 / 0.0 else 1.0 / 0.0))
  | (_, ['n', 'a', 'n']) => some (.real (0.0 / 0.0))
  | (negative, cs) => do
    let x ← magnitude? cs
    if negative then some (.real (-x)) else if x.isInf then none else some (.real x)

def isWordPart (c : Char) : Bool :=
  c.isAlphanum || c == '_' || c == '+' || c == '-' || c == '.' || c == ':'

def isDate (cs : List Char) : Bool := (date? cs).any (·.2.isEmpty)

/-- A word and what follows it; a date and a time with a blank between them are one word. -/
def wordSpan (cs : List Char) : List Char × List Char :=
  let first := cs.takeWhile isWordPart
  match cs.dropWhile isWordPart with
  | ' ' :: c :: rest =>
    if c.isDigit && isDate first then
      (first ++ ' ' :: (c :: rest).takeWhile isWordPart, (c :: rest).dropWhile isWordPart)
    else (first, ' ' :: c :: rest)
  | rest => (first, rest)

/-- A value that is a word: a truth value, a number or a moment. -/
def word (cs : List Char) : Option (Value × List Char) :=
  let (chars, rest) := wordSpan cs
  let v : Option Value := match chars with
    | ['t', 'r', 'u', 'e'] => some (.bool true)
    | ['f', 'a', 'l', 's', 'e'] => some (.bool false)
    | _ => ((number? chars).or (real? chars)).or ((moment? chars).map .moment)
  v.map (·, rest)

def text (cs : List Char) : Option (Value × List Char) :=
  match cs with
  | '"' :: '"' :: '"' :: rest => (basicLines false [] (dropFirstLineEnd rest)).map fun (s, rest) => (.str s, rest)
  | '\'' :: '\'' :: '\'' :: rest => (literalLines [] (dropFirstLineEnd rest)).map fun (s, rest) => (.str s, rest)
  | '"' :: rest => (basic [] rest).map fun (s, rest) => (.str s, rest)
  | '\'' :: rest => (literal [] rest).map fun (s, rest) => (.str s, rest)
  | _ => none

def arePathsApart : List (List String) → Bool
  | [] => true
  | path :: rest => rest.all (fun other => !path.isPrefixOf other && !other.isPrefixOf path) && arePathsApart rest

mutual

/-- A value inside lists and tables, of which `room` more may be opened; `fuel` bounds how many values there are. -/
def value : Nat → Nat → List Char → Option (Value × List Char)
  | 0, _, _ => none
  | fuel + 1, room, cs =>
    match cs, room with
    | '[' :: rest, room + 1 => do
      let rest ← skipLines false rest
      items fuel room [] rest
    | '\x7b' :: rest, room + 1 =>
      match skipSpace rest with
      | '\x7d' :: rest => some (.table [], rest)
      | rest => entries fuel room [] rest
    | '"' :: _, _ | '\'' :: _, _ => text cs
    | _, _ => word cs

/-- The items of a list; a comma may follow the last. -/
def items : Nat → Nat → List Value → List Char → Option (Value × List Char)
  | 0, _, _, _ => none
  | fuel + 1, room, done, cs =>
    match cs with
    | ']' :: rest => some (.arr done.reverse, rest)
    | _ => do
      let (v, rest) ← value fuel room cs
      match ← skipLines false rest with
      | ',' :: rest =>
        let rest ← skipLines false rest
        items fuel room (v :: done) rest
      | ']' :: rest => some (.arr (v :: done).reverse, rest)
      | _ => none

/-- The entries of a table in braces, all on one line. -/
def entries : Nat → Nat → List (List String × Value) → List Char → Option (Value × List Char)
  | 0, _, _, _ => none
  | fuel + 1, room, done, cs => do
    let (path, v, rest) ← entry fuel room cs
    let done := (path, v) :: done
    match skipSpace rest with
    | ',' :: rest => entries fuel room done (skipSpace rest)
    | '\x7d' :: rest => if arePathsApart (done.map (·.1)) then some (.table done.reverse, rest) else none
    | _ => none

def entry : Nat → Nat → List Char → Option (List String × Value × List Char)
  | 0, _, _ => none
  | fuel + 1, room, cs => do
    let (path, rest) ← key cs
    match skipSpace rest with
    | '=' :: rest =>
      let (v, rest) ← value fuel room (skipSpace rest)
      return (path, v, rest)
    | _ => none

end

def statement (cs : List Char) : Option (Statement × List Char) :=
  match cs with
  | '[' :: rest => do
    let (path, rest) ← key (skipSpace rest)
    match skipSpace rest with
    | ']' :: rest => return (.header path, ← statementEnd rest)
    | _ => none
  | _ => do
    let (path, v, rest) ← entry (cs.length + 2) (nesting - 1) cs
    return (.entry path v, ← statementEnd rest)

/-- At most `fuel` statements. -/
def statementsFor : Nat → List Char → Option (List Statement)
  | 0, _ => none
  | fuel + 1, cs => do
    match ← skipLines false cs with
    | [] => return []
    | cs =>
      let (s, rest) ← statement cs
      return s :: (← statementsFor fuel rest)

/-- **The statements of a file.**  A mark of the byte order may stand in front of them. -/
def statements? (file : String) : Option (List Statement) :=
  let cs := match file.toList with
    | '\uFEFF' :: rest => rest
    | cs => cs
  statementsFor (cs.length + 1) cs

end Toml

end PseudoVm
