/-!
# Text.Lines: where a line ends

Two ways of reading lines are in use.  A whole text is cut at once (`lines`): a line ends at a line feed, one
carriage return before it belongs to the ending, and text after the last line feed is a line if there is any.
A stream hands out one line at a time (`takeLine`), and the reader strips every carriage return and line feed
at its end (`trimLineEnd`).
-/
namespace PseudoVm

namespace Lines

/-- A finished line, given backwards, without the carriage return that belongs to its ending. -/
def endLine : List Char → List Char
  | '\r' :: line => line.reverse
  | line => line.reverse

/-- The lines of a text whose current line has been read up to `line`, kept backwards. -/
def splitFrom (line : List Char) : List Char → List (List Char)
  | [] => if line.isEmpty then [] else [line.reverse]
  | c :: rest => if c = '\n' then endLine line :: splitFrom [] rest else splitFrom (c :: line) rest

def split (cs : List Char) : List (List Char) := splitFrom [] cs

/-- The next line of a stream with its line feed, and what follows; `none` at the end of the stream. -/
def take? (cs : List Char) : Option (List Char × List Char) :=
  match cs with
  | [] => none
  | _ :: _ =>
    let line := cs.takeWhile (· != '\n')
    match cs.dropWhile (· != '\n') with
    | [] => some (line, [])
    | feed :: rest => some (line ++ [feed], rest)

/-- Whether a character can be part of a line's ending. -/
def isEnding (c : Char) : Bool := c == '\n' || c == '\r'

/-- A line without any of the ending characters it finishes with. -/
def trimEnd (line : List Char) : List Char := (line.reverse.dropWhile isEnding).reverse

end Lines

def lines (s : String) : List String := (Lines.split s.toList).map String.ofList

/-- A line without its ending. -/
def trimLineEnd (s : String) : String := String.ofList (Lines.trimEnd s.toList)

end PseudoVm
