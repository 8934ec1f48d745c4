/-!
# Text.Blank: white space

The characters with the White_Space property, and the two operations that depend on them: stripping both ends
of a text and cutting it into words.
-/
namespace PseudoVm

/-- Characters with the White_Space property. -/
def isBlank (c : Char) : Bool :=
  let n := c.toNat
  (0x09 ≤ n && n ≤ 0x0D) || n == 0x20 || n == 0x85 || n == 0xA0 || n == 0x1680
    || (0x2000 ≤ n && n ≤ 0x200A) || n == 0x2028 || n == 0x2029 || n == 0x202F || n == 0x205F || n == 0x3000

namespace Blank

/-- Characters without white space at either end. -/
def trim (cs : List Char) : List Char := ((cs.dropWhile isBlank).reverse.dropWhile isBlank).reverse

/-- The words of a text whose current word has been read up to `word`, kept backwards. -/
def wordsFrom (word : List Char) : List Char → List (List Char)
  | [] => if word.isEmpty then [] else [word.reverse]
  | c :: rest =>
    if isBlank c then
      if word.isEmpty then wordsFrom [] rest else word.reverse :: wordsFrom [] rest
    else wordsFrom (c :: word) rest

/-- The longest runs of characters that are not white space. -/
def words (cs : List Char) : List (List Char) := wordsFrom [] cs

end Blank

/-- A text without white space at either end. -/
def trimBlank (s : String) : String := String.ofList (Blank.trim s.toList)

def words (s : String) : List String := (Blank.words s.toList).map String.ofList

end PseudoVm
