import PseudoVm.Library.Call
import PseudoVm.Proofs.Text.QuotedGrammar
/-!
# Library.FileText: the text of a value in a file

Integers, truth values, characters and strings have a text in a file that says exactly what they are (`Datum`).  The
text is printable ASCII, so it survives being cut into lines, trimmed and decoded; `Datum.understood` says that the
reading function of the value's type makes that value of it.
-/
namespace PseudoVm

namespace Library

/-- A value of one of the types whose text in a file says exactly what the value is. -/
inductive Datum
  | int (n : Int64)
  | bool (b : Bool)
  | char (c : UInt8)
  | str (bytes : Bytes)
  deriving DecidableEq

namespace Datum

/-- The value itself. -/
def value : Datum → Value
  | .int n => .int n
  | .bool b => .bool b
  | .char c => .char c
  | .str bytes => .str bytes

/-- The function that reads values of its type. -/
def reader : Datum → LibraryFunction
  | .int _ => .readInteger
  | .bool _ => .readBoolean
  | .char _ => .readCharacter
  | .str _ => .readString

/-- What that function makes of a line. -/
def understand : Datum → String → Option Value
  | .int _ => integerLine?
  | .bool _ => booleanLine?
  | .char _ => characterLine?
  | .str _ => stringLine?

/-- Its text in a file. -/
def text : Datum → String
  | .int n => Numeral.intText n
  | .bool true => "True"
  | .bool false => "False"
  | .char c => asciiText (Quoted.write Quoted.charDelim [c])
  | .str bytes => asciiText (Quoted.write Quoted.stringDelim bytes)

theorem call_reader (d : Datum) (args : List Value) :
    call d.reader args = attempt (readValue d.reader.name d.understand args) := by cases d <;> rfl

theorem fileText_value (d : Datum) : fileText d.value = .ok (bytesOf d.text) := by
  rcases d with n | (_ | _) | c | bytes
  · rfl
  · rfl
  · rfl
  · show _ = Except.ok (bytesOf (asciiText _))
    rw [bytesOf_asciiText (Quoted.write_printable (.inr rfl) [c])]
    rfl
  · show _ = Except.ok (bytesOf (asciiText _))
    rw [bytesOf_asciiText (Quoted.write_printable (.inl rfl) bytes)]
    rfl

theorem text_printable (d : Datum) : ∀ c ∈ d.text.toList, Printable c := by
  rcases d with n | (_ | _) | c | bytes
  · exact Numeral.intText_printable n
  · exact Printable.of_all (by decide)
  · exact Printable.of_all (by decide)
  · exact asciiText_printable (Quoted.write_printable (.inr rfl) [c])
  · exact asciiText_printable (Quoted.write_printable (.inl rfl) bytes)

/-- **A value's text is understood as that value.** -/
theorem understood (d : Datum) : d.understand d.text = some d.value := by
  rcases d with n | (_ | _) | c | bytes
  · rw [understand, text, integerLine?, Numeral.readInt_intText]
    rfl
  · rfl
  · rfl
  · rw [understand, text, characterLine?, bytesOf_asciiText (Quoted.write_printable (.inr rfl) [c]),
      Quoted.read_write (.inr rfl)]
    rfl
  · rw [understand, text, stringLine?, bytesOf_asciiText (Quoted.write_printable (.inl rfl) bytes),
      Quoted.read_write (.inl rfl)]
    rfl

end Datum

end Library

end PseudoVm
