/-!
# Library.Basic: the library's functions

Programs call the library by number.  The numbers follow the order of `LibraryFunction.all`, so the order is
part of the image format.
-/
namespace PseudoVm

/-- The functions that programs can call. -/
inductive LibraryFunction
  | display | inputInteger | inputReal | inputString | inputCharacter | inputBoolean | random
  | sqrt | pow | abs | cos | round | sin | tan | toInteger | toReal
  | integerFormat | realFormat | currencyFormat
  | length | append | toUpper | toLower | substring | contains
  | stringToInteger | stringToReal | isInteger | isReal
  | openOutputFile | openAppendFile | openInputFile | closeOutputFile | closeInputFile | writeFile
  | readInteger | readReal | readString | readCharacter | readBoolean | eof
  deriving DecidableEq, Repr

namespace LibraryFunction

/-- Every function, in the order of their numbers. -/
def all : List LibraryFunction :=
  [.display, .inputInteger, .inputReal, .inputString, .inputCharacter, .inputBoolean, .random,
   .sqrt, .pow, .abs, .cos, .round, .sin, .tan, .toInteger, .toReal,
   .integerFormat, .realFormat, .currencyFormat,
   .length, .append, .toUpper, .toLower, .substring, .contains,
   .stringToInteger, .stringToReal, .isInteger, .isReal,
   .openOutputFile, .openAppendFile, .openInputFile, .closeOutputFile, .closeInputFile, .writeFile,
   .readInteger, .readReal, .readString, .readCharacter, .readBoolean, .eof]

def name : LibraryFunction → String
  | .display => "Display"
  | .inputInteger => "InputInteger"
  | .inputReal => "InputReal"
  | .inputString => "InputString"
  | .inputCharacter => "InputCharacter"
  | .inputBoolean => "InputBoolean"
  | .random => "random"
  | .sqrt => "sqrt"
  | .pow => "pow"
  | .abs => "abs"
  | .cos => "cos"
  | .round => "round"
  | .sin => "sin"
  | .tan => "tan"
  | .toInteger => "toInteger"
  | .toReal => "toReal"
  | .integerFormat => "integerFormat"
  | .realFormat => "realFormat"
  | .currencyFormat => "currencyFormat"
  | .length => "length"
  | .append => "append"
  | .toUpper => "toUpper"
  | .toLower => "toLower"
  | .substring => "substring"
  | .contains => "contains"
  | .stringToInteger => "stringToInteger"
  | .stringToReal => "stringToReal"
  | .isInteger => "isInteger"
  | .isReal => "isReal"
  | .openOutputFile => "OpenOutputFile"
  | .openAppendFile => "OpenAppendFile"
  | .openInputFile => "OpenInputFile"
  | .closeOutputFile => "CloseOutputFile"
  | .closeInputFile => "CloseInputFile"
  | .writeFile => "WriteFile"
  | .readInteger => "ReadInteger"
  | .readReal => "ReadReal"
  | .readString => "ReadString"
  | .readCharacter => "ReadCharacter"
  | .readBoolean => "ReadBoolean"
  | .eof => "eof"

def ofIndex? (index : Nat) : Option LibraryFunction := all[index]?

def indexOf? (name : String) : Option Nat := all.findIdx? (·.name == name)

def ofName? (name : String) : Option LibraryFunction := all.find? (·.name == name)

end LibraryFunction

/-- The name of the library function with a number, or a question mark. -/
def libraryName (index : Nat) : String := ((LibraryFunction.ofIndex? index).map (·.name)).getD "?"

end PseudoVm
