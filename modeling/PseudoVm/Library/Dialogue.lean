import PseudoVm.Library.Arguments
/-!
# Library.Dialogue: functions on the console

Input functions print a prompt and read a line; a line that is not understood is answered with a complaint and
the prompt again, until one is, or until no line is left.
-/
namespace PseudoVm

namespace Library

/-- The texts and the reader of an input function. -/
structure Dialogue (α : Type) where
  prompt : String
  complaint : String
  understand : String → Option α

/-- Asks at most `tries` times. -/
def Dialogue.askFor {α : Type} (d : Dialogue α) : Nat → Console → Except Fault α × Console
  | 0, c => (.error (.io "unexpected end of input"), c)
  | tries + 1, c =>
    let c := c.write d.prompt
    match c.readLine with
    | (.error e, c) => (.error e, c)
    | (.ok line, c) =>
      match d.understand line with
      | some v => (.ok v, c)
      | none => d.askFor tries (c.write d.complaint)

/-- **Asks until a line is understood or none is left.** -/
def Dialogue.ask {α : Type} (d : Dialogue α) (c : Console) : Except Fault α × Console :=
  d.askFor (c.source.size + 1) c

/-- The truth value that one of twelve spellings stands for. -/
def truth? (s : String) : Option Bool :=
  if s ∈ ["1", "t", "T", "TRUE", "true", "True"] then some true
  else if s ∈ ["0", "f", "F", "FALSE", "false", "False"] then some false
  else none

/-- The only byte of a text. -/
def onlyByte? (s : String) : Option UInt8 :=
  match bytesOf s with
  | [b] => some b
  | _ => none

def integerDialogue : Dialogue Int64 :=
  ⟨"integer> ", "error, invalid integer, try again\n", fun s => (Numeral.readInt s.toList).toOption⟩

def realDialogue : Dialogue Float :=
  ⟨"real> ", "error, invalid real, try again\n", fun s => (RealText.read s.toList).toOption⟩

def characterDialogue : Dialogue UInt8 :=
  ⟨"character> ", "error, input exactly 1 character, try again\n", onlyByte?⟩

def booleanDialogue : Dialogue Bool := ⟨"boolean> ", "error, invalid boolean, try again\n", truth?⟩

def stringDialogue : Dialogue String := ⟨"string> ", "", some⟩

end Library

end PseudoVm
