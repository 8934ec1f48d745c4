import PseudoVm.Image.Basic
import PseudoVm.Number.Bounds
/-!
# Session.LineTable: source lines and instructions

Lines are counted from 1; an instruction on line 0 has no source.  A breakpoint on a line binds to the first
instruction of the line in the order of the code: the table is filled by one walk over the code, in which the first
instruction to come by takes the row of its line.
-/
namespace PseudoVm

structure LineTable where
  /-- The first instruction of each line, by line. -/
  firsts : Array (Option Nat)
  /-- The source line of each instruction. -/
  lines : List Nat
  deriving DecidableEq, Repr

namespace LineTable

/-- An instruction takes the row of its line, unless an earlier one has it. -/
def enter (firsts : Array (Option Nat)) (pc line : Nat) : Array (Option Nat) :=
  if 0 < line ∧ firsts[line]? = some none then firsts.setIfInBounds line (some pc) else firsts

/-- Enters the instructions from an offset on, given their lines. -/
def fill (firsts : Array (Option Nat)) (pc : Nat) : List Nat → Array (Option Nat)
  | [] => firsts
  | line :: rest => fill (enter firsts pc line) (pc + 1) rest

/-- One past the highest line, 0 without code. -/
def rowsFor (lines : List Nat) : Nat := (lines.max?.map (· + 1)).getD 0

/-- The table of instructions on these lines. -/
def ofLines (lines : List Nat) : LineTable := ⟨fill (.replicate (rowsFor lines) none) 0 lines, lines⟩

/-- The bytes that a row takes. -/
def rowSize : Nat := 16

/-- The table of instructions on these lines: `none` if the rows up to the highest line are too many for a table. -/
def ofLines? (lines : List Nat) : Option LineTable :=
  if Bound.block < rowsFor lines * rowSize then none else some (ofLines lines)

def ofImage? (image : Image) : Option LineTable := ofLines? (image.code.toList.map (·.pos.line))

/-- The first instruction of a line. -/
def firstOf? (t : LineTable) (line : Nat) : Option Nat := (t.firsts[line]?).join

/-- The line of an instruction, 0 if there is none. -/
def lineAt (t : LineTable) (pc : Nat) : Nat := t.lines.getD pc 0

def carriesCode (t : LineTable) (line : Nat) : Bool := (t.firstOf? line).isSome

/-- One past the highest line, 0 without code. -/
def lineCount (t : LineTable) : Nat := t.firsts.size

def size (t : LineTable) : Nat := t.lines.length

/-- The lines that carry instructions, ascending. -/
def validLines (t : LineTable) : List Nat := (List.range t.lineCount).filter t.carriesCode

end LineTable

end PseudoVm
