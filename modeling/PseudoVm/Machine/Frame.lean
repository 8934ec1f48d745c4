import PseudoVm.Image.Basic
import PseudoVm.Value.Fault
/-!
# Machine.Frame: activations of scopes

A frame is one activation of a scope.  It keeps the arguments exactly as they were passed beside the parameters,
which the program may overwrite, so that the activation can be started again.
-/
namespace PseudoVm

/-- One activation of a scope. -/
structure Frame where
  scope : ScopeId
  /-- Offset of the first instruction. -/
  start : Nat
  /-- Offset of the call in the caller. -/
  returnPc : Nat
  /-- Arguments as passed. -/
  args : List Value
  params : List Value
  /-- A local may not have been assigned. -/
  locals : List (Option Value)
  /-- Operands in flight, the latest first. -/
  eval : List Value
  deriving Repr

namespace Frame

def fresh (scope : ScopeId) (start returnPc : Nat) (args : List Value) (locals : Nat) : Frame :=
  ⟨scope, start, returnPc, args, args, List.replicate locals none, []⟩

def reset (f : Frame) : Frame := { f with params := f.args, locals := f.locals.map fun _ => none, eval := [] }

/-- The values that a frame holds beside its operands, in the order in which it lets them go. -/
def cellValues (f : Frame) : List Value := f.args ++ f.params ++ f.locals.filterMap (·)

/-- The values that a frame holds, in the order in which it lets them go. -/
def values (f : Frame) : List Value := f.cellValues ++ f.eval.reverse

end Frame

end PseudoVm
