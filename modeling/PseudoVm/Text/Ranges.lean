/-!
# Text.Ranges: classes of characters

A class of characters is given by its runs of code points, ascending.
-/
namespace PseudoVm

/-- The first and last code point of each run of a class, ascending. -/
abbrev Ranges := Array (Nat × Nat)

def Ranges.has (runs : Ranges) (c : Char) : Bool := runs.any fun r => r.1 ≤ c.toNat && c.toNat ≤ r.2

end PseudoVm
