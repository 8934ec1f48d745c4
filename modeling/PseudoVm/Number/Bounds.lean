/-!
# Number.Bounds: the sizes of machine numbers

Powers of two that bound numbers of a fixed width.
-/
namespace PseudoVm

namespace Bound

def halfWord : Nat := 0x100000000

/-- 2^52, the bit of a real's mantissa that is not stored. -/
def mantissa : Nat := 0x10000000000000

/-- 2^63, one past the largest 64-bit integer and the magnitude of the smallest. -/
def int : Nat := 0x8000000000000000

/-- 2^63 - 1, the most bytes that one block of storage can have. -/
def block : Nat := 0x7FFFFFFFFFFFFFFF

def word : Nat := 0x10000000000000000

/-- 2^127, one past the largest 128-bit integer and the magnitude of the smallest. -/
def wideInt : Nat := 0x80000000000000000000000000000000

end Bound

end PseudoVm
