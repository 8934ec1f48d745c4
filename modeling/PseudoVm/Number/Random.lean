import PseudoVm.Number.Bounds
/-!
# Number.Random: reproducible random numbers

The generator is a keyed stream of 32-bit words: word `i` belongs to block `i / 16`, which twelve rounds of
mixing compute from the key and the block's number.  A seed of 64 bits is stretched into the key by a
congruential sequence.  The state is the key and the index of the next word, so a draw is a pure function.
-/
namespace PseudoVm

/-- A generator: its key, and how many words have been drawn. -/
structure Random where
  key : List UInt32
  next : Nat
  deriving DecidableEq, Repr

namespace Random

/-- A word rotated left by `n` bits, `0 < n < 32`. -/
def rotateLeft (w n : UInt32) : UInt32 := (w <<< n) ||| (w >>> (32 - n))

def keyWord (state : UInt64) : UInt32 :=
  let shifted := (((state >>> 18) ^^^ state) >>> 27).toUInt32
  let turn := (state >>> 59).toUInt32
  if turn = 0 then shifted else rotateLeft shifted (32 - turn)

/-- The key words that follow a state of the congruential sequence. -/
def keyWords (state : UInt64) : Nat → List UInt32
  | 0 => []
  | n + 1 =>
    let state := state * 0x5851F42D4C957F2D + 0xA17654E46FBE17F3
    keyWord state :: keyWords state n

def ofSeed (seed : UInt64) : Random := ⟨keyWords seed 8, 0⟩

/-- Mixes four words of a block, given by their places. -/
def quarter (w : Array UInt32) (a b c d : Nat) : Array UInt32 :=
  let item (w : Array UInt32) (i : Nat) := w.getD i 0
  let w := w.setIfInBounds a (item w a + item w b)
  let w := w.setIfInBounds d (rotateLeft (item w d ^^^ item w a) 16)
  let w := w.setIfInBounds c (item w c + item w d)
  let w := w.setIfInBounds b (rotateLeft (item w b ^^^ item w c) 12)
  let w := w.setIfInBounds a (item w a + item w b)
  let w := w.setIfInBounds d (rotateLeft (item w d ^^^ item w a) 8)
  let w := w.setIfInBounds c (item w c + item w d)
  w.setIfInBounds b (rotateLeft (item w b ^^^ item w c) 7)

/-- Two rounds: the columns, then the diagonals. -/
def doubleRound (w : Array UInt32) : Array UInt32 :=
  let w := quarter w 0 4 8 12
  let w := quarter w 1 5 9 13
  let w := quarter w 2 6 10 14
  let w := quarter w 3 7 11 15
  let w := quarter w 0 5 10 15
  let w := quarter w 1 6 11 12
  let w := quarter w 2 7 8 13
  quarter w 3 4 9 14

/-- `n` double rounds. -/
def rounds : Nat → Array UInt32 → Array UInt32
  | 0, w => w
  | n + 1, w => rounds n (doubleRound w)

/-- A block of sixteen words: constants, key, block number. -/
def block (key : List UInt32) (number : Nat) : Array UInt32 :=
  let start : Array UInt32 :=
    (#[0x61707865, 0x3320646e, 0x79622d32, 0x6b206574] ++ key.toArray)
      ++ #[UInt32.ofNat number, UInt32.ofNat (number / Bound.halfWord), 0, 0]
  (rounds 6 start).zipWith (· + ·) start

/-- Word `i` of the stream. -/
def word (r : Random) (i : Nat) : UInt32 := (block r.key (i / 16)).getD (i % 16) 0

/-- The next 64 bits, low word first. -/
def draw (r : Random) : UInt64 × Random :=
  ((r.word r.next).toUInt64 ||| ((r.word (r.next + 1)).toUInt64 <<< 32), { r with next := r.next + 2 })

/-- A number from `low` to `high` inclusive, for `low ≤ high`: the draw is scaled to the range, and a second
draw settles the last bit where the first leaves it open. -/
def between (r : Random) (low high : Int64) : Int64 × Random :=
  let range := ((high.toInt - low.toInt + 1) % Bound.word).toNat
  let (first, r) := r.draw
  if range = 0 then (Int64.ofInt first.toNat, r)
  else
    let product := first.toNat * range
    let result : Nat := product / Bound.word
    let rest : Nat := product % Bound.word
    if Bound.word - range < rest then
      let (second, r) := r.draw
      let carry : Nat := if Bound.word ≤ rest + second.toNat * range / Bound.word then 1 else 0
      (low + Int64.ofInt ((result + carry : Nat) : Int), r)
    else (low + Int64.ofInt result, r)

end Random

end PseudoVm
