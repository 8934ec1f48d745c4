import PseudoVm.Text.GraphemeClass
/-!
# Text.Grapheme: what a reader takes for one character

A text is cut into clusters (extended grapheme clusters).  Each neighbour either joins the cluster before it or
begins a new one; `Cluster` is what has to be known of the cluster so far.
-/
namespace PseudoVm

namespace Grapheme

/-- How far a cluster has got towards one pictograph joined to another. -/
inductive Picture
  | none
  /-- A pictograph and marks. -/
  | shown
  /-- The same and a joiner. -/
  | joined
  deriving DecidableEq, Repr

def Picture.next : Picture → GraphemeClass → Picture
  | _, .pictograph => .shown
  | .shown, .extend | .shown, .linker | .shown, .nonJoiner => .shown
  | .shown, .joiner => .joined
  | _, _ => .none

/-- How far a cluster has got towards one consonant linked to another. -/
inductive Conjunct
  | none
  /-- A consonant and marks. -/
  | begun
  /-- The same with a linker among the marks. -/
  | linked
  deriving DecidableEq, Repr

def Conjunct.next : Conjunct → GraphemeClass → Conjunct
  | _, .consonant => .begun
  | .begun, .linker => .linked
  | c, .linker | c, .extend | c, .joiner => c
  | _, _ => .none

/-- A cluster so far: its last class, and what it has got to. -/
structure Cluster where
  last : GraphemeClass
  picture : Picture
  conjunct : Conjunct
  /-- Whether it ends in the first half of a flag. -/
  halfFlag : Bool
  deriving DecidableEq, Repr

namespace Cluster

def start (k : GraphemeClass) : Cluster := ⟨k, Picture.none.next k, Conjunct.none.next k, k == .regional⟩

def next (s : Cluster) (k : GraphemeClass) : Cluster :=
  ⟨k, s.picture.next k, s.conjunct.next k, k == .regional && !s.halfFlag⟩

/-- **Whether a character joins a cluster.** -/
def joins (s : Cluster) (k : GraphemeClass) : Bool :=
  match s.last, k with
  | .ret, .feed => true
  | .ret, _ | .feed, _ | .control, _ | _, .ret | _, .feed | _, .control => false
  | .leading, .leading | .leading, .vowel | .leading, .openBlock | .leading, .closedBlock => true
  | .openBlock, .vowel | .openBlock, .trailing | .vowel, .vowel | .vowel, .trailing => true
  | .closedBlock, .trailing | .trailing, .trailing => true
  | _, .extend | _, .linker | _, .nonJoiner | _, .joiner | _, .spacing => true
  | .prepend, _ => true
  | _, .consonant => s.conjunct == .linked
  | _, .pictograph => s.picture == .joined
  | .regional, .regional => s.halfFlag
  | _, _ => false

end Cluster

/-- The clusters of a text whose current cluster has been read up to `current`, kept backwards. -/
def clustersFrom (s : Cluster) (current : List Char) : List Char → List (List Char)
  | [] => [current.reverse]
  | c :: rest =>
    let k := GraphemeClass.of c
    if s.joins k then clustersFrom (s.next k) (c :: current) rest
    else current.reverse :: clustersFrom (.start k) [c] rest

def clusters : List Char → List (List Char)
  | [] => []
  | c :: rest => clustersFrom (.start (GraphemeClass.of c)) [c] rest

end Grapheme

end PseudoVm
