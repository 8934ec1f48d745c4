import PseudoVm.Proofs.Image.BuildResult
/-!
# Image.BuiltIndices: built images carry no dangling index

An index is handed out before the image is complete, so what it points to can only be judged at the end.  The tables
never lose an entry, though: if every index in an emitted instruction or an added method was handed out, all of them
have entries in the finished image (`Builder.Follows.not_dangles`).  All that the validator can then say about a label
is that it stands past the code, which happens only if it was placed after the last instruction.
-/
namespace PseudoVm

/-- A problem that tells of an index without an entry. -/
def ProblemKind.isDangling : ProblemKind → Bool
  | .badGlobalScope _ | .labelIndexOutOfBounds _ _ | .stringIndexOutOfBounds _ _ | .classIndexOutOfBounds _ _
  | .scopeIndexOutOfBounds _ _ => true
  | _ => false

theorem Image.Grounds.dangles {image : Image} {kind : ProblemKind} (h : image.Grounds kind)
    (hk : kind.isDangling = true) : ∃ index, image.Dangles index := by
  cases kind with
  | badGlobalScope | labelIndexOutOfBounds | stringIndexOutOfBounds | classIndexOutOfBounds | scopeIndexOutOfBounds =>
    exact ⟨_, h⟩
  | _ => cases hk

namespace Builder

variable {b : Builder} {r : Record}

/-- The indices that an operation brings into the image, in an instruction or in a method. -/
def Operation.carries : Operation → List TableIndex
  | .begin _ id => [.scope id]
  | .emit op => op.indices
  | .method _ m => m.indices
  | _ => []

theorem Operation.carries_of_emits? {o : Operation} {op : Op} (h : o.emits? = some op) : o.carries = op.indices := by
  cases o <;> cases h <;> rfl

namespace Record

/-- **A label was placed after the last instruction.** -/
def PlacesLast (r : Record) (id : LabelId) : Prop :=
  ∃ past x rest, r = past ++ x :: rest ∧ x.1.places? = some id ∧ ¬ Places past id ∧ emitted (x :: rest) = []

theorem PlacesAt.placesLast {id : LabelId} {pc : Nat} (h : r.PlacesAt id pc) (hle : r.emitted.length ≤ pc) :
    r.PlacesLast id := by
  obtain ⟨past, x, ⟨rest, rfl⟩, hx, hfirst, hpc⟩ := h
  rw [List.append_assoc, List.singleton_append] at hle ⊢
  refine ⟨past, x, rest, rfl, hx, hfirst, List.eq_nil_of_length_eq_zero ?_⟩
  have hsum : (emitted (past ++ x :: rest)).length = (emitted past).length + (emitted (x :: rest)).length := by
    rw [emitted, List.filterMap_append, List.length_append]
    rfl
  omega

end Record

namespace Follows

variable (h : Follows r b)

include h

theorem has_image {index : TableIndex} (hi : r.Gives index) : b.image.Has index := by
  have hhas := h.tables.given index hi
  cases index <;> exact hhas

/-- **Nothing dangles if every index that was brought in was handed out.** -/
theorem not_dangles (hgiven : ∀ x ∈ r, ∀ index ∈ x.1.carries, r.Gives index) (index : TableIndex) :
    ¬ b.image.Dangles index := by
  rintro ⟨hc, hmissing⟩
  cases hc with
  | program => exact hmissing h.tables.global
  | @code i _ hi hidx =>
    have hop : i.op ∈ r.emitted := by
      rw [← h.code.ops]
      exact List.mem_map_of_mem (Array.mem_toList_iff.2 hi)
    obtain ⟨x, hx, hemits⟩ := List.mem_filterMap.1 hop
    exact hmissing (h.has_image (hgiven x hx index (by rw [Operation.carries_of_emits? hemits]; exact hidx)))
  | methods hc hm hidx =>
    obtain ⟨cls, a, hx⟩ := h.tables.methods _ hc _ hm
    exact hmissing (h.has_image (hgiven _ hx index hidx))

theorem placesLast (hall : r.PlacesAll) {l : Label} (hl : l ∈ b.image.labels) (hpc : b.image.code.size ≤ l.pc) :
    ∃ id, b.image.labels[id]? = some l ∧ r.PlacesLast id := by
  obtain ⟨id, hid⟩ := Array.getElem?_of_mem hl
  refine ⟨id, hid, ((h.label_image hall).1 hid).2.placesLast ?_⟩
  rw [← h.code.size]
  exact hpc

end Follows

/-- **Built images carry no dangling index.**  If every index in an emitted instruction or an added method was handed
out by the builder, the validator reports none of them in the finished image, and reports only such labels as past the
code that were placed after the last instruction. -/
theorem finish_no_dangling {globals : List String} {os : List Operation} {image : Image}
    (hr : (new globals).run? os = some (r, b)) (hgiven : ∀ x ∈ r, ∀ index ∈ x.1.carries, r.Gives index)
    (hok : b.finish = .ok image) : ∃ problems, image.validate = some problems ∧ ∀ p ∈ problems,
      p.kind.isDangling = false ∧ ∀ name target len, p.kind = .labelOutOfBounds name target len →
        ∃ id, image.labels[id]? = some ⟨name, target⟩ ∧ r.PlacesLast id := by
  have hf : Follows r b := ((follows_new globals).run? hr).1
  obtain ⟨⟨-, -, hall⟩, rfl⟩ := hf.finish_eq_ok.1 hok
  obtain ⟨problems, hvalidate, -, hgrounds⟩ := b.image.exists_validate
  refine ⟨problems, hvalidate, fun p hp => ⟨?_, fun name target len hk => ?_⟩⟩
  · refine Bool.eq_false_iff.2 fun hdangling => ?_
    obtain ⟨index, hd⟩ := (hgrounds p hp).dangles hdangling
    exact hf.not_dangles hgiven index hd
  · have hpast := hgrounds p hp
    rw [hk] at hpast
    exact hf.placesLast hall hpast.1 hpast.2

/-- A jump to a label that is placed after it, with no instruction to follow. -/
def jumpPastEnd : Record :=
  [(.newLabel "end", .index (.label 0)), (.emit (.jump 0), .offset 0), (.place 0, .done)]

theorem finish_no_dangling_jumpPastEnd : ∃ b image, (new []).run? (jumpPastEnd.map Prod.fst) = some (jumpPastEnd, b) ∧
    (∀ x ∈ jumpPastEnd, ∀ index ∈ x.1.carries, jumpPastEnd.Gives index) ∧ b.finish = .ok image ∧
    image.validate = some [⟨0, .labelOutOfBounds "end" 1 1⟩] ∧
    ∃ id, image.labels[id]? = some ⟨"end", 1⟩ ∧ jumpPastEnd.PlacesLast id := by
  let b := (((new []).newLabel "end").2.emit (.jump 0)).2.setPlaced 0 ⟨"end", 0⟩
  have hr : (new []).run? (jumpPastEnd.map Prod.fst) = some (jumpPastEnd, b) := rfl
  have hgiven : ∀ x ∈ jumpPastEnd, ∀ index ∈ x.1.carries, jumpPastEnd.Gives index := by
    simp [jumpPastEnd, Operation.carries, Op.indices, Record.Gives]
  have hok : b.finish = .ok
      { code := #[⟨⟨1, 1⟩, .jump 0⟩], labels := #[⟨"end", 1⟩], strings := #[], classes := #[],
        scopes := #[Scope.global []], globalScope := 0 } := rfl
  obtain ⟨problems, hvalidate, hproblems⟩ := finish_no_dangling hr hgiven hok
  have hfound : problems = [⟨0, .labelOutOfBounds "end" 1 1⟩] := by
    rw [← Option.some.injEq, ← hvalidate]
    decide
  rw [hfound] at hvalidate hproblems
  exact ⟨_, _, hr, hgiven, hok, hvalidate, (hproblems _ List.mem_cons_self).2 _ _ _ rfl⟩

end Builder

end PseudoVm
