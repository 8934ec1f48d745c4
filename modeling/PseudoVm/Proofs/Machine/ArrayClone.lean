import PseudoVm.Proofs.Machine.Intact
import PseudoVm.Proofs.Value.Copies
/-!
# Machine.ArrayClone: copies that are independent

The instruction that copies an array pushes a copy of it (`Heap.CopyOf`) and leaves everything as it was.  The arrays of
the copy and those that were there before have none in common, so that stores into the one kind do not show in the other
(`Machine.clone_independent`).
-/
namespace PseudoVm

/-- A store through an element of an array. -/
structure ElementStore where
  array : ArrayId
  index : Nat
  value : Value

namespace Machine

variable {m : Machine} {a : ArrayId}

/-- The machine after a store through an element, whether it fails or not. -/
def storeElement (m : Machine) (s : ElementStore) : Machine :=
  match Exec.store (.element s.array s.index) s.value m with
  | .ok _ m | .error _ m => m.settle

/-- The machine after stores through elements, one after the other. -/
def storeElements (m : Machine) (stores : List ElementStore) : Machine := stores.foldl storeElement m

/-- **What a program holds is supported by its heap.** -/
theorem Intact.supports (hm : m.Intact) {v : Value} (hv : v ∈ m.values) : m.world.heap.Supports v :=
  Heap.supports_of_closed hm.closed (fun _ => id) (Within.values hm v hv)

theorem storeElement_items (s : ElementStore) (ha : s.array ≠ a) :
    (m.storeElement s).world.heap.items? a = m.world.heap.items? a := by
  unfold storeElement
  rw [Exec.store_eq, store_eq_peek]
  cases m.peek (.element s.array s.index) with
  | error f =>
    show (m.letGo [s.value]).settle.world.heap.items? a = _
    rw [settle_heap, letGo_world]
  | ok old =>
    show ((m.write (.element s.array s.index) s.value).letGo old.toList).settle.world.heap.items? a = _
    rw [settle_heap, letGo_world]
    have hindex : s.array.index ≠ a.index := by
      intro h
      obtain ⟨i⟩ := a
      exact ha (congrArg ArrayId.mk h)
    exact (Array.getElem?_modify ..).trans (if_neg hindex)

theorem storeElements_items {stores : List ElementStore} (hne : ∀ s ∈ stores, s.array ≠ a) :
    (m.storeElements stores).world.heap.items? a = m.world.heap.items? a := by
  induction stores generalizing m with
  | nil => rfl
  | cons s stores ih =>
    obtain ⟨hs, hstores⟩ := List.forall_mem_cons.1 hne
    exact (ih hstores).trans (storeElement_items s hs)

/-- **The instruction that copies**: the copy takes the place of the array among the operands. -/
theorem op_arrayClone {f : Frame} {below : List Frame} {id : ArrayId} {eval : List Value} {dims : Nat} {c : Value}
    {h' : Heap} (hst : m.stack = f :: below) (he : f.eval = .array id :: eval)
    (hc : m.world.heap.copy? dims (.array id) = some (c, h')) :
    ∃ m', Exec.op (.arrayClone dims) m = .ok .next m' ∧ m'.world = { m.world with heap := h' } ∧
      m'.stack = { f with eval := c :: eval } :: below := by
  let popped : Machine := { m with stack := { f with eval := eval } :: below }
  let pushed : Machine := { popped.setHeap h' with stack := { f with eval := c :: eval } :: below }
  have hpop : Exec.pop m = .ok (.array id) popped := by
    rw [Exec.pop_eq, hst]
    dsimp only
    rw [he]
  have hcopy : Exec.copyArray dims m = .ok () (pushed.letGo [.array id]) := by
    refine Exec.bind_ok_iff.2 ⟨_, popped, hpop, Exec.holding_ok_iff.2 ⟨pushed, ?_, rfl⟩⟩
    refine Exec.bind_ok_iff.2 ⟨id, popped, rfl, Exec.bind_ok_iff.2 ⟨m.world.heap, popped, rfl, ?_⟩⟩
    rw [hc]
    rfl
  refine ⟨pushed.letGo [.array id], ?_, letGo_world .., letGo_stack ..⟩
  exact Exec.bind_ok_iff.2 ⟨(), _, hcopy, rfl⟩

/-- **Copies of arrays are independent down to the levels that were copied.**  If no path of fewer hops than levels
visits an array twice, the instruction succeeds and leaves every array and object as it was; what it pushes goes as the
array does, with new arrays at the levels below `dims`, one for each path, and the very same values everywhere else.
Whatever is stored through elements of the copy's arrays at those levels does not show in an array that was there before,
and the other way round. -/
theorem clone_independent (m : Machine) {f : Frame} {below : List Frame} {id : ArrayId} {eval : List Value} {dims : Nat}
    (hst : m.stack = f :: below) (he : f.eval = .array id :: eval) (hs : m.world.heap.Supports (.array id))
    (hr : ¬ m.world.heap.Revisits (.array id) dims) :
    ∃ c m', m.world.heap.copy? dims (.array id) = some (c, m'.world.heap) ∧
      Exec.op (.arrayClone dims) m = .ok .next m' ∧ m'.stack = { f with eval := c :: eval } :: below ∧
      m.world.heap.Extends m'.world.heap ∧
      m.world.heap.CopyOf m.world.heap m'.world.heap dims (.array id) c ∧
      (∀ a, m'.world.heap.Copied dims c a → m.world.heap.arrays.size ≤ a.index) ∧
      (∀ stores : List ElementStore, (∀ s ∈ stores, m'.world.heap.Copied dims c s.array) →
        ∀ a : ArrayId, a.index < m.world.heap.arrays.size →
          (m'.storeElements stores).world.heap.items? a = m.world.heap.items? a) ∧
      (∀ stores : List ElementStore, (∀ s ∈ stores, s.array.index < m.world.heap.arrays.size) →
        ∀ a : ArrayId, m'.world.heap.Copied dims c a →
          (m'.storeElements stores).world.heap.items? a = m'.world.heap.items? a) := by
  obtain ⟨⟨c, h'⟩, hc⟩ := Option.isSome_iff_exists.1 ((Heap.copy?_isSome_iff hs dims).2 hr)
  obtain ⟨m', hop, hw, hst'⟩ := op_arrayClone hst he hc
  obtain rfl : m'.world.heap = h' := by rw [hw]
  have hextends := Heap.copyFrom_extends dims hc
  have hcopy := Heap.copyFrom_copies dims .refl hs hc
  have hnew : ∀ a, m'.world.heap.Copied dims c a → m.world.heap.arrays.size ≤ a.index := fun a => hcopy.size_le
  refine ⟨c, m', hc, hop, hst', hextends, hcopy, hnew, fun stores hstores a ha => ?_, fun stores hstores a ha => ?_⟩
  · rw [storeElements_items, hextends.items?_eq a ha]
    rintro s hs rfl
    exact absurd ha (Nat.not_lt_of_le (hnew _ (hstores s hs)))
  · rw [storeElements_items]
    rintro s hs rfl
    exact absurd (hstores s hs) (Nat.not_lt_of_le (hnew _ ha))

/-- A program that puts an array into two positions of another, which it then copies to two levels. -/
def shareAndCopy : Image where
  code := #[⟨⟨1, 1⟩, .litBool true⟩, ⟨⟨1, 1⟩, .arrayNew 1⟩, ⟨⟨2, 1⟩, .dup⟩, ⟨⟨2, 1⟩, .arrayNew 2⟩,
    ⟨⟨3, 1⟩, .arrayClone 2⟩, ⟨⟨4, 1⟩, .halt 1⟩]
  labels := #[]
  strings := #[]
  classes := #[]
  scopes := #[.global []]
  globalScope := 0

/-- That program where it is about to copy. -/
def aboutToCopy : Machine :=
  (⟨shareAndCopy, {}, 0, [.fresh 0 0 0 [] 0], 0, none, [], [], selfCallStart.world⟩ : Machine).stepped 4

/-- What the array shares between its positions, its copy does not. -/
theorem clone_unshares :
    aboutToCopy.world.heap.follow? (.array ⟨1⟩) [0] = aboutToCopy.world.heap.follow? (.array ⟨1⟩) [1] ∧
    ∃ c m', Exec.op (.arrayClone 2) aboutToCopy = .ok .next m' ∧
      m'.world.heap.follow? c [0] ≠ m'.world.heap.follow? c [1] := by
  have hst : aboutToCopy.stack = [{ Frame.fresh 0 0 0 [] 0 with eval := [.array ⟨1⟩] }] := rfl
  have hlive : Live shareAndCopy {} aboutToCopy := (Live.start (World.closed_of_empty rfl rfl) rfl).stepped 4
  have hs : aboutToCopy.world.heap.Supports (.array ⟨1⟩) := hlive.intact.supports (by
    simp [values, hst, Frame.values])
  have hr : ¬ aboutToCopy.world.heap.Revisits (.array ⟨1⟩) 2 := (Heap.copy?_isSome_iff hs 2).1 (by decide)
  obtain ⟨c, m', -, hop, -, -, hcopy, -⟩ := clone_independent aboutToCopy hst rfl hs hr
  refine ⟨rfl, c, m', hop, fun heq => ?_⟩
  obtain ⟨a, ha, -⟩ := hcopy.array [0] ⟨0⟩ (by decide) rfl
  cases hcopy.distinct [0] [1] a (by decide) (by decide) ha (heq.symm.trans ha)

end Machine

end PseudoVm
