import Mathlib.Data.List.Perm.Subperm
import PseudoVm.Proofs.Value.Growth
/-!
# Value.Graft: a heap with more storage in it

A graft puts arrays and objects into a heap at a place, and what came after them goes by other identities from then on
(`Graft.value`, `Graft.heap`).  Programs cannot tell: cells are found where their names now say, new storage goes where
it would go, and showing and copying values comes to the same.
-/
namespace PseudoVm

/-- An index once `k` items have come to stand at place `n`. -/
def shift (n k i : Nat) : Nat := if i < n then i else i + k

/-- An array with others put in at place `n`. -/
def splice {α : Type} (n : Nat) (new xs : Array α) : Array α := xs.extract 0 n ++ new ++ xs.extract n xs.size

theorem shift_of_lt {n k i : Nat} (h : i < n) : shift n k i = i := if_pos h

theorem shift_of_le {n k i : Nat} (h : n ≤ i) : shift n k i = i + k := if_neg (Nat.not_lt_of_le h)

theorem shift_injective {n k i j : Nat} (h : shift n k i = shift n k j) : i = j := by
  unfold shift at h
  split at h <;> split at h <;> omega

section Splice

variable {α β : Type} {n : Nat} {new xs : Array α}

theorem size_before (h : n ≤ xs.size) : (xs.extract 0 n).size = n := Array.size_extract_of_le h

theorem size_splice (h : n ≤ xs.size) : (splice n new xs).size = xs.size + new.size := by
  simp only [splice, Array.size_append, Array.size_extract]
  omega

theorem getElem?_splice (h : n ≤ xs.size) (i : Nat) : (splice n new xs)[shift n new.size i]? = xs[i]? := by
  have hbefore := size_before h
  have hput : (xs.extract 0 n ++ new).size = n + new.size := by rw [Array.size_append, hbefore]
  by_cases hi : i < n
  · rw [shift_of_lt hi, splice, Array.getElem?_append_left (by omega), Array.getElem?_append_left (by omega),
      Array.getElem?_extract, if_pos (by omega), Nat.zero_add]
  · have hle := Nat.le_of_not_lt hi
    have hplace : i + new.size - (xs.extract 0 n ++ new).size = i - n := by omega
    rw [shift_of_le hle, splice, Array.getElem?_append_right (by omega), hplace, Array.getElem?_extract]
    split
    · rw [Nat.add_sub_cancel' hle]
    · rw [Array.getElem?_eq_none (by omega)]

theorem getElem?_splice_new (h : n ≤ xs.size) {k : Nat} (hk : k < new.size) : (splice n new xs)[n + k]? = new[k]? := by
  have hbefore := size_before h
  have hplace : n + k - (xs.extract 0 n).size = k := by omega
  rw [splice, Array.getElem?_append_left (by rw [Array.size_append]; omega), Array.getElem?_append_right (by omega),
    hplace]

theorem shift_or (n k i : Nat) : (∃ j, i = shift n k j) ∨ ∃ j, j < k ∧ i = n + j := by
  by_cases h : i < n
  · exact .inl ⟨i, (shift_of_lt h).symm⟩
  · by_cases hk : i < n + k
    · exact .inr ⟨i - n, by omega, by omega⟩
    · exact .inl ⟨i - k, by rw [shift_of_le (by omega)]; omega⟩

theorem eq_splice {ys : Array α} (h : n ≤ xs.size) (hnew : ∀ k, k < new.size → ys[n + k]? = new[k]?)
    (hold : ∀ i, ys[shift n new.size i]? = xs[i]?) : ys = splice n new xs := by
  refine Array.ext_getElem? fun i => ?_
  obtain ⟨j, rfl⟩ | ⟨k, hk, rfl⟩ := shift_or n new.size i
  · rw [hold, getElem?_splice h]
  · rw [hnew k hk, getElem?_splice_new h hk]

theorem push_splice (h : n ≤ xs.size) (x : α) : (splice n new xs).push x = splice n new (xs.push x) := by
  refine eq_splice (Nat.le_trans h (by simp)) (fun k hk => ?_) fun i => ?_
  · rw [Array.getElem?_push, size_splice h, if_neg (by omega), getElem?_splice_new h hk]
  · rw [Array.getElem?_push, Array.getElem?_push, size_splice h, ← shift_of_le h, getElem?_splice h]
    by_cases hi : i = xs.size
    · rw [if_pos hi, hi, if_pos rfl]
    · rw [if_neg hi, if_neg fun he => hi (shift_injective he)]

theorem modify_splice (h : n ≤ xs.size) (i : Nat) (f : α → α) :
    (splice n new xs).modify (shift n new.size i) f = splice n new (xs.modify i f) := by
  refine eq_splice (by rwa [Array.size_modify]) (fun k hk => ?_) fun j => ?_
  · have hne : shift n new.size i ≠ n + k := by
      unfold shift
      split <;> omega
    rw [Array.getElem?_modify, if_neg hne, getElem?_splice_new h hk]
  · rw [Array.getElem?_modify, Array.getElem?_modify, getElem?_splice h]
    by_cases hi : i = j
    · rw [if_pos hi, hi, if_pos rfl]
    · rw [if_neg hi, if_neg fun he => hi (shift_injective he)]

end Splice

/-- **Arrays and objects to be put into a heap**, each kind at a place. -/
structure Graft where
  arraysBefore : Nat
  objectsBefore : Nat
  arrays : Array (Array Value)
  objects : Array (Array (Option Value))

namespace Graft

/-- The identity of an array with the graft in the heap. -/
def array (g : Graft) (id : ArrayId) : ArrayId := ⟨shift g.arraysBefore g.arrays.size id.index⟩

/-- The identity of an object with the graft in the heap. -/
def object (g : Graft) (id : ObjectId) : ObjectId := ⟨shift g.objectsBefore g.objects.size id.index⟩

/-- A reference with the graft in the heap. -/
def reference (g : Graft) : Reference → Reference
  | .element id index => .element (g.array id) index
  | .field id index => .field (g.object id) index
  | r => r

/-- A value with the graft in the heap. -/
def value (g : Graft) : Value → Value
  | .array id => .array (g.array id)
  | .object cls id => .object cls (g.object id)
  | .ref r => .ref (g.reference r)
  | v => v

/-- Storage with the graft in the heap. -/
def storage (g : Graft) : Storage → Storage
  | .array id => .array (g.array id)
  | .object id => .object (g.object id)
  | .file id => .file id

/-- **The heap with the graft in it.** -/
def heap (g : Graft) (h : Heap) : Heap where
  arrays := splice g.arraysBefore g.arrays (h.arrays.map (·.map g.value))
  objects := splice g.objectsBefore g.objects (h.objects.map (·.map (·.map g.value)))

/-- A graft of nothing. -/
def empty : Graft := ⟨0, 0, #[], #[]⟩

/-- The heap reaches up to the places of the graft. -/
structure Fits (g : Graft) (h : Heap) : Prop where
  arrays : g.arraysBefore ≤ h.arrays.size
  objects : g.objectsBefore ≤ h.objects.size

variable (g : Graft) {h : Heap}

theorem array_injective {a b : ArrayId} (h : g.array a = g.array b) : a = b := by
  cases a
  cases b
  cases shift_injective (congrArg ArrayId.index h)
  rfl

theorem object_injective {a b : ObjectId} (h : g.object a = g.object b) : a = b := by
  cases a
  cases b
  cases shift_injective (congrArg ObjectId.index h)
  rfl

theorem storage_injective {s s' : Storage} (h : g.storage s = g.storage s') : s = s' := by
  cases s <;> cases s' <;> simp only [storage, Storage.array.injEq, Storage.object.injEq, reduceCtorEq] at h
  · rw [g.array_injective h]
  · rw [g.object_injective h]
  · exact h

@[simp] theorem storage?_value (v : Value) : (g.value v).storage? = v.storage?.map g.storage := by
  cases v with
  | ref r => cases r <;> rfl
  | _ => rfl

theorem value_of_fixed {v : Value} (h : v.Within fun s => g.storage s = s) : g.value v = v := by
  cases v with
  | array id =>
    have hid := h _ rfl
    simp only [storage, Storage.array.injEq] at hid
    rw [value, hid]
  | object cls id =>
    have hid := h _ rfl
    simp only [storage, Storage.object.injEq] at hid
    rw [value, hid]
  | ref r =>
    cases r with
    | element id i =>
      have hid := h _ rfl
      simp only [storage, Storage.array.injEq] at hid
      rw [value, reference, hid]
    | field id i =>
      have hid := h _ rfl
      simp only [storage, Storage.object.injEq] at hid
      rw [value, reference, hid]
    | _ => rfl
  | _ => rfl

/-! ## Cells -/

theorem arraysBefore_le (hf : g.Fits h) : g.arraysBefore ≤ (h.arrays.map (·.map g.value)).size := by
  rw [Array.size_map]
  exact hf.arrays

theorem objectsBefore_le (hf : g.Fits h) : g.objectsBefore ≤ (h.objects.map (·.map (·.map g.value))).size := by
  rw [Array.size_map]
  exact hf.objects

theorem size_arrays (hf : g.Fits h) : (g.heap h).arrays.size = h.arrays.size + g.arrays.size :=
  (size_splice (g.arraysBefore_le hf)).trans (by rw [Array.size_map])

theorem size_objects (hf : g.Fits h) : (g.heap h).objects.size = h.objects.size + g.objects.size :=
  (size_splice (g.objectsBefore_le hf)).trans (by rw [Array.size_map])

theorem items?_heap (hf : g.Fits h) (id : ArrayId) :
    (g.heap h).items? (g.array id) = (h.items? id).map (·.map g.value) :=
  (getElem?_splice (g.arraysBefore_le hf) id.index).trans Array.getElem?_map

theorem fields?_heap (hf : g.Fits h) (id : ObjectId) :
    (g.heap h).fields? (g.object id) = (h.fields? id).map (·.map (·.map g.value)) :=
  (getElem?_splice (g.objectsBefore_le hf) id.index).trans Array.getElem?_map

theorem items_heap (hf : g.Fits h) (id : ArrayId) :
    ((g.heap h).items? (g.array id)).getD #[] = ((h.items? id).getD #[]).map g.value := by
  rw [g.items?_heap hf]
  cases h.items? id <;> simp

theorem fields_heap (hf : g.Fits h) (id : ObjectId) :
    ((g.heap h).fields? (g.object id)).getD #[] = ((h.fields? id).getD #[]).map (·.map g.value) := by
  rw [g.fields?_heap hf]
  cases h.fields? id <;> simp

theorem inside_heap (hf : g.Fits h) (s : Storage) : (g.heap h).inside (g.storage s) = (h.inside s).map g.value := by
  cases s with
  | array id =>
    show (((g.heap h).items? (g.array id)).getD #[]).toList = _
    rw [g.items_heap hf, Array.toList_map]
    rfl
  | object id =>
    show (((g.heap h).fields? (g.object id)).getD #[]).toList.filterMap (·) =
      (((h.fields? id).getD #[]).toList.filterMap (·)).map _
    rw [g.fields_heap hf, Array.toList_map, List.filterMap_map, List.map_filterMap]
    rfl
  | file id => rfl

theorem setElement_heap (hf : g.Fits h) (id : ArrayId) (index : Nat) (v : Value) :
    (g.heap h).setElement (g.array id) index (g.value v) = g.heap (h.setElement id index v) := by
  refine congrArg (Heap.mk · _) ((modify_splice (g.arraysBefore_le hf) id.index _).trans (congrArg (splice _ _) ?_))
  refine Array.ext_getElem? fun i => ?_
  simp only [Heap.setElement, Array.getElem?_modify, Array.getElem?_map]
  split
  · cases h.arrays[i]? <;> simp
  · rfl

theorem setField_heap (hf : g.Fits h) (id : ObjectId) (index : Nat) (v : Value) :
    (g.heap h).setField (g.object id) index (g.value v) = g.heap (h.setField id index v) := by
  refine congrArg (Heap.mk _ ·) ((modify_splice (g.objectsBefore_le hf) id.index _).trans (congrArg (splice _ _) ?_))
  refine Array.ext_getElem? fun i => ?_
  simp only [Heap.setField, Array.getElem?_modify, Array.getElem?_map]
  split
  · cases h.objects[i]? <;> simp
  · rfl

theorem newArray_heap (hf : g.Fits h) (items : Array Value) : (g.heap h).newArray (items.map g.value) =
    (g.array (h.newArray items).1, g.heap (h.newArray items).2) := by
  have hid : (g.heap h).arrays.size = shift g.arraysBefore g.arrays.size h.arrays.size := by
    rw [shift_of_le hf.arrays, g.size_arrays hf]
  have hpush : (g.heap h).arrays.push (items.map g.value) = (g.heap (h.newArray items).2).arrays :=
    (push_splice (g.arraysBefore_le hf) _).trans (congrArg (splice _ _) (Array.map_push ..).symm)
  rw [Heap.newArray, hid, hpush]
  rfl

theorem newObject_heap (hf : g.Fits h) (fields : Array (Option Value)) :
    (g.heap h).newObject (fields.map (·.map g.value)) =
      (g.object (h.newObject fields).1, g.heap (h.newObject fields).2) := by
  have hid : (g.heap h).objects.size = shift g.objectsBefore g.objects.size h.objects.size := by
    rw [shift_of_le hf.objects, g.size_objects hf]
  have hpush : (g.heap h).objects.push (fields.map (·.map g.value)) = (g.heap (h.newObject fields).2).objects :=
    (push_splice (g.objectsBefore_le hf) _).trans (congrArg (splice _ _) (Array.map_push ..).symm)
  rw [Heap.newObject, hid, hpush]
  rfl

/-! ## Traversals -/

variable {g}

theorem mem_map_array {inside : List ArrayId} {id : ArrayId} : g.array id ∈ inside.map g.array ↔ id ∈ inside := by
  refine ⟨fun hm => ?_, List.mem_map_of_mem⟩
  obtain ⟨id', hm, he⟩ := List.mem_map.1 hm
  rw [← g.array_injective he]
  exact hm

theorem enter?_heap (hf : g.Fits h) (inside : List ArrayId) (id : ArrayId) :
    (g.heap h).enter? (inside.map g.array) (g.array id) = (h.enter? inside id).map (·.map g.value) := by
  unfold Heap.enter?
  by_cases hm : id ∈ inside
  · rw [if_pos hm, if_pos (mem_map_array.2 hm)]
    rfl
  · rw [if_neg hm, if_neg fun h' => hm (mem_map_array.1 h'), g.items_heap hf, Array.toList_map]
    rfl

theorem Fits.of_grows {R : Region} {h₁ : Heap} (hf : g.Fits h) (hg : Heap.Grows R h h₁) : g.Fits h₁ :=
  ⟨Nat.le_trans hf.arrays hg.size_le.1, Nat.le_trans hf.objects hg.size_le.2⟩

theorem Fits.of_copyFrom {dims : Nat} {inside : List ArrayId} {v c : Value} {h₁ : Heap} (hf : g.Fits h)
    (hc : Heap.copyFrom dims inside h v = some (c, h₁)) : g.Fits h₁ :=
  hf.of_grows (Heap.copyFrom_grows (R := fun _ => True) (fun _ _ _ _ _ _ => trivial) dims inside .refl
    (fun _ _ => .inl trivial) hc).1

theorem Fits.of_copyItems {dims : Nat} {inside : List ArrayId} {items cs : List Value} {h₁ : Heap} (hf : g.Fits h)
    (hc : Heap.copyItems? (Heap.copyFrom dims inside) h items = some (cs, h₁)) : g.Fits h₁ :=
  hf.of_grows (Heap.copyItems?_grows (R := fun _ => True)
    (Heap.copyFrom_grows (fun _ _ _ _ _ _ => trivial) dims inside) .refl (fun _ _ _ _ => .inl trivial) hc).1

/-- A copy with the graft in the heap, as a copy is. -/
def copied (g : Graft) (c : Value × Heap) : Value × Heap := (g.value c.1, g.heap c.2)

theorem copyItems?_heap {copy? copy?' : Heap → Value → Option (Value × Heap)}
    (hcopy : ∀ {h v}, g.Fits h → copy?' (g.heap h) (g.value v) = (copy? h v).map g.copied)
    (hfits : ∀ {h v c h₁}, g.Fits h → copy? h v = some (c, h₁) → g.Fits h₁) :
    ∀ (items : List Value) {h : Heap}, g.Fits h → Heap.copyItems? copy?' (g.heap h) (items.map g.value) =
      (Heap.copyItems? copy? h items).map fun cs => (cs.1.map g.value, g.heap cs.2)
  | [], _, _ => rfl
  | v :: items, h, hf => by
    rw [List.map_cons, Heap.copyItems?, Heap.copyItems?, hcopy hf]
    cases hc : copy? h v with
    | none => rfl
    | some c =>
      have ih := copyItems?_heap hcopy hfits items (hfits hf hc)
      simp only [Option.map_some, Option.bind_eq_bind, Option.bind_some, copied, ih]
      cases Heap.copyItems? copy? c.2 items <;> rfl

/-- **Copies come to the same.** -/
theorem copyFrom_heap : ∀ (dims : Nat) (inside : List ArrayId) {h : Heap} {v : Value}, g.Fits h →
    Heap.copyFrom dims (inside.map g.array) (g.heap h) (g.value v) = (Heap.copyFrom dims inside h v).map g.copied
  | 0, _, _, _, _ => rfl
  | dims + 1, inside, h, v, hf => by
    cases v with
    | array id =>
      show Heap.copyFrom (dims + 1) (inside.map g.array) (g.heap h) (.array (g.array id)) = _
      rw [Heap.copyFrom, Heap.copyFrom, enter?_heap hf]
      cases h.enter? inside id with
      | none => rfl
      | some items =>
        have hitems := copyItems?_heap (copyFrom_heap dims (id :: inside)) Fits.of_copyFrom items hf
        simp only [Option.map_some, Option.bind_eq_bind, Option.bind_some]
        rw [← List.map_cons, hitems]
        cases hcs : Heap.copyItems? (Heap.copyFrom dims (id :: inside)) h items with
        | none => rfl
        | some cs =>
          have hnew := g.newArray_heap (hf.of_copyItems hcs) cs.1.toArray
          rw [List.map_toArray] at hnew
          simp only [Option.map_some, Option.bind_some, hnew]
          rfl
    | ref r => cases r <;> rfl
    | _ => rfl

theorem mapM_map_of_eq {α β γ : Type} {f : α → β} {show? : α → Option γ} {show?' : β → Option γ} :
    ∀ {l : List α}, (∀ a ∈ l, show?' (f a) = show? a) → (l.map f).mapM show?' = l.mapM show?
  | [], _ => rfl
  | a :: l, h => by
    obtain ⟨ha, hl⟩ := List.forall_mem_cons.1 h
    rw [List.map_cons, List.mapM_cons, List.mapM_cons, ha, mapM_map_of_eq hl]

theorem length_le_of_nodup {inside : List ArrayId} (hn : inside.Nodup) {n : Nat}
    (hlt : ∀ id ∈ inside, id.index < n) : inside.length ≤ n := by
  have hnodup : (inside.map ArrayId.index).Nodup :=
    List.Pairwise.map _ (fun a b hab he => hab (by cases a; cases b; cases he; rfl)) hn
  have hsub : inside.map ArrayId.index ⊆ List.range n := by
    intro i hi
    obtain ⟨id, hid, rfl⟩ := List.mem_map.1 hi
    exact List.mem_range.2 (hlt id hid)
  have hle := (hnodup.subperm hsub).length_le
  rwa [List.length_map, List.length_range] at hle

/-- A way to show values that enters arrays, and has what it makes of the items joined. -/
def Enters (h : Heap) (join : List String → String) (show? : Nat → List ArrayId → Value → Option String) : Prop :=
  ∀ fuel inside id, show? (fuel + 1) inside (.array id) =
    (h.enter? inside id).bind fun items => (items.mapM (show? fuel (id :: inside))).map join

/-- **Values look the same**, with fuel for as many arrays as a traversal can be inside of. -/
theorem shown_heap {join : List String → String} {show? show?' : Nat → List ArrayId → Value → Option String}
    (hs : Enters h join show?) (hs' : Enters (g.heap h) join show?')
    (hplain : ∀ {fuel fuel' inside inside' v}, (∀ id, v ≠ .array id) →
      show?' fuel' inside' (g.value v) = show? fuel inside v)
    (hf : g.Fits h) : ∀ {fuel fuel' : Nat} {inside : List ArrayId} {v : Value}, fuel ≤ fuel' → inside.Nodup →
      (∀ id ∈ inside, id.index < h.arrays.size) → h.arrays.size < fuel + inside.length →
      show?' fuel' (inside.map g.array) (g.value v) = show? fuel inside v := by
  intro fuel
  induction fuel with
  | zero =>
    intro fuel' inside v _ hn hlt hfuel
    have := length_le_of_nodup hn hlt
    omega
  | succ fuel ih =>
    intro fuel' inside v hle hn hlt hfuel
    by_cases hv : ∀ id, v ≠ .array id
    · exact hplain hv
    obtain ⟨id, hid⟩ := Classical.not_forall.1 hv
    cases Classical.not_not.1 hid
    obtain ⟨fuel', rfl⟩ : ∃ k, fuel' = k + 1 := ⟨fuel' - 1, by omega⟩
    show show?' (fuel' + 1) (inside.map g.array) (.array (g.array id)) = _
    rw [hs, hs', enter?_heap hf]
    cases henter : h.enter? inside id with
    | none => rfl
    | some items =>
      simp only [Option.map_some, Option.bind_some]
      rw [← List.map_cons, mapM_map_of_eq fun item hitem => ?_]
      unfold Heap.enter? at henter
      split at henter <;> cases henter
      rename_i hnot
      -- An array with something in it is one of the heap.
      have hid : id.index < h.arrays.size := by
        refine Nat.lt_of_not_le fun hle => ?_
        rw [Heap.items?, Array.getElem?_eq_none hle] at hitem
        cases hitem
      refine ih (by omega) (List.nodup_cons.2 ⟨hnot, hn⟩) (List.forall_mem_cons.2 ⟨hid, hlt⟩) ?_
      rw [List.length_cons]
      omega

theorem enters_display (h : Heap) :
    Enters h (fun shown => "[" ++ String.intercalate " " shown ++ "]") h.displayFrom := by
  intro fuel inside id
  rw [Heap.displayFrom]
  cases h.enter? inside id with
  | none => rfl
  | some items =>
    simp only [Option.bind_eq_bind, Option.bind_some]
    cases items.mapM (h.displayFrom fuel (id :: inside)) <;> rfl

theorem enters_inspect (h : Heap) :
    Enters h (fun shown => "[" ++ String.intercalate ", " shown ++ "]") h.inspectFrom := by
  intro fuel inside id
  rw [Heap.inspectFrom]
  cases h.enter? inside id with
  | none => rfl
  | some items =>
    simp only [Option.bind_eq_bind, Option.bind_some]
    cases items.mapM (h.inspectFrom fuel (id :: inside)) <;> rfl

theorem depthBound_le (hf : g.Fits h) : h.depthBound ≤ (g.heap h).depthBound := by
  have := g.size_arrays hf
  unfold Heap.depthBound
  omega

theorem display?_heap (hf : g.Fits h) (v : Value) : (g.heap h).display? (g.value v) = h.display? v := by
  refine shown_heap (enters_display h) (enters_display _) (fun {fuel fuel' _ _ v} hv => ?_) hf (depthBound_le hf)
    List.nodup_nil (List.forall_mem_nil _) (Nat.lt_succ_self _)
  cases v with
  | array id => exact absurd rfl (hv id)
  | bool b => cases b <;> cases fuel <;> cases fuel' <;> rfl
  | ref r => cases r <;> cases fuel <;> cases fuel' <;> rfl
  | _ => cases fuel <;> cases fuel' <;> rfl

theorem inspect?_heap (hf : g.Fits h) (v : Value) : (g.heap h).inspect? (g.value v) = h.inspect? v := by
  refine shown_heap (enters_inspect h) (enters_inspect _) (fun {fuel fuel' _ _ v} hv => ?_) hf (depthBound_le hf)
    List.nodup_nil (List.forall_mem_nil _) (Nat.lt_succ_self _)
  cases v with
  | array id => exact absurd rfl (hv id)
  | bool b => cases b <;> cases fuel <;> cases fuel' <;> rfl
  | ref r => cases r <;> cases fuel <;> cases fuel' <;> rfl
  | _ => cases fuel <;> cases fuel' <;> rfl

end Graft

end PseudoVm
