import PseudoVm.Value.Traversal
/-!
# Value.Growth: storage that is added to a heap

New arrays hold values that were there before them, and the fields of new objects are not assigned.  A heap that has
only grown so (`Heap.Grows`) still has everything that it had, and values that lead to no storage but such as a region
has do so still, once the region has the storage that was added (`Heap.Grows.closed`).
-/
namespace PseudoVm

/-- Storage, in use or not. -/
abbrev Region := Storage → Prop

/-- A value that refers to no storage but a region's. -/
def Value.Within (R : Region) (v : Value) : Prop := ∀ s, v.storage? = some s → R s

theorem Value.within_of_none {R : Region} {v : Value} (h : v.storage? = none) : v.Within R := by
  intro s hs
  rw [h] at hs
  cases hs

theorem Value.Within.mono {R R' : Region} (h : ∀ s, R s → R' s) {v : Value} (hv : v.Within R) : v.Within R' :=
  fun s hs => h s (hv s hs)

namespace Heap

/-- What is inside a region's storage refers to no storage but the region's. -/
def Closed (R : Region) (h : Heap) : Prop := ∀ c, R c → ∀ v ∈ h.inside c, v.Within R

/-- Storage that one heap has beyond another. -/
def Adds (h h₁ : Heap) : Region
  | .array id => h.arrays.size ≤ id.index ∧ id.index < h₁.arrays.size
  | .object id => h.objects.size ≤ id.index ∧ id.index < h₁.objects.size
  | .file _ => False

/-- A region with the storage that one heap has beyond another. -/
def Grown (R : Region) (h h₁ : Heap) : Region := fun s => R s ∨ h.Adds h₁ s

/-- **Arrays were added, each of values that were there, and objects without values.** -/
inductive Grows (R : Region) (h : Heap) : Heap → Prop
  | refl : Grows R h h
  | array {h₁} (items : List Value) (hg : Grows R h h₁) (hi : ∀ v ∈ items, v.Within (Grown R h h₁)) :
      Grows R h (h₁.newArray items.toArray).2
  | object {h₁} (n : Nat) (hg : Grows R h h₁) : Grows R h (h₁.newObject (Array.replicate n none)).2

theorem Adds.mono {h h₁ h₂ : Heap} (ha : h₁.arrays.size ≤ h₂.arrays.size) (ho : h₁.objects.size ≤ h₂.objects.size)
    {s : Storage} (hs : h.Adds h₁ s) : h.Adds h₂ s := by
  cases s with
  | array id => exact ⟨hs.1, Nat.lt_of_lt_of_le hs.2 ha⟩
  | object id => exact ⟨hs.1, Nat.lt_of_lt_of_le hs.2 ho⟩
  | file id => exact hs

theorem inside_newArray (h : Heap) (items : List Value) (c : Storage) :
    (h.newArray items.toArray).2.inside c = if c = .array ⟨h.arrays.size⟩ then items else h.inside c := by
  cases c with
  | array id =>
    have hiff : Storage.array id = .array ⟨h.arrays.size⟩ ↔ id.index = h.arrays.size := by
      cases id
      simp
    simp only [inside, items?, newArray, Array.getElem?_push, hiff]
    split <;> rfl
  | object id => rfl
  | file id => rfl

theorem inside_newObject (h : Heap) (n : Nat) (c : Storage) :
    (h.newObject (Array.replicate n none)).2.inside c = if c = .object ⟨h.objects.size⟩ then [] else h.inside c := by
  cases c with
  | array id => rfl
  | object id =>
    have hiff : Storage.object id = .object ⟨h.objects.size⟩ ↔ id.index = h.objects.size := by
      cases id
      simp
    simp only [inside, fields?, newObject, Array.getElem?_push, hiff]
    split <;> simp
  | file id => rfl

theorem Adds.of_newArray {h h₁ : Heap} {items : Array Value} {c : Storage} (hc : h.Adds (h₁.newArray items).2 c) :
    c = .array ⟨h₁.arrays.size⟩ ∨ h.Adds h₁ c := by
  cases c with
  | array id =>
    obtain ⟨index⟩ := id
    obtain ⟨hle, hlt⟩ := hc
    simp only [newArray, Array.size_push] at hlt
    rcases Nat.lt_succ_iff_lt_or_eq.1 hlt with hlt | rfl
    · exact .inr ⟨hle, hlt⟩
    · exact .inl rfl
  | object id => exact .inr hc
  | file id => exact .inr hc

theorem Adds.of_newObject {h h₁ : Heap} {fields : Array (Option Value)} {c : Storage}
    (hc : h.Adds (h₁.newObject fields).2 c) : c = .object ⟨h₁.objects.size⟩ ∨ h.Adds h₁ c := by
  cases c with
  | array id => exact .inr hc
  | object id =>
    obtain ⟨index⟩ := id
    obtain ⟨hle, hlt⟩ := hc
    simp only [newObject, Array.size_push] at hlt
    rcases Nat.lt_succ_iff_lt_or_eq.1 hlt with hlt | rfl
    · exact .inr ⟨hle, hlt⟩
    · exact .inl rfl
  | file id => exact .inr hc

theorem Grown.newArray {R : Region} {h h₁ : Heap} (items : Array Value) {s : Storage} (hs : Grown R h h₁ s) :
    Grown R h (h₁.newArray items).2 s := by
  have ha : h₁.arrays.size ≤ (h₁.newArray items).2.arrays.size := by simp [Heap.newArray]
  have ho : h₁.objects.size ≤ (h₁.newArray items).2.objects.size := Nat.le_refl _
  exact hs.imp_right (Adds.mono ha ho)

theorem Grown.newObject {R : Region} {h h₁ : Heap} (fields : Array (Option Value)) {s : Storage}
    (hs : Grown R h h₁ s) : Grown R h (h₁.newObject fields).2 s := by
  have ha : h₁.arrays.size ≤ (h₁.newObject fields).2.arrays.size := Nat.le_refl _
  have ho : h₁.objects.size ≤ (h₁.newObject fields).2.objects.size := by simp [Heap.newObject]
  exact hs.imp_right (Adds.mono ha ho)

namespace Grows

variable {R : Region} {h h₁ h₂ : Heap}

theorem size_le (hg : Grows R h h₁) : h.arrays.size ≤ h₁.arrays.size ∧ h.objects.size ≤ h₁.objects.size := by
  induction hg with
  | refl => exact ⟨Nat.le_refl _, Nat.le_refl _⟩
  | array _ _ _ ih => exact ⟨Nat.le_trans ih.1 (by simp [newArray]), ih.2⟩
  | object _ _ ih => exact ⟨ih.1, Nat.le_trans ih.2 (by simp [newObject])⟩

/-- **Everything that was there is as it was.** -/
theorem items?_eq (hg : Grows R h h₁) {id : ArrayId} (hid : id.index < h.arrays.size) : h₁.items? id = h.items? id := by
  induction hg with
  | refl => rfl
  | @array h₁ items hg _ ih =>
    have hlt := Nat.lt_of_lt_of_le hid hg.size_le.1
    rw [← ih]
    exact (Array.getElem?_push_lt hlt).trans (Array.getElem?_eq_getElem hlt).symm
  | object _ _ ih => exact ih

theorem fields?_eq (hg : Grows R h h₁) {id : ObjectId} (hid : id.index < h.objects.size) :
    h₁.fields? id = h.fields? id := by
  induction hg with
  | refl => rfl
  | array _ _ _ ih => exact ih
  | @object h₁ n hg ih =>
    have hlt := Nat.lt_of_lt_of_le hid hg.size_le.2
    rw [← ih]
    exact (Array.getElem?_push_lt hlt).trans (Array.getElem?_eq_getElem hlt).symm

/-- **A region stays closed** with the storage that was added. -/
theorem closed (hg : Grows R h h₁) (hc : h.Closed R) : h₁.Closed (Grown R h h₁) := by
  induction hg with
  | refl =>
    rintro c (hR | hnew) v hv
    · exact (hc c hR v hv).mono fun s => Or.inl
    · cases c with
      | array id | object id => exact absurd (Nat.lt_of_le_of_lt hnew.1 hnew.2) (Nat.lt_irrefl _)
      | file id => exact hnew.elim
  | @array h₁ items hg hi ih =>
    rintro c hcell v hv
    rw [inside_newArray] at hv
    split at hv
    · exact (hi v hv).mono fun s => .newArray _
    · rename_i hne
      exact (ih c (hcell.imp_right fun ha => ha.of_newArray.resolve_left hne) v hv).mono fun s => .newArray _
  | @object h₁ n hg ih =>
    rintro c hcell v hv
    rw [inside_newObject] at hv
    split at hv
    · cases hv
    · rename_i hne
      exact (ih c (hcell.imp_right fun ha => ha.of_newObject.resolve_left hne) v hv).mono fun s => .newObject _

theorem grown_trans (hg : Grows R h h₁) (hg' : Grows (Grown R h h₁) h₁ h₂) {s : Storage}
    (hs : Grown (Grown R h h₁) h₁ h₂ s) : Grown R h h₂ s := by
  rcases hs with (hR | hold) | hnew
  · exact .inl hR
  · exact .inr (hold.mono hg'.size_le.1 hg'.size_le.2)
  · refine .inr ?_
    cases s with
    | array id => exact ⟨Nat.le_trans hg.size_le.1 hnew.1, hnew.2⟩
    | object id => exact ⟨Nat.le_trans hg.size_le.2 hnew.1, hnew.2⟩
    | file id => exact hnew

theorem trans (hg : Grows R h h₁) (hg' : Grows (Grown R h h₁) h₁ h₂) : Grows R h h₂ := by
  induction hg' with
  | refl => exact hg
  | array items hg' hi ih => exact .array items ih fun v hv => (hi v hv).mono fun s => hg.grown_trans hg'
  | object n _ ih => exact .object n ih

end Grows

/-! ## Writes -/

theorem mem_inside_setElement {h : Heap} {id : ArrayId} {index : Nat} {v u : Value} {c : Storage}
    (hu : u ∈ (h.setElement id index v).inside c) : u ∈ h.inside c ∨ u = v := by
  cases c with
  | array c =>
    simp only [inside, items?, setElement, Array.getElem?_modify, Array.mem_toList_iff] at hu ⊢
    split at hu
    · cases hitems : h.arrays[c.index]? with
      | none =>
        rw [hitems] at hu
        exact .inl hu
      | some items =>
        rw [hitems, Option.map_some, Option.getD_some] at hu
        exact Array.mem_or_eq_of_mem_setIfInBounds hu
    · exact .inl hu
  | object c => exact .inl hu
  | file c => exact .inl hu

theorem mem_inside_setField {h : Heap} {id : ObjectId} {index : Nat} {v u : Value} {c : Storage}
    (hu : u ∈ (h.setField id index v).inside c) : u ∈ h.inside c ∨ u = v := by
  cases c with
  | array c => exact .inl hu
  | object c =>
    simp only [inside, fields?, setField, Array.getElem?_modify, List.mem_filterMap, Array.mem_toList_iff] at hu ⊢
    obtain ⟨o, ho, rfl⟩ := hu
    split at ho
    · cases hfields : h.objects[c.index]? with
      | none =>
        rw [hfields] at ho
        exact .inl ⟨_, ho, rfl⟩
      | some fields =>
        rw [hfields, Option.map_some, Option.getD_some] at ho
        rcases Array.mem_or_eq_of_mem_setIfInBounds ho with ho | ho
        · exact .inl ⟨_, ho, rfl⟩
        · cases ho
          exact .inr rfl
    · exact .inl ⟨_, ho, rfl⟩
  | file c => exact .inl hu

theorem Closed.setElement {R : Region} {h : Heap} (hc : h.Closed R) {v : Value} (hv : v.Within R) (id : ArrayId)
    (index : Nat) : (h.setElement id index v).Closed R := by
  intro c hR u hu
  rcases mem_inside_setElement hu with hu | rfl
  · exact hc c hR u hu
  · exact hv

theorem Closed.setField {R : Region} {h : Heap} (hc : h.Closed R) {v : Value} (hv : v.Within R) (id : ObjectId)
    (index : Nat) : (h.setField id index v).Closed R := by
  intro c hR u hu
  rcases mem_inside_setField hu with hu | rfl
  · exact hc c hR u hu
  · exact hv

/-! ## Copies -/

variable {R : Region} {h : Heap}

/-- What a copy of a value may do: it grows the heap, and the copy refers to what was there and what was added. -/
def CopyGrows (R : Region) (h : Heap) (copy? : Heap → Value → Option (Value × Heap)) : Prop :=
  ∀ {h₁ v c h₂}, Grows R h h₁ → v.Within (Grown R h h₁) → copy? h₁ v = some (c, h₂) →
    Grows R h h₂ ∧ (∀ s, Grown R h h₁ s → Grown R h h₂ s) ∧ c.Within (Grown R h h₂)

theorem copyItems?_grows {copy? : Heap → Value → Option (Value × Heap)} (hcopy : CopyGrows R h copy?) :
    ∀ {items : List Value} {h₁ : Heap} {cs : List Value} {h₂ : Heap}, Grows R h h₁ →
      (∀ v ∈ items, v.Within (Grown R h h₁)) → copyItems? copy? h₁ items = some (cs, h₂) →
        Grows R h h₂ ∧ (∀ s, Grown R h h₁ s → Grown R h h₂ s) ∧ ∀ c ∈ cs, c.Within (Grown R h h₂)
  | [], h₁, cs, h₂, hg, _, heq => by
    cases heq
    exact ⟨hg, fun s => id, List.forall_mem_nil _⟩
  | v :: items, h₁, cs, h₂, hg, hi, heq => by
    obtain ⟨⟨c, h'⟩, hc, hrest⟩ := Option.bind_eq_some_iff.1 heq
    obtain ⟨⟨cs', h''⟩, hcs, hend⟩ := Option.bind_eq_some_iff.1 hrest
    cases hend
    obtain ⟨hv, hi⟩ := List.forall_mem_cons.1 hi
    obtain ⟨hg', hmono, hcw⟩ := hcopy hg hv hc
    obtain ⟨hg'', hmono', hcsw⟩ := copyItems?_grows hcopy hg' (fun v hv => (hi v hv).mono hmono) hcs
    exact ⟨hg'', fun s hs => hmono' s (hmono s hs), List.forall_mem_cons.2 ⟨hcw.mono hmono', hcsw⟩⟩

/-- **A copy only adds arrays**, of values that were there. -/
theorem copyFrom_grows (hc : h.Closed R) : ∀ (dims : Nat) (inside : List ArrayId), CopyGrows R h (copyFrom dims inside)
  | 0, inside, h₁, v, c, h₂, hg, hv, heq => by
    cases heq
    exact ⟨hg, fun s => id, hv⟩
  | dims + 1, inside, h₁, v, c, h₂, hg, hv, heq => by
    cases v with
    | array id =>
      obtain ⟨items, henter, hrest⟩ := Option.bind_eq_some_iff.1 heq
      obtain ⟨⟨cs, h'⟩, hcs, hend⟩ := Option.bind_eq_some_iff.1 hrest
      cases hend
      have hitems : ∀ v ∈ items, v.Within (Grown R h h₁) := by
        unfold enter? at henter
        split at henter <;> cases henter
        exact hg.closed hc (.array id) (hv _ rfl)
      obtain ⟨hg', hmono, hcw⟩ := copyItems?_grows (copyFrom_grows hc dims (id :: inside)) hg hitems hcs
      refine ⟨.array cs hg' hcw, fun s hs => (hmono s hs).newArray _, fun s hs => ?_⟩
      cases hs
      exact .inr ⟨hg'.size_le.1, by simp⟩
    | _ =>
      cases heq
      exact ⟨hg, fun s => id, hv⟩

end Heap

end PseudoVm
