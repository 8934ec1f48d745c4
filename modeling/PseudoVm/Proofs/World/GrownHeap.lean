import PseudoVm.Proofs.World.GraftedRelease
/-!
# World.GrownHeap: a heap that has grown

A heap that has only grown is the old one with a graft at its end (`Heap.Grows.heap_beyond`), and a tidy one
(`Heap.Grows.tidy_beyond`): storage that was added refers to storage that was there before it.  As long as all files
that values lead to are led to by others that stay, letting go of them changes nothing (`World.letGo_of_reaches`).
-/
namespace PseudoVm

namespace Heap

variable {R : Region} {h h₁ : Heap} {held held' : List Value}

/-- **What one heap has beyond another**, as a graft at its end. -/
def beyond (h h₁ : Heap) : Graft where
  arraysBefore := h.arrays.size
  objectsBefore := h.objects.size
  arrays := h₁.arrays.extract h.arrays.size h₁.arrays.size
  objects := h₁.objects.extract h.objects.size h₁.objects.size

theorem fits_beyond (h h₁ : Heap) : (h.beyond h₁).Fits h := ⟨Nat.le_refl _, Nat.le_refl _⟩

theorem getElem?_extract_end {α : Type} (xs : Array α) (n k : Nat) : (xs.extract n xs.size)[k]? = xs[n + k]? := by
  rw [Array.getElem?_extract]
  split
  · rfl
  · rw [Array.getElem?_eq_none (by omega)]

theorem Grows.lt_of_added (hg : Grows R h h₁) (hR : ∀ id, R (.array id) → id.index < h.arrays.size) {n : Nat}
    (hn : h.arrays.size ≤ n) {items : Array Value} (hi : h₁.arrays[n]? = some items) {v : Value} (hv : v ∈ items)
    {id : ArrayId} (hid : v.storage? = some (.array id)) : id.index < n := by
  induction hg with
  | refl =>
    rw [Array.getElem?_eq_none hn] at hi
    cases hi
  | @array h₁ new hg hnew ih =>
    simp only [newArray, Array.getElem?_push] at hi
    split at hi
    · rename_i hlast
      cases hi
      rcases hnew v (List.mem_toArray.1 hv) _ hid with hold | hadded
      · exact Nat.lt_of_lt_of_le (hR id hold) hn
      · rw [hlast]
        exact hadded.2
    · exact ih hi
  | object _ _ ih => exact ih hi

theorem Grows.eq_none_of_added (hg : Grows R h h₁) {n : Nat} (hn : h.objects.size ≤ n) {fields : Array (Option Value)}
    (hf : h₁.objects[n]? = some fields) {o : Option Value} (ho : o ∈ fields) : o = none := by
  induction hg with
  | refl =>
    rw [Array.getElem?_eq_none hn] at hf
    cases hf
  | array _ _ _ ih => exact ih hf
  | object k _ ih =>
    simp only [newObject, Array.getElem?_push] at hf
    split at hf
    · cases hf
      exact (Array.mem_replicate.1 ho).2
    · exact ih hf

/-- **What was added is tidy.** -/
theorem Grows.tidy_beyond (hg : Grows R h h₁) (hR : ∀ id, R (.array id) → id.index < h.arrays.size) :
    (h.beyond h₁).Tidy := by
  refine ⟨fun k items hk v hv id hid => ?_, fun fields hf o ho => ?_⟩
  · rw [beyond, getElem?_extract_end] at hk
    exact hg.lt_of_added hR (Nat.le_add_right _ k) hk hv hid
  · obtain ⟨k, hk⟩ := Array.getElem?_of_mem hf
    rw [beyond, getElem?_extract_end] at hk
    exact hg.eq_none_of_added (Nat.le_add_right _ k) hk ho

theorem splice_end {α : Type} {xs ys : Array α} (hle : xs.size ≤ ys.size) (h : ∀ i, i < xs.size → ys[i]? = xs[i]?) :
    splice xs.size (ys.extract xs.size ys.size) xs = ys := by
  refine (eq_splice (Nat.le_refl _) (fun k _ => (getElem?_extract_end ys xs.size k).symm) fun i => ?_).symm
  by_cases hi : i < xs.size
  · rw [shift_of_lt hi, h i hi]
  · have hsize : (ys.extract xs.size ys.size).size = ys.size - xs.size := by simp
    rw [shift_of_le (Nat.le_of_not_lt hi), Array.getElem?_eq_none (by omega), Array.getElem?_eq_none (by omega)]

theorem map_eq_self {α : Type} {f : α → α} {xs : Array α} (h : ∀ x ∈ xs, f x = x) : xs.map f = xs :=
  (Array.map_congr_left h).trans (Array.map_id xs)

/-- **A heap that has grown is the old one with what was added.** -/
theorem Grows.heap_beyond (hg : Grows R h h₁) (hv : ∀ c, ∀ v ∈ h.inside c, (h.beyond h₁).value v = v) :
    (h.beyond h₁).heap h = h₁ := by
  have harrays : h.arrays.map (·.map (h.beyond h₁).value) = h.arrays := by
    refine map_eq_self fun items hi => map_eq_self fun v hmem => ?_
    obtain ⟨i, hi⟩ := Array.getElem?_of_mem hi
    refine hv (.array ⟨i⟩) v ?_
    rw [inside, items?, hi]
    exact Array.mem_toList_iff.2 hmem
  have hobjects : h.objects.map (·.map (·.map (h.beyond h₁).value)) = h.objects := by
    refine map_eq_self fun fields hf => map_eq_self fun o hmem => ?_
    cases o with
    | none => rfl
    | some v =>
      obtain ⟨i, hf⟩ := Array.getElem?_of_mem hf
      refine congrArg some (hv (.object ⟨i⟩) v ?_)
      rw [inside, fields?, hf]
      exact List.mem_filterMap.2 ⟨_, Array.mem_toList_iff.2 hmem, rfl⟩
  unfold Graft.heap
  rw [harrays, hobjects]
  exact congr (congrArg Heap.mk (splice_end hg.size_le.1 fun i hi => hg.items?_eq (show ArrayId.index ⟨i⟩ < _ from hi)))
    (splice_end hg.size_le.2 fun i hi => hg.fields?_eq (show ObjectId.index ⟨i⟩ < _ from hi))

end Heap

namespace World

/-- Storage that a world has. -/
def Has (w : World) : Region
  | .array id => id.index < w.heap.arrays.size
  | .object id => id.index < w.heap.objects.size
  | .file id => id.index < w.files.size

theorem Has.storage_beyond {w : World} {s : Storage} (hs : w.Has s) (h₁ : Heap) :
    (w.heap.beyond h₁).storage s = s := by
  cases s with
  | array id => exact congrArg (fun i => Storage.array ⟨i⟩) (shift_of_lt hs)
  | object id => exact congrArg (fun i => Storage.object ⟨i⟩) (shift_of_lt hs)
  | file id => rfl

theorem closed_of_empty {w : World} (ha : w.heap.arrays = #[]) (ho : w.heap.objects = #[]) :
    w.heap.Closed w.Has := by
  rintro (id | id | id) h v hv
  · simp [Has, ha] at h
  · simp [Has, ho] at h
  · cases hv

end World

/-! ## Letting go of nothing that others have -/

namespace Heap

variable {R : Region} {h h₁ : Heap} {held held' : List Value}

theorem letGoFrom_within (hc : h.Closed R) : ∀ (fuel : Nat) (t : Tally) {freed : List Storage} {work : List Value},
    (∀ v ∈ work, v.Within R) → (∀ s ∈ freed, R s) → ∀ s ∈ (h.letGoFrom fuel t freed work).2, R s
  | 0, _, _, _, _, hf => hf
  | _ + 1, _, _, [], _, hf => hf
  | fuel + 1, t, freed, v :: work, hw, hf => by
    obtain ⟨hv, hw⟩ := List.forall_mem_cons.1 hw
    rw [letGoFrom]
    cases hs : v.storage? with
    | none => exact letGoFrom_within hc fuel t hw hf
    | some s =>
      dsimp only
      split
      · exact letGoFrom_within hc fuel _ (List.forall_mem_append.2 ⟨hc s (hv s hs), hw⟩)
          (List.forall_mem_cons.2 ⟨hv s hs, hf⟩)
      · exact letGoFrom_within hc fuel _ hw hf

theorem Grows.mem_inside (hg : Grows R h h₁) {c : Storage} {v : Value} (hv : v ∈ h.inside c) : v ∈ h₁.inside c := by
  cases c with
  | array id =>
    have hid : id.index < h.arrays.size := by
      refine Nat.lt_of_not_le fun hle => ?_
      rw [inside, items?, Array.getElem?_eq_none hle] at hv
      cases hv
    rwa [inside, hg.items?_eq hid]
  | object id =>
    have hid : id.index < h.objects.size := by
      refine Nat.lt_of_not_le fun hle => ?_
      rw [inside, fields?, Array.getElem?_eq_none hle] at hv
      cases hv
    rwa [inside, hg.fields?_eq hid]
  | file id => cases hv

theorem Reaches.grows (hg : Grows R h h₁) (hsub : held ⊆ held') {s : Storage} (hr : h.Reaches held s) :
    h₁.Reaches held' s := by
  induction hr with
  | held hv hs => exact .held (hsub hv) hs
  | inside _ hv hs ih => exact .inside ih (hg.mem_inside hv) hs

theorem closed_reaches (h : Heap) (held : List Value) : h.Closed (h.Reaches held) :=
  fun _ hc _ hv _ hs => .inside hc hv hs

end Heap

/-- **Letting go of values releases no file** if all files that they lead to are led to by those that stay. -/
theorem World.letGo_of_reaches {R : Region} {w : World} {held loose : List Value} (hc : w.heap.Closed R)
    (hl : ∀ v ∈ loose, v.Within R) (hr : ∀ id, R (.file id) → (w.file? id).isSome ∧ w.heap.Reaches held (.file id)) :
    w.letGo held loose = w := by
  unfold letGo
  dsimp only
  split
  · rfl
  generalize hd : loose.filter (fun v => !held.any (·.storage? == v.storage?)) = doubtful
  have hdoubtful : ∀ v ∈ doubtful, v.Within R := by
    intro v hv
    rw [← hd] at hv
    exact hl v (List.mem_filter.1 hv).1
  have hnone : w.freedFiles held doubtful = [] := by
    refine List.eq_nil_iff_forall_not_mem.2 fun id hid => ?_
    have hin : R (.file id) := by
      obtain ⟨s, hs, he⟩ := List.mem_filterMap.1 hid
      have hR := Heap.letGoFrom_within hc _ _ hdoubtful (List.forall_mem_nil _) s (List.mem_reverse.1 hs)
      cases s <;> cases he
      exact hR
    obtain ⟨hsome, hreach⟩ := hr id hin
    exact not_reaches_of_freed hid hsome hreach
  rw [hnone]
  rfl

end PseudoVm
