import PseudoVm.Proofs.Value.Graft
import PseudoVm.Proofs.World.Unused
/-!
# World.GraftedRelease: storage that nothing refers to releases nothing

A graft is tidy if its arrays refer to no arrays but those before them, and the fields of its objects are not assigned.
What is in a heap refers to none of it, so all of it is unused; what it refers to counts no more references than it
would without the graft, and letting go of values releases the same files (`World.letGo_world`).
-/
namespace PseudoVm

namespace Graft

/-- Storage of the graft. -/
def Has (g : Graft) : Region
  | .array id => g.arraysBefore ≤ id.index ∧ id.index < g.arraysBefore + g.arrays.size
  | .object id => g.objectsBefore ≤ id.index ∧ id.index < g.objectsBefore + g.objects.size
  | .file _ => False

/-- **Its arrays refer to no arrays but those before them**, and its objects to nothing. -/
structure Tidy (g : Graft) : Prop where
  arrays : ∀ k items, g.arrays[k]? = some items → ∀ v ∈ items, ∀ id, v.storage? = some (.array id) →
    id.index < g.arraysBefore + k
  objects : ∀ fields ∈ g.objects, ∀ v ∈ fields, v = none

/-- The world with the graft in its heap. -/
def world (g : Graft) (w : World) : World := { w with heap := g.heap w.heap }

variable {g : Graft} {h : Heap} {held : List Value}

theorem not_has_storage (s : Storage) : ¬ g.Has (g.storage s) := by
  have hshift : ∀ {n k i : Nat}, ¬ (n ≤ shift n k i ∧ shift n k i < n + k) := by
    intro n k i
    unfold shift
    split <;> omega
  cases s with
  | array id | object id => exact hshift
  | file id => exact not_false

theorem storage_or_has (s : Storage) : (∃ s', s = g.storage s') ∨ g.Has s := by
  cases s with
  | array id =>
    obtain ⟨index⟩ := id
    obtain ⟨j, rfl⟩ | ⟨k, hk, rfl⟩ := shift_or g.arraysBefore g.arrays.size index
    · exact .inl ⟨.array ⟨j⟩, rfl⟩
    · exact .inr ⟨Nat.le_add_right _ _, Nat.add_lt_add_left hk _⟩
  | object id =>
    obtain ⟨index⟩ := id
    obtain ⟨j, rfl⟩ | ⟨k, hk, rfl⟩ := shift_or g.objectsBefore g.objects.size index
    · exact .inl ⟨.object ⟨j⟩, rfl⟩
    · exact .inr ⟨Nat.le_add_right _ _, Nat.add_lt_add_left hk _⟩
  | file id => exact .inl ⟨.file id, rfl⟩

theorem storage?_value_eq_some {v : Value} {s : Storage} :
    (g.value v).storage? = some (g.storage s) ↔ v.storage? = some s := by
  rw [storage?_value, Option.map_eq_some_iff]
  constructor
  · rintro ⟨s', hv, hs⟩
    rw [hv, g.storage_injective hs]
  · exact fun hv => ⟨s, hv, rfl⟩

theorem refs_map (s : Storage) (vs : List Value) : refs (g.storage s) (vs.map g.value) = refs s vs := by
  rw [refs, refs, List.countP_map]
  refine List.countP_congr fun v _ => ?_
  rw [Function.comp, beq_iff_eq, beq_iff_eq]
  exact storage?_value_eq_some

theorem not_has_of_mem_map {vs : List Value} {v : Value} (hv : v ∈ vs.map g.value) {c : Storage}
    (hc : v.storage? = some c) : ¬ g.Has c := by
  obtain ⟨v, -, rfl⟩ := List.mem_map.1 hv
  rw [storage?_value] at hc
  obtain ⟨s, -, rfl⟩ := Option.map_eq_some_iff.1 hc
  exact not_has_storage s

theorem mem_cells_storage (hf : g.Fits h) (c : Storage) : g.storage c ∈ (g.heap h).cells ↔ c ∈ h.cells := by
  rw [Heap.mem_cells_iff, Heap.mem_cells_iff]
  cases c with
  | array id =>
    have := hf.arrays
    simp only [storage, array, g.size_arrays hf, shift]
    split <;> omega
  | object id =>
    have := hf.objects
    simp only [storage, object, g.size_objects hf, shift]
    split <;> omega
  | file id => exact Iff.rfl

theorem mem_cells_of_has (hf : g.Fits h) {c : Storage} (hc : g.Has c) : c ∈ (g.heap h).cells := by
  rw [Heap.mem_cells_iff]
  cases c with
  | array id =>
    have := hf.arrays
    have := hc.2
    simp only [g.size_arrays hf]
    omega
  | object id =>
    have := hf.objects
    have := hc.2
    simp only [g.size_objects hf]
    omega
  | file id => exact hc.elim

theorem inside_of_has (hf : g.Fits h) (ht : g.Tidy) {d : Storage} (hd : g.Has d) {v : Value}
    (hv : v ∈ (g.heap h).inside d) :
    ∃ k items, d = .array ⟨g.arraysBefore + k⟩ ∧ g.arrays[k]? = some items ∧ v ∈ items := by
  cases d with
  | array id =>
    obtain ⟨index⟩ := id
    obtain ⟨hle, hlt⟩ := hd
    obtain ⟨k, rfl⟩ := Nat.exists_eq_add_of_le hle
    have hk : k < g.arrays.size := Nat.lt_of_add_lt_add_left hlt
    have hitems : (g.heap h).items? ⟨g.arraysBefore + k⟩ = some g.arrays[k] :=
      (getElem?_splice_new (g.arraysBefore_le hf) hk).trans (Array.getElem?_eq_getElem hk)
    rw [Heap.inside, hitems] at hv
    exact ⟨k, g.arrays[k], rfl, Array.getElem?_eq_getElem hk, Array.mem_toList_iff.1 hv⟩
  | object id =>
    obtain ⟨index⟩ := id
    obtain ⟨hle, hlt⟩ := hd
    obtain ⟨k, rfl⟩ := Nat.exists_eq_add_of_le hle
    have hk : k < g.objects.size := Nat.lt_of_add_lt_add_left hlt
    have hfields : (g.heap h).fields? ⟨g.objectsBefore + k⟩ = some g.objects[k] :=
      (getElem?_splice_new (g.objectsBefore_le hf) hk).trans (Array.getElem?_eq_getElem hk)
    rw [Heap.inside, hfields] at hv
    obtain ⟨o, ho, hov⟩ := List.mem_filterMap.1 hv
    rw [ht.objects _ (Array.getElem_mem hk) o (Array.mem_toList_iff.1 ho)] at hov
    cases hov
  | file id => exact hd.elim

theorem has_of_inside (hf : g.Fits h) {c d : Storage} (hc : g.Has c) {v : Value} (hv : v ∈ (g.heap h).inside d)
    (hvc : v.storage? = some c) : g.Has d := by
  refine (storage_or_has d).resolve_left ?_
  rintro ⟨s, rfl⟩
  rw [g.inside_heap hf] at hv
  exact not_has_of_mem_map hv hvc hc

/-- **The graft is unused**: its last array, as nothing refers to it, and so on down. -/
theorem unused_of_has (hf : g.Fits h) (ht : g.Tidy) {c : Storage} (hc : g.Has c) :
    (g.heap h).Unused (held.map g.value) c := by
  have harray : ∀ n k, k < g.arrays.size → g.arrays.size ≤ n + k →
      (g.heap h).Unused (held.map g.value) (.array ⟨g.arraysBefore + k⟩) := by
    intro n
    induction n with
    | zero => intro k hk hle; omega
    | succ n ih =>
      intro k hk hle
      have hhas : g.Has (.array ⟨g.arraysBefore + k⟩) := ⟨Nat.le_add_right _ _, Nat.add_lt_add_left hk _⟩
      refine .mk (mem_cells_of_has hf hhas) (fun v hv hvc => not_has_of_mem_map hv hvc hhas) fun d v hv hvc => ?_
      obtain ⟨k', items, rfl, hitems, hmem⟩ := inside_of_has hf ht (has_of_inside hf hhas hv hvc) hv
      have hless := ht.arrays k' items hitems v hmem _ hvc
      exact ih k' (Array.getElem?_eq_some_iff.1 hitems).1 (by simp only at hless; omega)
  refine .mk (mem_cells_of_has hf hc) (fun v hv hvc => not_has_of_mem_map hv hvc hc) fun d v hv hvc => ?_
  obtain ⟨k, items, rfl, hitems, -⟩ := inside_of_has hf ht (has_of_inside hf hc hv hvc) hv
  exact harray g.arrays.size k (Array.getElem?_eq_some_iff.1 hitems).1 (Nat.le_add_right _ _)

theorem unused_storage_iff (hf : g.Fits h) (ht : g.Tidy) {c : Storage} :
    (g.heap h).Unused (held.map g.value) (g.storage c) ↔ h.Unused held c := by
  constructor
  · intro hu
    generalize hs : g.storage c = s at hu
    induction hu generalizing c with
    | @mk s hcell hheld _ ih =>
      subst hs
      refine .mk ((mem_cells_storage hf c).1 hcell) (fun v hv hvc => ?_) fun d v hv hvc => ?_
      · exact hheld _ (List.mem_map_of_mem hv) (storage?_value_eq_some.2 hvc)
      · exact ih (g.storage d) (g.value v) (by rw [g.inside_heap hf]; exact List.mem_map_of_mem hv)
          (storage?_value_eq_some.2 hvc) rfl
  · intro hu
    induction hu with
    | @mk c hcell hheld _ ih =>
      refine .mk ((mem_cells_storage hf c).2 hcell) (fun v hv hvc => ?_) fun d v hv hvc => ?_
      · obtain ⟨u, hu, rfl⟩ := List.mem_map.1 hv
        exact hheld u hu (storage?_value_eq_some.1 hvc)
      · obtain ⟨d, rfl⟩ | hd := storage_or_has (g := g) d
        · rw [g.inside_heap hf] at hv
          obtain ⟨u, hu, rfl⟩ := List.mem_map.1 hv
          exact ih d u hu (storage?_value_eq_some.1 hvc)
        · exact unused_of_has hf ht hd

/-! ## Counts -/

theorem covers_storage_iff (hf : g.Fits h) (files : Nat) (vs vs' : List Value) (s : Storage) :
    ((g.heap h).tally files vs').Covers (g.storage s) ↔ (h.tally files vs).Covers s := by
  rw [Heap.tally_eq, Heap.tally_eq, Heap.letGo, Heap.letGo, Heap.covers_letGoFrom, Heap.covers_letGoFrom,
    Heap.covers_census, Heap.covers_census, Tally.covers_zero, Tally.covers_zero]
  cases s with
  | array id =>
    have := hf.arrays
    simp only [storage, array, g.size_arrays hf, shift]
    split <;> omega
  | object id =>
    have := hf.objects
    simp only [storage, object, g.size_objects hf, shift]
    split <;> omega
  | file id => exact Iff.rfl

/-- **What a graft refers to counts no more for it.** -/
theorem tally_storage (hf : g.Fits h) (ht : g.Tidy) (files : Nat) (s : Storage) :
    ((g.heap h).tally files (held.map g.value)).of (g.storage s) = (h.tally files held).of s := by
  by_cases hc : (h.tally files held).Covers s
  · obtain ⟨live, he⟩ := h.exact_tally files held
    obtain ⟨live', he'⟩ := (g.heap h).exact_tally files (held.map g.value)
    -- What is in use with the graft is what is in use without it.
    have hperm : live'.Perm (live.map g.storage) := by
      refine (List.perm_ext_iff_of_nodup ((g.heap h).nodup_cells.sublist he'.sub) ?_).2 fun c => ?_
      · exact List.Pairwise.map _ (fun a b hab he => hab (g.storage_injective he)) (h.nodup_cells.sublist he.sub)
      rw [he'.mem_live_iff, List.mem_map]
      constructor
      · rintro ⟨hcell, hu⟩
        obtain ⟨c, rfl⟩ := (storage_or_has c).resolve_right fun hh => hu (unused_of_has hf ht hh)
        have hunused : ¬ h.Unused held c := fun h => hu ((unused_storage_iff hf ht).2 h)
        exact ⟨c, he.mem_live_iff.2 ⟨(mem_cells_storage hf c).1 hcell, hunused⟩, rfl⟩
      · rintro ⟨c, hlive, rfl⟩
        obtain ⟨hcell, hu⟩ := he.mem_live_iff.1 hlive
        exact ⟨(mem_cells_storage hf c).2 hcell, fun h => hu ((unused_storage_iff hf ht).1 h)⟩
    have hinside : (live.map g.storage).flatMap (g.heap h).inside = (live.flatMap h.inside).map g.value := by
      rw [List.flatMap_map, List.map_flatMap]
      exact congrArg (fun f => live.flatMap f) (funext fun c => g.inside_heap hf c)
    have hlive : refs (g.storage s) (live'.flatMap (g.heap h).inside) = refs s (live.flatMap h.inside) := by
      rw [← refs_map s, ← hinside]
      exact (hperm.flatMap_right _).countP_eq _
    rw [he.count s hc, he'.count _ ((covers_storage_iff hf files held _ s).2 hc), refs_map, hlive]
    rfl
  · rw [Tally.of_eq_zero hc, Tally.of_eq_zero fun hc' => hc ((covers_storage_iff hf files held _ s).1 hc')]

/-- **Storage is freed as without the graft.** -/
theorem letGoFrom_storage (hf : g.Fits h) : ∀ (fuel : Nat) {t t' : Tally} (freed : List Storage) (work : List Value),
    (∀ s, t'.of (g.storage s) = t.of s) →
      ((g.heap h).letGoFrom fuel t' (freed.map g.storage) (work.map g.value)).2 =
        (h.letGoFrom fuel t freed work).2.map g.storage
  | 0, _, _, _, _, _ => rfl
  | _ + 1, _, _, _, [], _ => rfl
  | fuel + 1, t, t', freed, v :: work, hof => by
    rw [List.map_cons, Heap.letGoFrom, Heap.letGoFrom, storage?_value]
    cases v.storage? with
    | none => exact letGoFrom_storage hf fuel freed work hof
    | some s =>
      have hlower : ∀ s', (t'.adjust (· - 1) (g.storage s)).of (g.storage s') = (t.adjust (· - 1) s).of s' := by
        intro s'
        have hiff : g.storage s = g.storage s' ↔ s = s' := ⟨fun h => g.storage_injective h, fun h => by rw [h]⟩
        simp only [Tally.of_lower, hof s', hiff]
      dsimp only [Option.map_some]
      rw [hlower s]
      split
      · rw [← List.map_cons, g.inside_heap hf, ← List.map_append]
        exact letGoFrom_storage hf fuel (s :: freed) _ hlower
      · exact letGoFrom_storage hf fuel freed work hlower

end Graft

namespace World

variable {g : Graft} {w : World}

/-- **The same files are freed.** -/
theorem freedFiles_world (hf : g.Fits w.heap) (ht : g.Tidy) (held loose : List Value) :
    (g.world w).freedFiles (held.map g.value) (loose.map g.value) = w.freedFiles held loose := by
  -- Fuel that is enough both with the graft and without.
  obtain ⟨fuel, hfuel, hfuel'⟩ : ∃ fuel, w.heap.weight + loose.length + 1 ≤ fuel ∧
      (g.heap w.heap).weight + (loose.map g.value).length + 1 ≤ fuel :=
    ⟨_, Nat.le_max_left _ _, Nat.le_max_right _ _⟩
  have htally : ∀ s, ((g.heap w.heap).tally w.files.size ((loose ++ held).map g.value)).of (g.storage s) =
      (w.heap.tally w.files.size (loose ++ held)).of s := Graft.tally_storage hf ht w.files.size
  have hfreed := Graft.letGoFrom_storage hf fuel [] loose htally
  rw [Heap.letGo_tally_of_le hfuel, List.map_append, List.map_nil, Heap.letGo_tally_of_le hfuel'] at hfreed
  have hnow : ((g.world w).heap.letGo ((g.world w).heap.tally (g.world w).files.size
      (loose.map g.value ++ held.map g.value)) (loose.map g.value)).2 =
    (w.heap.letGo (w.heap.tally w.files.size (loose ++ held)) loose).2.map g.storage := hfreed
  unfold freedFiles
  dsimp only
  rw [hnow, ← List.map_reverse, List.filterMap_map]
  refine congrFun (congrArg List.filterMap (funext fun s => ?_)) _
  cases s <;> rfl

theorem release_world (id : FileId) : (g.world w).release id = g.world (w.release id) := by
  have hfile : (g.world w).file? id = w.file? id := rfl
  unfold release writeOut
  rw [hfile]
  split
  · split <;> rfl
  · rfl

theorem foldl_release_world : ∀ (freed : List FileId) (w : World),
    freed.foldl release (g.world w) = g.world (freed.foldl release w)
  | [], _ => rfl
  | id :: freed, w => by
    rw [List.foldl_cons, List.foldl_cons, release_world, foldl_release_world]

/-- **Letting go comes to the same** with a tidy graft in the heap. -/
theorem letGo_world (hf : g.Fits w.heap) (ht : g.Tidy) (held loose : List Value) :
    (g.world w).letGo (held.map g.value) (loose.map g.value) = g.world (w.letGo held loose) := by
  have hheld : ∀ v : Value, (held.map g.value).any (·.storage? == (g.value v).storage?) =
      held.any (·.storage? == v.storage?) := by
    intro v
    rw [List.any_map]
    refine congrArg (List.any held) (funext fun u => ?_)
    have hinj : Function.Injective (Option.map g.storage) := Option.map_injective fun _ _ h => g.storage_injective h
    rw [Function.comp, Graft.storage?_value, Graft.storage?_value, Bool.eq_iff_iff, beq_iff_eq, beq_iff_eq]
    exact hinj.eq_iff
  unfold letGo
  dsimp only
  rw [List.filter_map]
  simp only [Function.comp_def, hheld, List.isEmpty_map]
  split
  · rfl
  · rw [freedFiles_world hf ht, foldl_release_world]

end World

end PseudoVm
