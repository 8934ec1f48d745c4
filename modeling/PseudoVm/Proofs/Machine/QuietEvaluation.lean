import PseudoVm.Proofs.Machine.Intact
/-!
# Machine.QuietEvaluation: what an evaluation can disturb

An evaluation shares the world with the program that it runs beside.  If the instructions that it executes neither call
the library nor store into arrays and objects, it only adds storage, which nothing that the program has refers to
(`Machine.Beside`).  So the program goes on as it would have without it (`Machine.evaluate_disturbs_nothing`), whatever
slots of frames were written meanwhile: those were slots of the evaluation's own frames.
-/
namespace PseudoVm

/-- A reference to a slot of a frame, not into an array or object. -/
def Reference.isSlot : Reference → Bool
  | .global _ | .local _ _ | .param _ _ => true
  | .element _ _ | .field _ _ => false

theorem Reference.storage?_of_isSlot {r : Reference} (h : r.isSlot = true) : (Value.ref r).storage? = none := by
  cases r <;> cases h <;> rfl

/-! ## Stores into slots -/

namespace Exec

variable {m m' m₁ : Machine} {f : Frame} {depth : Nat} {r : Reference} {v : Value}

theorem store_world (hr : r.isSlot = true) (h : store r v m = .ok () m₁) : m₁.world = m.world := by
  rw [store_eq] at h
  split at h <;> cases h
  rename_i hs
  exact (m.overwritten_store (fun _ => r.storage?_of_isSlot hr) hs).same rfl

/-- **A store into a slot of a frame leaves the world alone.** -/
theorem world_of_storesThrough {o : Op} {flow : Flow} (ho : o.storesThrough = true) (h : m.AtTop f depth)
    (hr : ∀ r, f.through? o = some r → r.isSlot = true) (hop : op o m = .ok flow m') : m'.world = m.world := by
  obtain ⟨r, hthrough, v, m₁, m₂, hbefore, hstore, hafter⟩ := exists_storedThrough ho h hop
  rw [hafter, store_world (hr r hthrough) hstore, hbefore]

end Exec

/-- **Whether nothing beside a machine notices an instruction**: it does not call the library, and what it stores
through a reference goes into a slot of a frame. -/
def Machine.isQuiet (m : Machine) (o : Op) : Bool :=
  !o.isLibCall && (!o.storesThrough || (m.stack.head?.bind (·.through? o)).all (·.isSlot))

theorem Machine.isLibCall_of_isQuiet {m : Machine} {o : Op} (h : m.isQuiet o = true) : o.isLibCall = false := by
  simp only [isQuiet, Bool.and_eq_true, Bool.not_eq_true'] at h
  exact h.1

theorem Machine.isSlot_of_isQuiet {m : Machine} {o : Op} (h : m.isQuiet o = true) (ho : o.storesThrough = true)
    {f : Frame} {rest : List Frame} (hst : m.stack = f :: rest) {r : Reference} (hr : f.through? o = some r) :
    r.isSlot = true := by
  simp only [isQuiet, hst, List.head?_cons, Option.bind_some, ho, hr, Bool.not_true, Bool.false_or, Option.all_some,
    Bool.and_eq_true] at h
  exact h.2

/-- **All that a quiet instruction does to the world is to add storage.** -/
theorem Exec.adds_of_quiet {R : Region} {m : Machine} {o : Op} (hm : m.Within R) (hd : m.isDone = false)
    (hq : m.isQuiet o = true) : Exec.Adds R false o m := by
  have hhosts : m.Hosts Graft.empty R := ⟨hm, Nat.zero_le _, Nat.zero_le _⟩
  by_cases hs : o.storesThrough = true
  · have hblind : BlindSame Graft.empty R true (Exec.op o) (Exec.op o) := blind_storesThrough hs
    refine ⟨fun h => (hblind.ok hhosts h).2.1.stays ?_, fun h => (hblind.error hhosts h).1.stays ?_⟩
    · cases hst : m.stack with
      | nil =>
        rw [Machine.isDone, hst] at hd
        cases hd
      | cons f rest =>
        have htop : m.AtTop f (rest.length + 1) := ⟨rest, hst, rfl⟩
        exact world_of_storesThrough hs htop (fun r hr => Machine.isSlot_of_isQuiet hq hs hst hr) h
    · obtain ⟨w, -, hw, k, loose, -, rfl⟩ := op_backsOut o hd h
      exact hw (Machine.isLibCall_of_isQuiet hq)
  · have hallots : AllotsSame Graft.empty R false (Exec.op o) (Exec.op o) := allots_op o fun _ =>
      ⟨Machine.isLibCall_of_isQuiet hq, Bool.eq_false_iff.2 hs⟩
    exact ⟨fun h => (hallots.ok hhosts h).2, hallots.error hhosts⟩

/-! ## The run beside the program -/

namespace Machine

variable {m e e₁ : Machine}

/-- A machine that leads to all files that it may let go of changes nothing in the world as it settles. -/
theorem settle_of_reaches {R : Region} (hm : m.Within R)
    (hr : ∀ id, R (.file id) → (m.world.file? id).isSome ∧ m.world.heap.Reaches m.values (.file id)) :
    m.settle.world = m.world := by
  unfold settle
  split
  · rfl
  · split
    · exact World.letGo_of_reaches hm.closed hm.loose hr
    · rfl

/-- What the frames of a program lead to. -/
def leadsTo (m : Machine) : Region := m.world.heap.Reaches ((m.stack ++ m.suspended).flatMap Frame.values)

/-- **A machine that has run beside a program and only added storage**: it holds the program's frames back, and nothing
that it has refers to other storage than they lead to and what was added. -/
structure Beside (m e : Machine) : Prop where
  suspended : e.suspended = m.stack ++ m.suspended
  world : e.world = { m.world with heap := e.world.heap }
  grows : Heap.Grows m.leadsTo m.world.heap e.world.heap
  within : e.Within (Heap.Grown m.leadsTo m.world.heap e.world.heap)

theorem leadsTo_has (hm : m.Intact) {s : Storage} (hs : m.leadsTo s) : m.world.Has s := by
  have hheld : ∀ v ∈ (m.stack ++ m.suspended).flatMap Frame.values, v.Within m.world.Has := by
    intro v hv
    obtain ⟨f, hf, hv⟩ := List.mem_flatMap.1 hv
    rcases List.mem_append.1 hf with hf | hf
    · exact Frame.within_iff.1 (hm.stack f hf) v hv
    · exact Frame.within_iff.1 (hm.suspended f hf) v hv
  induction hs with
  | held hv hs => exact hheld _ hv _ hs
  | inside _ hv hs ih => exact hm.closed _ ih _ hv _ hs

namespace Beside

theorem grown_of_world {R : Region} {w w₁ : World} (hw : w₁ = { w with heap := w₁.heap }) {s : Storage}
    (hs : World.Grown R w w₁ s) : Heap.Grown R w.heap w₁.heap s := by
  refine hs.imp_right fun hnew => ?_
  cases s with
  | array id => exact hnew
  | object id => exact hnew
  | file id =>
    have hfiles : w₁.files = w.files := by rw [hw]
    exact absurd (Nat.lt_of_le_of_lt hnew.1 (hfiles ▸ hnew.2)) (Nat.lt_irrefl _)

theorem retains (hm : m.Intact) (hb : m.Beside e) {id : FileId}
    (hid : Heap.Grown m.leadsTo m.world.heap e.world.heap (.file id)) :
    (e.world.file? id).isSome ∧ e.world.heap.Reaches e.values (.file id) := by
  have hleads : m.leadsTo (.file id) := hid.resolve_right not_false
  constructor
  · have hfiles : e.world.files = m.world.files := by rw [hb.world]
    rw [World.file?, hfiles, Array.getElem?_eq_getElem (leadsTo_has hm hleads)]
    rfl
  · refine Heap.Reaches.grows hb.grows (fun v hv => ?_) hleads
    rw [← hb.suspended] at hv
    exact List.mem_append_right _ hv

theorem of_world_eq (hb : m.Beside e) (hs : e₁.suspended = e.suspended) (hw : e₁.world = e.world)
    (hin : e₁.Within (Heap.Grown m.leadsTo m.world.heap e.world.heap)) : m.Beside e₁ :=
  ⟨hs.trans hb.suspended, by rw [hw]; exact hb.world, by rw [hw]; exact hb.grows, by rw [hw]; exact hin⟩

theorem settle (hm : m.Intact) (hb : m.Beside e) : m.Beside e.settle :=
  hb.of_world_eq e.steady_settle.suspended (settle_of_reaches hb.within fun _ hid => hb.retains hm hid) hb.within.settle

/-- **A quiet instruction leaves the machine beside the program.** -/
theorem step (hm : m.Intact) (hb : m.Beside e)
    (hq : ∀ i, e.current? = some i → e.executed < e.limits.maxInstructions → e.isQuiet i.op = true) :
    m.Beside e.step.2 := by
  have hadds : ∀ i, e.current? = some i → e.executed < e.limits.maxInstructions →
      Exec.Adds (Heap.Grown m.leadsTo m.world.heap e.world.heap) false i.op e.counted := by
    intro i hi hl
    exact Exec.adds_of_quiet { hb.within with } (current?_eq_some_iff.1 hi).1 (hq i hi hl)
  obtain ⟨e₁, hstep, he₁, hw⟩ := step_adds hb.within hadds
  obtain ⟨hsame, hgrows⟩ := hw.same rfl
  have hgrows' := hb.grows.trans hgrows
  have hsuspended : e₁.suspended = e.suspended := by
    rw [← e₁.steady_settle.suspended, ← hstep, step_suspended]
  rw [hstep]
  refine settle hm ⟨hsuspended.trans hb.suspended, by rw [hsame, hb.world], hgrows',
    he₁.setWorld (fun s hs => hb.grows.grown_trans hgrows (grown_of_world hsame hs)) ?_⟩
  exact hgrows'.closed (Heap.closed_reaches _ _)

theorem stepped (hm : m.Intact) (hb : m.Beside e) {k : Nat} (hq : ∀ n i, n < k → (e.stepped n).current? = some i →
    (e.stepped n).executed < (e.stepped n).limits.maxInstructions → (e.stepped n).isQuiet i.op = true) :
    ∀ n, n ≤ k → m.Beside (e.stepped n)
  | 0, _ => hb
  | n + 1, hn => (hb.stepped hm hq n (Nat.le_of_succ_le hn)).step hm fun i => hq n i hn

/-- **Once the machine is gone, the world has what was added**, and is else as it was. -/
theorem leftWorld (hm : m.Intact) (hb : m.Beside e) : e.leftWorld = { m.world with heap := e.world.heap } := by
  have hempty : ({ e with stack := [], result := none } : Machine).Within
      (Heap.Grown m.leadsTo m.world.heap e.world.heap) :=
    ⟨List.forall_mem_nil _, fun v hv => (by cases hv), hb.within.suspended, hb.within.loose, hb.within.closed⟩
  have hgone : m.Beside ({ e with stack := [], result := none }.letGo
      (e.stack.reverse.flatMap Frame.values ++ e.result.toList)) :=
    hb.of_world_eq (steady_letGo _ _).suspended (letGo_world _ _)
      (hempty.letGo fun v hv => hb.within.values v (List.mem_append_left _ hv))
  unfold Machine.leftWorld
  rw [settle_of_reaches hgone.within fun id hid => hgone.retains hm hid, letGo_world]
  exact hb.world

end Beside

theorem beside_evaluator (hl : m.loose = []) {f : Frame} (hf : f ∈ m.stack) (code : List Instruction) :
    m.Beside (m.evaluator f code) := by
  have hframe : ∀ f ∈ m.stack ++ m.suspended, f.Within m.leadsTo := fun f hf => Frame.within_iff.2 fun v hv s hs =>
    .held (List.mem_flatMap.2 ⟨f, hf, hv⟩) hs
  have hstack : ∀ f ∈ m.stack, f.Within m.leadsTo := fun f hf => hframe f (List.mem_append_left _ hf)
  have hwithin : (m.evaluator f code).Within m.leadsTo := by
    refine ⟨List.forall_mem_cons.2 ⟨{ hstack f hf with eval := List.forall_mem_nil _ }, hstack⟩,
      fun v hv => (by cases hv), hframe, fun v hv => ?_, Heap.closed_reaches _ _⟩
    have hloose : (m.evaluator f code).loose = [] := hl
    rw [hloose] at hv
    cases hv
  exact ⟨rfl, rfl, .refl, hwithin.setWorld (fun s => .inl) (Heap.Grows.refl.closed (Heap.closed_reaches _ _))⟩

/-- A run of a machine gets to execute an instruction, after so many others. -/
def Executes (m : Machine) (n : Nat) (i : Instruction) : Prop :=
  m.Succeeds n ∧ (m.stepped n).current? = some i ∧ (m.stepped n).executed < (m.stepped n).limits.maxInstructions

/-- **All instructions that an evaluation executes are quiet**, those of the code and of functions that it calls. -/
def EvaluatesQuietly (m : Machine) (id : Nat) (code : List Instruction) : Prop :=
  ∀ f, 0 < id → m.frame? (id - 1) = some f → ∀ n i, (m.evaluator f code).Executes n i →
    ((m.evaluator f code).stepped n).isQuiet i.op = true

theorem evaluatesQuietly_of_finishes {id k : Nat} {code : List Instruction} {f : Frame}
    (hf : m.frame? (id - 1) = some f) (hd : ((m.evaluator f code).stepped k).isDone = true)
    (hq : ((List.range k).all fun n => ((m.evaluator f code).stepped n).current?.all fun i =>
      ((m.evaluator f code).stepped n).isQuiet i.op) = true) : m.EvaluatesQuietly id code := by
  rintro f' - hf' n i ⟨hn, hi, -⟩
  cases hf.symm.trans hf'
  have hlt : n < k := by
    rcases Nat.lt_trichotomy n k with hlt | rfl | hgt
    · exact hlt
    · rw [(current?_eq_some_iff.1 hi).1] at hd
      cases hd
    · rw [isDone_of_succeeds (hn k hgt)] at hd
      cases hd
  have hall := List.all_eq_true.1 hq n (List.mem_range.2 hlt)
  rw [hi] at hall
  exact hall

/-- **A quiet evaluation adds storage to the world, and that is all that it does.** -/
theorem evaluate_grows (hm : m.Intact) (hl : m.loose = []) {id : Nat} {code : List Instruction}
    (hq : m.EvaluatesQuietly id code) : ∃ h, Heap.Grows m.leadsTo m.world.heap h ∧
      (m.evaluate id code).2 = { m with world := { m.world with heap := h } } := by
  obtain hsame | ⟨f, k, hid, hf, heq, hrun⟩ := m.evaluate_world id code
  · exact ⟨m.world.heap, .refl, hsame⟩
  · have hmem : f ∈ m.stack := by
      obtain ⟨i, hi, -⟩ := frame?_eq_some hf
      exact List.mem_of_getElem? hi
    have hend := (beside_evaluator hl hmem code).stepped hm
      (fun n i hn hi hlimit => hq f hid hf n i ⟨hrun n hn, hi, hlimit⟩) k (Nat.le_refl k)
    exact ⟨_, hend.grows, by rw [heq, hend.leftWorld hm]⟩

/-! ## The program afterwards -/

theorem frame_of_fixed {g : Graft} {f : Frame} (hf : ∀ v ∈ f.values, g.value v = v) : g.frame f = f := by
  have hmap : ∀ {vs : List Value}, (∀ v ∈ vs, v ∈ f.values) → vs.map g.value = vs := fun h =>
    (List.map_congr_left fun v hv => hf v (h v hv)).trans (List.map_id _)
  have hlocals : f.locals.map (·.map g.value) = f.locals := by
    refine (List.map_congr_left fun o ho => ?_).trans (List.map_id _)
    cases o with
    | none => rfl
    | some v => exact congrArg some (hf v (by simp [Frame.values, Frame.cellValues, ho]))
  have hargs : ∀ v ∈ f.args, v ∈ f.values := fun v hv => by simp [Frame.values, Frame.cellValues, hv]
  have hparams : ∀ v ∈ f.params, v ∈ f.values := fun v hv => by simp [Frame.values, Frame.cellValues, hv]
  have heval : ∀ v ∈ f.eval, v ∈ f.values := fun v hv => by simp [Frame.values, hv]
  unfold Graft.frame
  rw [hmap hargs, hmap hparams, hmap heval, hlocals]

/-- **A program with more in its heap** is the program with that as a graft, as it refers to none of it. -/
theorem machine_beyond (hm : m.Intact) {R : Region} {h : Heap} (hg : Heap.Grows R m.world.heap h) :
    (m.world.heap.beyond h).machine m = { m with world := { m.world with heap := h } } := by
  have hfixed : ∀ v : Value, v.Within m.world.Has → (m.world.heap.beyond h).value v = v := fun v hv =>
    Graft.value_of_fixed _ fun s hs => (hv s hs).storage_beyond h
  have hlist : ∀ {vs : List Value}, (∀ v ∈ vs, v.Within m.world.Has) → vs.map (m.world.heap.beyond h).value = vs :=
    fun hvs => (List.map_congr_left fun v hv => hfixed v (hvs v hv)).trans (List.map_id _)
  have hframes : ∀ {fs : List Frame}, (∀ f ∈ fs, f.Within m.world.Has) → fs.map (m.world.heap.beyond h).frame = fs :=
    fun hfs => (List.map_congr_left fun f hf => frame_of_fixed fun v hv =>
      hfixed v (Frame.within_iff.1 (hfs f hf) v hv)).trans (List.map_id _)
  have hresult : m.result.map (m.world.heap.beyond h).value = m.result := by
    cases hr : m.result with
    | none => rfl
    | some v => exact congrArg some (hfixed v (hm.result v hr))
  have hheap : (m.world.heap.beyond h).heap m.world.heap = h := by
    refine hg.heap_beyond fun c v hv => hfixed v ?_
    have hc : m.world.Has c := by
      have hcell := Heap.mem_cells (List.ne_nil_of_mem hv)
      rw [Heap.mem_cells_iff] at hcell
      cases c with
      | array id => exact hcell
      | object id => exact hcell
      | file id => exact hcell.elim
    exact hm.closed c hc v hv
  unfold Graft.machine Graft.world
  rw [hframes hm.stack, hframes hm.suspended, hlist hm.loose, hresult, hheap]

/-- **One machine goes on as another would**, but for the identities of storage: after every number of steps it is where
the other is, the world is the same but for the heap, values look the same, and the next step fails if the other's
does, with the same report. -/
structure GoesOnAs (g : Graft) (m' m : Machine) : Prop where
  machine : ∀ n, m'.stepped n = g.machine (m.stepped n)
  world : ∀ n, (m'.stepped n).world = { (m.stepped n).world with heap := (m'.stepped n).world.heap }
  values : ∀ n v, (m'.stepped n).world.heap.inspect? (g.value v) = (m.stepped n).world.heap.inspect? v
  failure : ∀ n, (m'.stepped n).failure? = (m.stepped n).failure?

theorem goesOnAs_machine {g : Graft} (hf : g.Fits m.world.heap) (ht : g.Tidy) : GoesOnAs g (g.machine m) m := by
  have hn := fun n => stepped_machine hf ht n
  refine ⟨fun n => (hn n).1, fun n => ?_, fun n v => ?_, fun n => ?_⟩ <;> rw [(hn n).1]
  · rfl
  · exact Graft.inspect?_heap (hn n).2 v
  · exact failure?_machine (hn n).2 ht

/-- **What an evaluation can disturb.**  Whatever code is evaluated on whichever frame of a program under a debugger,
and however that ends: if the instructions executed neither call the library nor store into arrays and objects, every
array and object that there was has the contents that it had, and the console, the random generator, the disk and the
files are as they were.  The program's own frames are not touched, so it goes on as if there had been no evaluation;
only storage that it adds from then on goes by later identities. -/
theorem evaluate_disturbs_nothing {image : Image} {limits : Limits} (hm : Live image limits m) (id : Nat)
    (code : List Instruction) (hq : m.EvaluatesQuietly id code) :
    ∃ h, (m.evaluate id code).2 = { m with world := { m.world with heap := h } } ∧
      (∀ a : ArrayId, a.index < m.world.heap.arrays.size → h.items? a = m.world.heap.items? a) ∧
      (∀ o : ObjectId, o.index < m.world.heap.objects.size → h.fields? o = m.world.heap.fields? o) ∧
      (∀ s, m.world.Has s → (m.world.heap.beyond h).storage s = s) ∧
      GoesOnAs (m.world.heap.beyond h) (m.evaluate id code).2 m := by
  obtain ⟨h, hg, heq⟩ := evaluate_grows hm.intact hm.loose hq
  have htidy := hg.tidy_beyond fun a ha => leadsTo_has (s := .array a) hm.intact ha
  refine ⟨h, heq, fun a ha => hg.items?_eq ha, fun o ho => hg.fields?_eq ho, fun s hs => hs.storage_beyond h, ?_⟩
  rw [heq, ← machine_beyond hm.intact hg]
  exact goesOnAs_machine (Heap.fits_beyond _ _) htidy

/-- A program that keeps an array, and later another one instead.  A function of its puts what its local holds in the
place of the array. -/
def keeping : Image where
  code := #[⟨⟨1, 1⟩, .litBool true⟩, ⟨⟨1, 1⟩, .arrayNew 1⟩, ⟨⟨1, 1⟩, .globalRef 0⟩, ⟨⟨1, 1⟩, .store⟩,
    ⟨⟨2, 1⟩, .litBool false⟩, ⟨⟨2, 1⟩, .arrayNew 1⟩, ⟨⟨2, 1⟩, .globalRef 0⟩, ⟨⟨2, 1⟩, .store⟩, ⟨⟨3, 1⟩, .globalVal 0⟩,
    ⟨⟨3, 1⟩, .halt 1⟩, ⟨⟨5, 1⟩, .begin 1⟩, ⟨⟨6, 1⟩, .litBool false⟩, ⟨⟨6, 1⟩, .localRef 0⟩, ⟨⟨6, 1⟩, .store⟩,
    ⟨⟨7, 1⟩, .localVal 0⟩, ⟨⟨7, 1⟩, .globalRef 0⟩, ⟨⟨7, 1⟩, .store⟩, ⟨⟨8, 1⟩, .globalVal 0⟩, ⟨⟨8, 1⟩, .ret 1⟩]
  labels := #[⟨"forget", 10⟩]
  strings := #[]
  classes := #[]
  scopes := #[.global ["kept"], .callable "forget" [] ["nothing"]]
  globalScope := 0

/-- That program about to start, with nothing to read. -/
def keepingStart : Machine :=
  ⟨keeping, {}, 0, [.fresh 0 0 0 [] 1], 0, none, [], [], { console := ⟨.script [], [], ""⟩, random := .ofSeed 0 }⟩

/-- Code that calls the function, and makes an array of its answer. -/
def forgetting : List Instruction :=
  [⟨⟨9, 1⟩, .call 0 1 0⟩, ⟨⟨9, 1⟩, .arrayNew 1⟩, ⟨⟨9, 1⟩, .halt 1⟩]

/-- The evaluation stores into its global and its local, and makes an array.  The program still has the array that it
kept, and makes the other one and ends with it as it would have. -/
theorem evaluate_disturbs_nothing_keeping :
    ((keepingStart.stepped 4).evaluate 1 forgetting).2.world.heap.arrays = #[#[.bool true], #[.bool false]] ∧
    ((keepingStart.stepped 4).evaluate 1 forgetting).2.stack.map Frame.locals = [[some (.array ⟨0⟩)]] ∧
    (((keepingStart.stepped 4).evaluate 1 forgetting).2.stepped 6).result = some (.array ⟨2⟩) ∧
    (((keepingStart.stepped 4).evaluate 1 forgetting).2.stepped 6).world.heap.inspect? (.array ⟨2⟩) =
      (keepingStart.stepped 10).world.heap.inspect? (.array ⟨1⟩) ∧
    ∀ n, (((keepingStart.stepped 4).evaluate 1 forgetting).2.stepped n).failure? =
      ((keepingStart.stepped 4).stepped n).failure? := by
  have hm : Live keeping {} (keepingStart.stepped 4) := by
    refine Live.stepped (.start (w := keepingStart.world) (fun c _ v hv => ?_) rfl) 4
    cases c <;> cases hv
  have hq : (keepingStart.stepped 4).EvaluatesQuietly 1 forgetting :=
    evaluatesQuietly_of_finishes (k := 12) (f := ⟨0, 0, 0, [], [], [some (.array ⟨0⟩)], []⟩) rfl rfl rfl
  obtain ⟨h, heq, -, -, -, hgo⟩ := evaluate_disturbs_nothing hm 1 forgetting hq
  have hheap : h = ((keepingStart.stepped 4).evaluate 1 forgetting).2.world.heap := by rw [heq]
  have hlater : ((keepingStart.stepped 4).world.heap.beyond h).value (.array ⟨1⟩) = .array ⟨2⟩ := by
    rw [hheap]
    rfl
  have hvalue := hgo.values 6 (.array ⟨1⟩)
  rw [hlater] at hvalue
  exact ⟨rfl, rfl, rfl, hvalue, hgo.failure⟩

end Machine

end PseudoVm
