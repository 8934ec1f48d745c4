import PseudoVm.Proofs.Machine.Allotment
import PseudoVm.Proofs.Machine.Runs
import PseudoVm.Proofs.Machine.TraceEntries
/-!
# Machine.GraftedRun: a run does not notice storage that nothing refers to

With a tidy graft in its heap a machine takes the same steps (`Machine.step_machine`), and so for as long as it runs
(`Machine.stepped_machine`): it stops where it would, for the same reason, and shows the same.
-/
namespace PseudoVm

variable {g : Graft} {R : Region} {m : Machine}

namespace Exec

/-- However an instruction ends, storage was only added, and nothing refers to storage but that and a region's. -/
structure Adds (R : Region) (writes : Bool) (o : Op) (m : Machine) : Prop where
  ok : ∀ {flow m₁}, op o m = .ok flow m₁ →
    m₁.Within (World.Grown R m.world m₁.world) ∧ m.world.Enlarged R writes m₁.world
  error : ∀ {s m₁}, op o m = .error s m₁ →
    m₁.Within (World.Grown R m.world m₁.world) ∧ m.world.Enlarged R writes m₁.world

end Exec

namespace Machine

theorem within_true (m : Machine) : m.Within fun _ => True := by
  have hframe : ∀ f : Frame, f.Within fun _ => True := fun f => Frame.within_iff.2 fun _ _ _ _ => trivial
  exact ⟨fun f _ => hframe f, fun _ _ _ _ => trivial, fun f _ => hframe f, fun _ _ _ _ => trivial,
    fun _ _ _ _ _ _ => trivial⟩

theorem hosts_of_fits (hf : g.Fits m.world.heap) : m.Hosts g fun _ => True := ⟨m.within_true, hf⟩

theorem values_machine (m : Machine) : (g.machine m).values = m.values.map g.value := by
  have hresult : (m.result.map g.value).toList = m.result.toList.map g.value := by cases m.result <;> rfl
  unfold values Graft.machine
  dsimp only
  rw [← List.map_reverse, g.flatMap_values, g.flatMap_values, hresult, ← List.map_append, ← List.map_append]

/-- **Letting go comes to the same.** -/
theorem settle_machine (hf : g.Fits m.world.heap) (ht : g.Tidy) : (g.machine m).settle = g.machine m.settle := by
  have howes : (g.machine m).world.owesText = m.world.owesText := rfl
  have hloose : (g.machine m).loose = m.loose.map g.value := rfl
  have hworld : (g.machine m).world = g.world m.world := rfl
  unfold settle
  rw [howes, hloose, List.isEmpty_map, values_machine, hworld, World.letGo_world hf ht]
  split
  · rfl
  · split <;> rfl

theorem flowTo_machine (m : Machine) (flow : Flow) : (g.machine m).flowTo flow = g.machine (m.flowTo flow) := by
  cases flow <;> rfl

theorem allots_op_anywhere (o : Op) : Exec.AllotsSame g (fun _ => True) true (Exec.op o) (Exec.op o) :=
  Exec.allots_op o fun h => by cases h

theorem exists_unsettled (m : Machine) : ∃ m₁ : Machine, m.step.2 = m₁.settle ∧ (m₁ = m ∨ m₁ = m.counted ∨
    ∃ i, m.current? = some i ∧ m.executed < m.limits.maxInstructions ∧
      ((∃ flow m₂, Exec.op i.op m.counted = .ok flow m₂ ∧ m₁ = m₂.flowTo flow) ∨
        ∃ s, Exec.op i.op m.counted = .error s m₁)) := by
  cases hstep : m.step with
  | mk o m' =>
    cases StepsTo.of_step hstep with
    | ended | limited => exact ⟨m, rfl, .inl rfl⟩
    | pastEnd => exact ⟨m.counted, rfl, .inr (.inl rfl)⟩
    | executed hi hl ho => exact ⟨_, rfl, .inr (.inr ⟨_, hi, hl, .inl ⟨_, _, ho, rfl⟩⟩)⟩
    | failed hi hl ho => exact ⟨_, rfl, .inr (.inr ⟨_, hi, hl, .inr ⟨_, ho⟩⟩)⟩

/-- **A step only adds storage** if its instruction does, and nothing refers to storage but that and a region's. -/
theorem step_adds {writes : Bool} (hm : m.Within R)
    (ho : ∀ i, m.current? = some i → m.executed < m.limits.maxInstructions → Exec.Adds R writes i.op m.counted) :
    ∃ m₁ : Machine, m.step.2 = m₁.settle ∧ m₁.Within (World.Grown R m.world m₁.world) ∧
      m.world.Enlarged R writes m₁.world := by
  obtain ⟨m₁, hstep, rfl | rfl | ⟨i, hi, hl, ⟨flow, m₂, hop, rfl⟩ | ⟨s, hop⟩⟩⟩ := m.exists_unsettled
  · exact ⟨_, hstep, hm.stays rfl⟩
  · exact ⟨_, hstep, Within.stays (m := m.counted) { hm with } rfl⟩
  · obtain ⟨hm₂, hw⟩ := (ho i hi hl).ok hop
    refine ⟨_, hstep, ?_⟩
    rw [flowTo_world]
    exact ⟨by cases flow <;> exact { hm₂ with }, hw⟩
  · exact ⟨_, hstep, (ho i hi hl).error hop⟩

/-- **A step does not notice a tidy graft**, and leaves it where it is. -/
theorem step_machine (hf : g.Fits m.world.heap) (ht : g.Tidy) :
    (g.machine m).step = (m.step.1, g.machine m.step.2) ∧ g.Fits m.step.2.world.heap := by
  constructor
  · have hdone : (g.machine m).isDone = m.isDone := List.isEmpty_map
    have hinstr : (g.machine m).instruction? (g.machine m).pc = m.instruction? m.pc := rfl
    rw [step_eq, step_eq, hdone, hinstr]
    have hlimit : (g.machine m).limits.maxInstructions ≤ (g.machine m).executed ↔
      m.limits.maxInstructions ≤ m.executed := Iff.rfl
    by_cases hd : m.isDone = true
    · rw [if_pos hd, if_pos hd, settle_machine hf ht]
    rw [if_neg hd, if_neg hd]
    by_cases hl : m.limits.maxInstructions ≤ m.executed
    · rw [if_pos hl, if_pos (hlimit.2 hl), settle_machine hf ht]
    rw [if_neg hl, if_neg fun h => hl (hlimit.1 h)]
    have hcounted : (g.machine m).counted = g.machine m.counted := rfl
    cases m.instruction? m.pc with
    | none =>
      dsimp only
      rw [hcounted, settle_machine (m := m.counted) hf ht]
      rfl
    | some i =>
      dsimp only
      have hop := allots_op_anywhere (g := g) i.op
      have hhosts : m.counted.Hosts g fun _ => True := hosts_of_fits hf
      rw [hcounted, hop.graft hhosts]
      cases ho : Exec.op i.op m.counted with
      | ok flow m₁ =>
        have hfits : g.Fits (m₁.flowTo flow).world.heap := by
          rw [flowTo_world]
          exact Exec.Allots.fits hhosts (hop.ok hhosts ho).2.2
        simp only [Graft.ending, flowTo_machine, settle_machine hfits ht, id]
      | error s m₁ =>
        have hfits : g.Fits m₁.world.heap := Exec.Allots.fits hhosts (hop.error hhosts ho).2
        simp only [Graft.ending, settle_machine hfits ht]
  · have hop : ∀ o : Op, Exec.Adds (fun _ => True) true o m.counted := fun o =>
      ⟨fun h => ((allots_op_anywhere (g := g) o).ok (m := m.counted) (hosts_of_fits hf) h).2,
        (allots_op_anywhere (g := g) o).error (m := m.counted) (hosts_of_fits hf)⟩
    obtain ⟨m₁, hstep, -, hw⟩ := step_adds m.within_true fun i _ _ => hop i.op
    obtain ⟨freed, hfreed, -⟩ := m₁.settle_world
    rw [hstep, hfreed, (World.foldl_release_fixed freed m₁.world).1]
    exact ⟨Nat.le_trans hf.arrays hw.arrays, Nat.le_trans hf.objects hw.objects⟩

/-- **A run does not notice a tidy graft.** -/
theorem stepped_machine (hf : g.Fits m.world.heap) (ht : g.Tidy) : ∀ n,
    (g.machine m).stepped n = g.machine (m.stepped n) ∧ g.Fits (m.stepped n).world.heap
  | 0 => ⟨rfl, hf⟩
  | n + 1 => by
    obtain ⟨heq, hfits⟩ := stepped_machine hf ht n
    obtain ⟨hstep, hfits'⟩ := step_machine hfits ht
    rw [stepped, stepped, heq, hstep]
    exact ⟨rfl, hfits'⟩

/-! ## What is shown -/

theorem frameText_machine (hf : g.Fits m.world.heap) (f : Frame) :
    (g.machine m).frameText (g.frame f) = m.frameText f := by
  have hargs : (g.frame f).args.mapM (g.machine m).world.heap.inspect? = f.args.mapM m.world.heap.inspect? :=
    Graft.mapM_map_of_eq fun v _ => Graft.inspect?_heap hf v
  rw [frameText, frameText, hargs]
  rfl

theorem mapM_entriesOf_machine (hf : g.Fits m.world.heap) : ∀ (fs : List Frame) (pc : Nat),
    ((g.machine m).activationsFrom pc (fs.map g.frame)).mapM (g.machine m).entriesOf =
      (m.activationsFrom pc fs).mapM m.entriesOf
  | [], _ => rfl
  | f :: fs, pc => by
    have ih := mapM_entriesOf_machine hf fs f.returnPc
    have hinstr : (g.machine m).instruction? pc = m.instruction? pc := rfl
    have hret : (g.frame f).returnPc = f.returnPc := rfl
    rw [List.map_cons, activationsFrom, activationsFrom, hinstr, hret]
    cases m.instruction? pc with
    | none => exact ih
    | some i =>
      dsimp only
      rw [List.mapM_cons, List.mapM_cons, ih, entriesOf_eq, entriesOf_eq, frameText_machine hf]
      rfl

/-- **A fault is reported with the same trace.** -/
theorem report_machine (hf : g.Fits m.world.heap) (f : Fault) : (g.machine m).report f = m.report f := by
  have hentries := mapM_entriesOf_machine hf m.stack m.pc
  have hdone : (g.machine m).isDone = m.isDone := List.isEmpty_map
  have hpos : (g.machine m).pos = m.pos := by
    rw [pos, pos, current?, current?, hdone]
    rfl
  have hpc : (g.machine m).pc = m.pc := rfl
  have hactivations : (g.machine m).activations = (g.machine m).activationsFrom m.pc (m.stack.map g.frame) := rfl
  rw [report, report, hpos, hpc, hactivations, hentries, activations]

theorem failure?_machine (hf : g.Fits m.world.heap) (ht : g.Tidy) : (g.machine m).failure? = m.failure? := by
  obtain ⟨hstep, hfits⟩ := step_machine hf ht
  have hexplain : ∀ s, (g.machine m.step.2).explain s = m.step.2.explain s := by
    rintro (f | a)
    · exact report_machine hfits f
    · rfl
  rw [failure?, failure?, hstep]
  exact congrArg (fun e => m.step.1.map e) (funext hexplain)

end Machine

end PseudoVm
