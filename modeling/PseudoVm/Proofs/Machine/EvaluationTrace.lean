import PseudoVm.Machine.Evaluate
import PseudoVm.Proofs.Machine.TraceEntries
/-!
# Machine.EvaluationTrace: the trace of an evaluation that fails

An evaluation pushes its frame by hand, and the frames of the live program stand below it.  The walk of a trace reaches
them with the return offset of the evaluation's frame, which is no call site but offset 0.  So the trace of a failing
evaluation shows the live frames as if the latest of them stood at the first instruction, wherever it does stand
(`Machine.evaluate_trace`); the others are shown at their call sites.
-/
namespace PseudoVm

theorem mapM_append_eq_ok {α β ε : Type} {f : α → Except ε β} {l l' : List α} {bs : List β}
    (h : (l ++ l').mapM f = .ok bs) : ∃ b b', l.mapM f = .ok b ∧ l'.mapM f = .ok b' ∧ bs = b ++ b' := by
  rw [List.mapM_append] at h
  cases hl : l.mapM f with
  | error e =>
    rw [hl] at h
    cases h
  | ok b =>
    cases hl' : l'.mapM f with
    | error e =>
      rw [hl, hl'] at h
      cases h
    | ok b' =>
      rw [hl, hl'] at h
      cases h
      exact ⟨b, b', rfl, rfl, rfl⟩

theorem Instruction.native_of_not_lib {i : Instruction} (h : i.op.isLibCall = false) (pc : Nat) :
    i.native pc = [] := by
  unfold native
  split
  · rename_i hop
    rw [hop] at h
    cases h
  · rfl

namespace Machine

variable {m₀ m e : Machine}

/-! ## A walk in two parts -/

theorem id_le_of_mem_activationsFrom {a : Activation} : ∀ {fs : List Frame} {pc : Nat},
    a ∈ m.activationsFrom pc fs → a.id ≤ fs.length
  | [], _, h => by cases h
  | f :: rest, pc, h => by
    unfold activationsFrom at h
    dsimp only at h
    split at h
    · rcases List.mem_cons.1 h with rfl | h
      · exact Nat.le_refl _
      · exact Nat.le_succ_of_le (id_le_of_mem_activationsFrom h)
    · exact Nat.le_succ_of_le (id_le_of_mem_activationsFrom h)

theorem activationsFrom_append (f : Frame) (gs : List Frame) : ∀ (fs : List Frame) (pc : Nat),
    ∃ above, m.activationsFrom pc (fs ++ f :: gs) = above ++ m.activationsFrom f.returnPc gs ∧
      ∀ a ∈ above, gs.length < a.id
  | [], pc => by
    rw [List.nil_append, activationsFrom]
    split
    · exact ⟨[_], rfl, List.forall_mem_singleton.2 (Nat.lt_succ_self _)⟩
    · exact ⟨[], rfl, List.forall_mem_nil _⟩
  | g :: fs, pc => by
    obtain ⟨above, habove, hid⟩ := activationsFrom_append f gs fs g.returnPc
    rw [List.cons_append, activationsFrom, habove]
    split
    · refine ⟨_ :: above, rfl, List.forall_mem_cons.2 ⟨?_, hid⟩⟩
      rw [List.length_append, List.length_cons]
      dsimp only
      omega
    · exact ⟨above, rfl, hid⟩

theorem activationsFrom_split (f : Frame) (fs gs : List Frame) (pc : Nat) :
    m.activationsFrom pc (fs ++ f :: gs) =
      (m.activationsFrom pc (fs ++ f :: gs)).filter (fun a => gs.length < a.id) ++ m.activationsFrom f.returnPc gs := by
  obtain ⟨above, hwalk, hid⟩ := activationsFrom_append (m := m) f gs fs pc
  have habove : above.filter (fun a => gs.length < a.id) = above :=
    List.filter_eq_self.2 fun a ha => decide_eq_true (hid a ha)
  have hbelow : (m.activationsFrom f.returnPc gs).filter (fun a => gs.length < a.id) = [] :=
    List.filter_eq_nil_iff.2 fun a ha hlt =>
      absurd (of_decide_eq_true hlt) (Nat.not_lt_of_le (id_le_of_mem_activationsFrom ha))
  rw [hwalk, List.filter_append, habove, hbelow, List.append_nil]

theorem mapM_entriesOf_congr (hs : e.image.scopes = m.image.scopes) (hh : e.world.heap = m.world.heap) :
    ∀ {fs gs : List Frame} {pc : Nat}, fs.map Frame.outline = gs.map Frame.outline →
      (∀ pc' ∈ sites pc gs, e.instruction? pc' = m.instruction? pc') →
      (e.activationsFrom pc fs).mapM e.entriesOf = (m.activationsFrom pc gs).mapM m.entriesOf
  | [], [], _, _, _ => rfl
  | [], _ :: _, _, h, _ => nomatch h
  | _ :: _, [], _, h, _ => nomatch h
  | f :: fs, g :: gs, pc, h, hi => by
    obtain ⟨hfg, hrest⟩ := List.cons.inj h
    have hsites : sites pc (g :: gs) = pc :: sites g.returnPc gs := by
      rw [sites, sites, List.map_cons, List.length_cons, List.take_succ_cons]
    rw [hsites] at hi
    obtain ⟨hpc, hi⟩ := List.forall_mem_cons.1 hi
    have hret : f.returnPc = g.returnPc := congrArg Outline.returnPc hfg
    have hlen : fs.length = gs.length := by
      have := congrArg List.length hrest
      rwa [List.length_map, List.length_map] at this
    have htext : e.frameText f = m.frameText g := by
      have hscope : f.scope = g.scope := congrArg Outline.scope hfg
      have hargs : f.args = g.args := congrArg Outline.args hfg
      rw [frameText, frameText, hs, hh, hscope, hargs]
    have ih := mapM_entriesOf_congr hs hh hrest hi
    rw [activationsFrom, activationsFrom, hpc, hret]
    cases m.instruction? pc with
    | none => exact ih
    | some i =>
      dsimp only
      rw [List.mapM_cons, List.mapM_cons, ih, entriesOf_eq, entriesOf_eq, htext]
      rfl

theorem activationsFrom_congr (hi : e.image = m.image) : ∀ (fs : List Frame) (pc : Nat),
    e.activationsFrom pc fs = m.activationsFrom pc fs
  | [], _ => rfl
  | f :: fs, pc => by
    have hpc : e.instruction? pc = m.instruction? pc := by rw [instruction?, instruction?, hi]
    rw [activationsFrom, activationsFrom, hpc, activationsFrom_congr hi fs]

/-- The lines for the frames of a program that stands elsewhere: that of the latest frame shows it there. -/
theorem ownEntries_at_pc {pc : Nat} {i j : Instruction} (hi : m.instruction? pc = some i)
    (hcur : m.current? = some j) {own : List TraceEntry} (h : m.ownEntries = .ok own) :
    ∃ scope callers, own = ⟨scope, j.pos, m.pc, false⟩ :: callers ∧
      { m with pc := pc }.ownEntries = .ok (⟨scope, i.pos, pc, false⟩ :: callers) := by
  obtain ⟨hpos, hj⟩ := instruction?_of_current? hcur
  obtain ⟨f, rest, hst⟩ := List.exists_cons_of_ne_nil (List.length_pos_iff.1 hpos)
  have hlines : ∀ {pc : Nat} {i : Instruction}, m.instruction? pc = some i → { m with pc := pc }.ownEntries =
      (m.frameText f).bind fun scope =>
        ((m.activationsFrom f.returnPc rest).mapM fun a => (m.frameText a.frame).map a.entry).map
          (Activation.entry ⟨f, rest.length + 1, i, pc⟩ scope :: ·) := by
    intro pc i hi
    have hcongr : { m with pc := pc }.activationsFrom pc m.stack = m.activationsFrom pc m.stack :=
      activationsFrom_congr (e := { m with pc := pc }) (m := m) rfl m.stack pc
    have hwalk : { m with pc := pc }.activations = ⟨f, rest.length + 1, i, pc⟩ :: m.activationsFrom f.returnPc rest :=
      hcongr.trans (by rw [hst, activationsFrom_cons hi])
    rw [ownEntries, hwalk, List.mapM_cons]
    show ((m.frameText f).map _).bind _ = _
    cases m.frameText f with
    | error a => rfl
    | ok scope =>
      show (List.mapM (fun a : Activation => (m.frameText a.frame).map a.entry) _).bind _ = _
      cases (m.activationsFrom f.returnPc rest).mapM fun a => (m.frameText a.frame).map a.entry <;> rfl
  have hown : m.ownEntries = _ := hlines hj
  rw [hlines hi]
  rw [hown] at h
  cases htext : m.frameText f with
  | error a =>
    rw [htext] at h
    cases h
  | ok scope =>
    rw [htext] at h
    cases hcallers : (m.activationsFrom f.returnPc rest).mapM fun a => (m.frameText a.frame).map a.entry with
    | error a =>
      rw [hcallers] at h
      cases h
    | ok callers =>
      rw [hcallers] at h
      cases h
      exact ⟨scope, callers, rfl, rfl⟩

theorem report_eq_ok_iff {err : Fault} {p : FaultReport} : m.report err = .ok p ↔
    ∃ groups, m.activations.mapM m.entriesOf = .ok groups ∧ p = ⟨err, m.pc, m.pos, groups.flatten⟩ := by
  unfold report
  cases m.activations.mapM m.entriesOf with
  | error a => exact ⟨nofun, fun ⟨_, h, _⟩ => nomatch h⟩
  | ok groups =>
    constructor
    · intro h
      cases h
      exact ⟨groups, rfl, rfl⟩
    · rintro ⟨_, hg, rfl⟩
      cases hg
      rfl

/-! ## Evaluations -/

theorem settle_heap (m : Machine) : m.settle.world.heap = m.world.heap := by
  obtain ⟨freed, hw, -⟩ := m.settle_world
  rw [hw]
  exact (World.foldl_release_fixed freed m.world).1

theorem leftWorld_heap (m : Machine) : m.leftWorld.heap = m.world.heap := by
  unfold leftWorld
  rw [settle_heap, letGo_world]

theorem evaluate_of_fails {id n : Nat} {code : List Instruction} {f : Frame} {err : Fault} (hid : 0 < id)
    (hf : m.frame? (id - 1) = some f) (hn : (m.evaluator f code).Succeeds n)
    (hs : ((m.evaluator f code).stepped n).step.1 = some (.fault err))
    (hd : ((m.evaluator f code).stepped n).isDone = false) :
    (m.evaluate id code).1 = (((m.evaluator f code).stepped (n + 1)).report err).map .error ∧
      (m.evaluate id code).2 = { m with world := ((m.evaluator f code).stepped (n + 1)).leftWorld } := by
  have hrun := run_of_fails hn hd hs
  have hsome : (if id = 0 then none else m.frame? (id - 1)) = some f := by rw [if_neg (by omega), hf]
  unfold evaluate
  rw [hsome]
  dsimp only
  rw [evaluated, runTraced, hrun]
  dsimp only [explain]
  cases ((m.evaluator f code).stepped (n + 1)).report err <;> exact ⟨rfl, rfl⟩

theorem stack_of_evaluating {n : Nat} {code : List Instruction} {f : Frame} {s : Stop}
    (hn : (m.evaluator f code).Succeeds n) (hs : ((m.evaluator f code).stepped n).step.1 = some s)
    (hon : ∀ j, j ≤ n → m.depth < ((m.evaluator f code).stepped j).depth) :
    ∃ calls own below, ((m.evaluator f code).stepped (n + 1)).stack = calls ++ own :: below ∧ own.returnPc = 0 ∧
      below.map Frame.outline = m.stack.map Frame.outline := by
  have hu : (m.evaluator f code).UnderWay { f with start := m.image.code.size, returnPc := 0, eval := [] }.outline
      m.stack := ⟨0, _, _, rfl, rfl, rfl⟩
  have hlive : ∀ j, j ≤ n → ((m.evaluator f code).stepped j).depth ≠ m.stack.length := fun j hj =>
    Nat.ne_of_gt (hon j hj)
  obtain ⟨k, -, hst, -⟩ := step_some (show ((m.evaluator f code).stepped n).step =
    (some s, (m.evaluator f code).stepped (n + 1)) by rw [← hs]; rfl)
  rcases hu.stepped hn hlive with h | hnil
  · have hcounted : { (m.evaluator f code).stepped n with
        executed := ((m.evaluator f code).stepped n).executed + k }.UnderWay _ m.stack := h.of_stack_eq rfl
    obtain ⟨calls, own, below, hdrop, hown, hbelow⟩ := hcounted.of_steady hst
    refine ⟨((m.evaluator f code).stepped (n + 1)).stack.take calls, own, below, ?_, congrArg Outline.returnPc hown,
      (map_bare_eq_iff.1 hbelow).1⟩
    rw [← hdrop, List.take_append_drop]
  · have := hon n (Nat.le_refl n)
    rw [depth, depth, hnil] at this
    exact absurd this (Nat.not_lt_zero _)

theorem isSome_of_mem_sites (hs : m.Sound) (hi : (m.instruction? m.pc).isSome) {pc : Nat}
    (h : pc ∈ sites m.pc m.stack) : (m.instruction? pc).isSome := by
  obtain ⟨n, hn⟩ := List.getElem?_of_mem h
  have hlt : n < m.stack.length := by
    have := (List.getElem?_eq_some_iff.1 hn).1
    rwa [length_sites] at this
  obtain ⟨a, -, -, hsite, hinstr⟩ := getElem?_activations hs hi (List.getElem?_eq_getElem hlt)
  cases hn.symm.trans hsite
  rw [hinstr]
  rfl

theorem mapM_entriesOf_below (hs : m.Sound) (hi : (m.instruction? 0).isSome) {code : List Instruction}
    (hc : e.image = { m.image with code := m.image.code ++ code.toArray }) (hh : e.world.heap = m.world.heap)
    {below : List Frame} (hb : below.map Frame.outline = m.stack.map Frame.outline) :
    (e.activationsFrom 0 below).mapM e.entriesOf =
      { m with pc := 0 }.activations.mapM { m with pc := 0 }.entriesOf := by
  refine mapM_entriesOf_congr (m := { m with pc := 0 }) (by rw [hc]) hh hb fun pc hpc => ?_
  have hsome : (m.instruction? pc).isSome := isSome_of_mem_sites (hs.at_pc (Nat.zero_le _)) hi hpc
  obtain ⟨i, hi⟩ := Option.isSome_iff_exists.1 hsome
  show e.image.code[pc]? = m.image.code[pc]?
  rw [hc]
  exact Array.getElem?_append_left (lt_of_instruction? hi)

theorem entries_at_start (hs : m.Sound) (hd : 0 < m.depth) (hpc : m.pc < m.image.code.size)
    {groups : List (List TraceEntry)}
    (h : { m with pc := 0 }.activations.mapM { m with pc := 0 }.entriesOf = .ok groups) :
    ∃ scope callers i j, m.image.code[0]? = some i ∧ m.image.code[m.pc]? = some j ∧
      groups.flatten = i.native 0 ++ ⟨scope, i.pos, 0, false⟩ :: callers ∧
      m.ownEntries = .ok (⟨scope, j.pos, m.pc, false⟩ :: callers) := by
  have hstart : 0 < m.image.code.size := hs.wellFormed.code_ne
  obtain ⟨i, hi⟩ := exists_current? (m := { m with pc := 0 }) hd hstart
  obtain ⟨j, hj⟩ := exists_current? hd hpc
  have hij : m.instruction? m.pc = some j := (instruction?_of_current? hj).2
  have hreport := report_eq (m := { m with pc := 0 }) (hs.at_pc (Nat.zero_le _)) hi .divideByZero
  rw [report_eq_ok_iff.2 ⟨groups, h, rfl⟩] at hreport
  cases hown : { m with pc := 0 }.ownEntries with
  | error a =>
    rw [hown] at hreport
    cases hreport
  | ok own =>
    rw [hown] at hreport
    obtain ⟨scope, callers, rfl, hlive⟩ := ownEntries_at_pc (m := { m with pc := 0 }) hij hi hown
    exact ⟨scope, callers, i, j, (instruction?_of_current? hi).2, hij,
      congrArg FaultReport.entries (Except.ok.inj hreport), hlive⟩

theorem entries_at_start_iff (i j : Instruction) (hij : m.pc = 0 → i = j) (scope : String)
    (callers : List TraceEntry) :
    i.native 0 ++ ⟨scope, i.pos, 0, false⟩ :: callers = ⟨scope, j.pos, m.pc, false⟩ :: callers ↔
      m.pc = 0 ∧ i.op.isLibCall = false := by
  constructor
  · intro h
    have hnil : i.native 0 = [] := by
      have hlen := congrArg List.length h
      simp only [List.length_append, List.length_cons] at hlen
      exact List.length_eq_zero_iff.1 (by omega)
    rw [hnil, List.nil_append] at h
    have hpc : 0 = m.pc := congrArg TraceEntry.pc (List.cons.inj h).1
    exact ⟨hpc.symm, Bool.eq_false_iff.2 fun hlib => (Instruction.native_ne_nil 0).2 hlib hnil⟩
  · rintro ⟨hpc, hlib⟩
    rw [Instruction.native_of_not_lib hlib, hpc, hij hpc]
    rfl

/-- **What the trace of a failing evaluation shows of the live program.**  While the frame of the evaluation is on the
stack, a fault is reported with the lines of that frame and its calls, and below them with those of the live frames.
They are the lines that the live program's own trace has, but for the latest frame: it is shown at offset 0, behind a
line for the library function called there, if one is.  So the two agree only if the live program stands there too. -/
theorem evaluate_trace {image : Image} {limits : Limits} {world : World} {f : Frame} {id n : Nat}
    {code : List Instruction} {err : Fault} {p : FaultReport} (hv : image.isValid = true)
    (h₀ : create? image limits world = some m₀) (h : m₀.Reachable m) (hpc : m.pc < image.code.size) (hid : 0 < id)
    (hf : m.frame? (id - 1) = some f) (hn : (m.evaluator f code).Succeeds n)
    (hs : ((m.evaluator f code).stepped n).step.1 = some (.fault err))
    (hon : ∀ j, j ≤ n → m.depth < ((m.evaluator f code).stepped j).depth)
    (hp : (m.evaluate id code).1 = .ok (.error p)) :
    ∃ groups scope callers i j, ((m.evaluator f code).stepped (n + 1)).report err = .ok p ∧
      (((m.evaluator f code).stepped (n + 1)).activations.filter fun a => m.depth < a.id).mapM
        ((m.evaluator f code).stepped (n + 1)).entriesOf = .ok groups ∧
      image.code[0]? = some i ∧ image.code[m.pc]? = some j ∧
      p.entries = groups.flatten ++ (i.native 0 ++ ⟨scope, i.pos, 0, false⟩ :: callers) ∧
      (m.evaluate id code).2.ownEntries = .ok (⟨scope, j.pos, m.pc, false⟩ :: callers) ∧
      (i.native 0 ++ ⟨scope, i.pos, 0, false⟩ :: callers = ⟨scope, j.pos, m.pc, false⟩ :: callers ↔
        m.pc = 0 ∧ i.op.isLibCall = false) := by
  have hsound : m.Sound := h.sound (sound_create? hv h₀)
  have himage : m.image = image := h.fixed.1.trans (create?_fixed h₀).1
  have hdepth : 0 < m.depth := by
    obtain ⟨k, -, hk⟩ := frame?_eq_some hf
    unfold depth
    omega
  have hdone := isDone_of_depth_pos (Nat.zero_lt_of_lt (hon n (Nat.le_refl n)))
  obtain ⟨hout, hleft⟩ := evaluate_of_fails hid hf hn hs hdone
  obtain ⟨calls, own, below, hstack, hret, hbelow⟩ := stack_of_evaluating hn hs hon
  have hc : ((m.evaluator f code).stepped (n + 1)).image = { m.image with code := m.image.code ++ code.toArray } :=
    (reachable_stepped _ (n + 1)).fixed.1
  generalize (m.evaluator f code).stepped (n + 1) = e at hout hleft hstack hc ⊢
  have hreport : e.report err = .ok p := by
    rw [hout] at hp
    cases hr : e.report err with
    | error a =>
      rw [hr] at hp
      cases hp
    | ok q =>
      rw [hr] at hp
      cases hp
      rfl
  obtain ⟨groups, hgroups, rfl⟩ := report_eq_ok_iff.1 hreport
  -- the walk goes over the evaluation's own frames first, then over the live ones
  have hlen : below.length = m.depth := by
    have := congrArg List.length hbelow
    rwa [List.length_map, List.length_map] at this
  have hwalk : e.activations = e.activations.filter (fun a => m.depth < a.id) ++ e.activationsFrom 0 below := by
    have hsplit := activationsFrom_split (m := e) own calls below e.pc
    rwa [hret, ← hstack, hlen] at hsplit
  have hbegin : 0 < m.image.code.size := hsound.wellFormed.code_ne
  rw [← himage] at hpc ⊢
  rw [hwalk] at hgroups
  obtain ⟨groups₁, groups₂, hown, hlive, rfl⟩ := mapM_append_eq_ok hgroups
  have hsound' : { m with world := e.leftWorld }.Sound := ⟨hsound.wellFormed, hsound.framed, hsound.depth, hsound.pc⟩
  rw [mapM_entriesOf_below hsound' (Option.isSome_iff_exists.2 ⟨_, Array.getElem?_eq_getElem hbegin⟩) hc
    (leftWorld_heap e).symm hbelow] at hlive
  obtain ⟨scope, callers, i, j, hi, hj, hflat, hentries⟩ := entries_at_start hsound' hdepth hpc hlive
  refine ⟨groups₁, scope, callers, i, j, hreport, hown, hi, hj, ?_, hleft ▸ hentries, ?_⟩
  · rw [← hflat]
    exact List.flatten_append
  · exact entries_at_start_iff i j (fun h0 => Option.some.inj (hi.symm.trans (h0 ▸ hj))) scope callers

/-- A program that calls a function on its second line. -/
def callSecond : Image where
  code := #[⟨⟨1, 1⟩, .litInt 1⟩, ⟨⟨1, 5⟩, .pop⟩, ⟨⟨2, 1⟩, .call 0 1 0⟩, ⟨⟨3, 1⟩, .finish⟩,
    ⟨⟨5, 1⟩, .begin 1⟩, ⟨⟨6, 1⟩, .litInt 2⟩, ⟨⟨6, 5⟩, .ret 1⟩]
  labels := #[⟨"two", 4⟩]
  strings := #[]
  classes := #[]
  scopes := #[.global [], .callable "two" [] []]
  globalScope := 0

/-- That program about to start, with nothing to read. -/
def callSecondStart : Machine :=
  ⟨callSecond, {}, 0, [.fresh 0 0 0 [] 0], 0, none, [], [], { console := ⟨.script [], [], ""⟩, random := .ofSeed 0 }⟩

/-- An expression that divides by zero. -/
def dividing : List Instruction :=
  [⟨⟨9, 1⟩, .litInt 1⟩, ⟨⟨9, 5⟩, .litInt 0⟩, ⟨⟨9, 3⟩, .binInt .div⟩, ⟨⟨9, 1⟩, .halt 1⟩]

/-- Inside the function, the trace of a failing evaluation shows the program at its call, and the function at
offset 0. -/
theorem evaluate_trace_callSecond :
    ∃ p, ((callSecondStart.stepped 4).evaluate 2 dividing).1 = .ok (.error p) ∧
      p.entries = [⟨"two()", ⟨9, 3⟩, 9, false⟩, ⟨"two()", ⟨1, 1⟩, 0, false⟩, ⟨"global", ⟨2, 1⟩, 2, false⟩] ∧
      ((callSecondStart.stepped 4).evaluate 2 dividing).2.ownEntries =
        .ok [⟨"two()", ⟨6, 1⟩, 5, false⟩, ⟨"global", ⟨2, 1⟩, 2, false⟩] := by
  have hv : callSecond.isValid = true := by decide
  have h₀ : create? callSecond {} callSecondStart.world = some callSecondStart := rfl
  have hn : ((callSecondStart.stepped 4).evaluator (.fresh 1 4 2 [] 0) dividing).Succeeds 2 := by
    unfold Succeeds
    decide
  have hs : (((callSecondStart.stepped 4).evaluator (.fresh 1 4 2 [] 0) dividing).stepped 2).step.1 =
      some (.fault .divideByZero) := rfl
  obtain ⟨groups, scope, callers, i, j, -, hown, hi, hj, hentries, hlive, -⟩ :=
    evaluate_trace hv h₀ (reachable_stepped _ 4) (by decide) (show 0 < 2 by decide) rfl hn hs (by decide) rfl
  cases hi
  cases hj
  cases hown
  cases hlive
  exact ⟨_, rfl, hentries, rfl⟩

/-- So the lines of the program's own trace are not there: it stands on line 6, and the trace says line 1. -/
theorem evaluate_misplaces_frame :
    callSecond.isValid = true ∧ create? callSecond {} callSecondStart.world = some callSecondStart ∧
    callSecondStart.Reachable (callSecondStart.stepped 4) ∧ (callSecondStart.stepped 4).pc = 5 ∧
    (callSecondStart.stepped 4).depth = 2 ∧
    (∃ f, (callSecondStart.stepped 4).frame? 1 = some f ∧
      ((callSecondStart.stepped 4).evaluator f dividing).Succeeds 2 ∧
      (((callSecondStart.stepped 4).evaluator f dividing).stepped 2).step.1 = some (.fault .divideByZero) ∧
      ∀ j, j ≤ 2 → (((callSecondStart.stepped 4).evaluator f dividing).stepped j).depth = 3) ∧
    ∃ p live, ((callSecondStart.stepped 4).evaluate 2 dividing).1 = .ok (.error p) ∧
      ((callSecondStart.stepped 4).evaluate 2 dividing).2.ownEntries = .ok live ∧
      live = [⟨"two()", ⟨6, 1⟩, 5, false⟩, ⟨"global", ⟨2, 1⟩, 2, false⟩] ∧
      p.entries = [⟨"two()", ⟨9, 3⟩, 9, false⟩, ⟨"two()", ⟨1, 1⟩, 0, false⟩, ⟨"global", ⟨2, 1⟩, 2, false⟩] ∧
      ¬ live <:+ p.entries := by
  refine ⟨by decide, rfl, reachable_stepped _ 4, rfl, rfl, ⟨_, rfl, ?_, rfl, by decide⟩, _, _, rfl, rfl, rfl, rfl,
    by decide⟩
  unfold Succeeds
  decide

end Machine

end PseudoVm
