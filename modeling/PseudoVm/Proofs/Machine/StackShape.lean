import PseudoVm.Proofs.Machine.Transition
/-!
# Machine.StackShape: where the frames of a program come from

The bottom frame of a program belongs to its global scope.  Every other frame was made by a call: the instruction at
its return offset is that call, and the instruction at its start is the entry marker of its scope.  Nothing that a
program, a debugger that rewinds or restarts it, or a write from outside can do breaks this shape
(`Machine.Sound`, `Machine.Reachable.sound`).
-/
namespace PseudoVm

namespace Outline

/-- The frame of the whole program. -/
structure IsProgram (o : Outline) (image : Image) : Prop where
  scope : o.scope = image.globalScope
  start : o.start = 0
  args : o.args = []
  params : o.params = 0
  locals : ∃ s, image.global? = some s ∧ o.locals = s.locals.length

/-- A frame made by a call.  A call that is not virtual names the frame's start and scope, and passes as many arguments
as the scope has parameters. -/
structure IsCall (o : Outline) (image : Image) : Prop where
  call : ∃ i nargs, image.code[o.returnPc]? = some i ∧ i.op.nargs? = some nargs ∧ o.args.length = nargs ∧
    o.params = nargs ∧ ∀ label scope n, i.op = .call label scope n → image.labelPc? label = some o.start ∧
      scope = o.scope ∧ ∃ s, image.scopes[o.scope]? = some s ∧ nargs = s.params.length
  entry : ∃ i, image.code[o.start]? = some i ∧ i.op = .begin o.scope
  locals : ∃ s, image.scopes[o.scope]? = some s ∧ o.locals = s.locals.length

end Outline

/-- Frames, the latest first, down to that of the whole program. -/
def Framed (image : Image) : List Outline → Prop
  | [] => True
  | [o] => o.IsProgram image
  | o :: rest => o.IsCall image ∧ Framed image rest

namespace Framed

variable {image : Image}

theorem cons_iff {o : Outline} {rest : List Outline} (hr : rest ≠ []) :
    Framed image (o :: rest) ↔ o.IsCall image ∧ Framed image rest := by
  cases rest with
  | nil => exact absurd rfl hr
  | cons => rfl

theorem tail {o : Outline} {rest : List Outline} (h : Framed image (o :: rest)) : Framed image rest := by
  cases rest with
  | nil => trivial
  | cons => exact h.2

theorem drop {os : List Outline} (h : Framed image os) (n : Nat) : Framed image (os.drop n) := by
  induction n generalizing os with
  | zero => exact h
  | succ n ih =>
    cases os with
    | nil => trivial
    | cons o rest => exact ih h.tail

theorem getElem? : ∀ {os : List Outline}, Framed image os → ∀ {n : Nat} {o : Outline}, os[n]? = some o →
    if n + 1 = os.length then o.IsProgram image else o.IsCall image
  | [], _, n, o, ho => by simp at ho
  | [o'], h, n, o, ho => by
    cases n with
    | zero => cases ho; exact h
    | succ n => simp at ho
  | o' :: o'' :: rest, h, n, o, ho => by
    cases n with
    | zero => cases ho; exact h.1
    | succ n => simpa using getElem? h.2 (n := n) ho

theorem isSome_scope (hg : image.global?.isSome) {os : List Outline} (h : Framed image os) {o : Outline}
    (ho : o ∈ os) : (image.scopes[o.scope]?).isSome := by
  obtain ⟨n, hn⟩ := List.getElem?_of_mem ho
  have := h.getElem? hn
  split at this
  · rw [this.scope]; exact hg
  · obtain ⟨s, hs, -⟩ := this.locals
    rw [hs]; rfl

end Framed

namespace Machine

/-- **A machine whose image is well formed and whose frames have the shape of calls.** -/
structure Sound (m : Machine) : Prop where
  wellFormed : m.image.WellFormed
  framed : Framed m.image (m.stack.map Frame.outline)
  depth : m.depth ≤ max 1 m.limits.maxStackDepth
  pc : m.pc ≤ m.image.code.size

theorem Sound.named {m : Machine} (h : m.Sound) : m.Named :=
  ⟨h.wellFormed.isSome_global?, fun _ hf =>
    h.framed.isSome_scope h.wellFormed.isSome_global? (List.mem_map_of_mem (f := Frame.outline) hf)⟩

theorem Sound.of_steady {m m' : Machine} (h : m.Sound) (hst : m.Steady m') : m'.Sound := by
  refine ⟨by rw [hst.image]; exact h.wellFormed, ?_, ?_, ?_⟩
  · rw [hst.image, hst.outlines]; exact h.framed
  · rw [hst.depth, hst.limits]; exact h.depth
  · rw [hst.pc, hst.image]; exact h.pc

theorem Sound.counted {m : Machine} (h : m.Sound) (n : Nat) : { m with executed := n }.Sound :=
  ⟨h.wellFormed, h.framed, h.depth, h.pc⟩

theorem Sound.at_pc {m : Machine} (h : m.Sound) {pc : Nat} (hpc : pc ≤ m.image.code.size) : { m with pc := pc }.Sound :=
  ⟨h.wellFormed, h.framed, h.depth, hpc⟩

theorem Sound.with_frames {m : Machine} (h : m.Sound) (fs : List Frame) (hf : Framed m.image (fs.map Frame.outline))
    (hd : fs.length ≤ max 1 m.limits.maxStackDepth) (r : Option Value) : { m with stack := fs, result := r }.Sound :=
  ⟨h.wellFormed, hf, hd, h.pc⟩

theorem lt_of_instruction? {m : Machine} {pc : Nat} {i : Instruction} (h : m.instruction? pc = some i) :
    pc < m.image.code.size := (Array.getElem?_eq_some_iff.1 h).1

theorem isCall_fresh {m : Machine} (hw : m.image.WellFormed) {i : Instruction} (hi : m.instruction? m.pc = some i)
    {nargs : Nat} (hop : i.op.nargs? = some nargs) {eval : List Value} (hn : nargs ≤ eval.length) {target : Nat}
    {scope : ScopeId} {s : Scope} (hr : m.image.Resolves i.op (eval.take nargs).reverse target scope)
    (hs : m.image.scopes[scope]? = some s) :
    (Frame.fresh scope target m.pc (eval.take nargs).reverse s.locals.length).outline.IsCall m.image := by
  have ha := hw.code m.pc i hi
  have hlen : (eval.take nargs).reverse.length = nargs := by
    rw [List.length_reverse, List.length_take, Nat.min_eq_left hn]
  refine ⟨⟨i, nargs, hi, hop, hlen, hlen, ?_⟩, ?_, ⟨s, hs, by simp [Frame.fresh, Frame.outline]⟩⟩
  · intro label callee n hcall
    rw [hcall] at hr ha hop
    cases hop
    cases hr with
    | call hl => exact ⟨hl, rfl, ha.2⟩
  · exact hr.marker hw ha

/-- **What one instruction does to the shape of the frames.** -/
theorem Sound.effect {m m₁ : Machine} (h : m.Sound) {i : Instruction} (hi : m.instruction? m.pc = some i)
    {flow : Flow} (he : Exec.Effect m i.op flow m₁) : (m₁.flowTo flow).Sound := by
  have hpc := lt_of_instruction? hi
  cases he with
  | stay hst => exact (h.of_steady hst).at_pc (by rw [hst.pc, hst.image]; exact hpc)
  | jump ht hl hst =>
    exact (h.of_steady hst).at_pc (by rw [hst.image]; exact Nat.le_of_lt (h.wellFormed.labelPc?_lt hl))
  | @enter nargs caller rest target scope s hop hst hn hr hd hs =>
    have hcall := isCall_fresh h.wellFormed hi hop hn hr hs
    have hframed := h.framed
    rw [hst] at hframed
    have hnew : Framed m.image ((Frame.fresh scope target m.pc (caller.eval.take nargs).reverse s.locals.length ::
        { caller with eval := caller.eval.drop nargs } :: rest).map Frame.outline) :=
      (Framed.cons_iff (by simp)).2 ⟨hcall, hframed⟩
    have hdepth : m.stack.length < m.limits.maxStackDepth := hd
    rw [hst, List.length_cons] at hdepth
    obtain ⟨b, hb, -⟩ := hcall.entry
    have hnew' := h.with_frames _ hnew (by simp only [List.length_cons]; omega) m.result
    refine (hnew'.of_steady (steady_letGo _ _)).at_pc ?_
    rw [letGo_image]
    exact Nat.le_of_lt (Array.getElem?_eq_some_iff.1 hb).1
  | @leave frame caller rest hop hst =>
    have hframed := h.framed
    rw [hst] at hframed
    have hdepth : m.stack.length ≤ _ := h.depth
    rw [hst, List.length_cons] at hdepth
    have hrest := h.with_frames ({ caller with eval := frame.eval ++ caller.eval } :: rest) hframed.tail
      (by simp only [List.length_cons] at hdepth ⊢; omega) m.result
    obtain ⟨c, _, hc, -⟩ := ((Framed.cons_iff (by simp)).1 hframed).1.call
    refine (hrest.of_steady (steady_letGo _ _)).at_pc ?_
    rw [letGo_image]
    exact (Array.getElem?_eq_some_iff.1 hc).1
  | finish hop hst =>
    have hnone := h.with_frames [] trivial (Nat.zero_le _) m.result
    refine (hnone.of_steady (steady_letGo _ _)).at_pc ?_
    rw [letGo_pc, letGo_image]
    exact hpc
  | @halt frame rest hop hst =>
    have hnone := h.with_frames [] trivial (Nat.zero_le _) frame.eval.head?
    refine (hnone.of_steady (steady_letGo _ _)).at_pc ?_
    rw [letGo_pc, letGo_image]
    exact hpc

theorem Sound.step {m : Machine} (h : m.Sound) : m.step.2.Sound := by
  cases hs : m.step with
  | mk stop m' =>
    cases stop with
    | none =>
      obtain ⟨i, flow, m₁, -, -, hi, he, rfl⟩ := step_none hs
      have hc : m.counted.Sound := h.counted _
      exact (hc.effect hi he).of_steady (steady_settle _)
    | some s =>
      obtain ⟨n, -, hst, -⟩ := step_some hs
      exact (h.counted _).of_steady hst

theorem outline_reset (f : Frame) (h : f.args.length = f.params.length) : f.reset.outline = f.outline := by
  simp [Frame.reset, Frame.outline, h]

theorem Framed.length_args {image : Image} {fs : List Frame} (h : Framed image (fs.map Frame.outline)) {f : Frame}
    (hf : f ∈ fs) : f.args.length = f.params.length := by
  obtain ⟨n, hn⟩ := List.getElem?_of_mem hf
  have hn' : (fs.map Frame.outline)[n]? = some f.outline := by rw [List.getElem?_map, hn]; rfl
  have := h.getElem? hn'
  split at this
  · exact (congrArg List.length this.args).trans this.params.symm
  · obtain ⟨_, _, -, -, ha, hp, -⟩ := this.call
    exact ha.trans hp.symm

theorem Framed.start_lt {image : Image} (hw : image.WellFormed) {o : Outline} {rest : List Outline}
    (h : Framed image (o :: rest)) : o.start < image.code.size := by
  cases rest with
  | nil =>
    have hp : o.IsProgram image := h
    rw [hp.start]; exact hw.code_ne
  | cons =>
    obtain ⟨i, hi, -⟩ := h.1.entry
    exact (Array.getElem?_eq_some_iff.1 hi).1

/-- **All that starting a frame again does**: the frames above it go, and so does what it held in its own cells. -/
theorem restartFrame?_ok {m m' : Machine} {id : Nat} (h : m.restartFrame? id = some m') : id ≠ 0 ∧ id ≤ m.depth ∧
    ∃ top rest, m.stack.drop (m.depth - id) = top :: rest ∧
      m' = ({ m with stack := top.reset :: rest, pc := top.start }.letGo
        ((m.stack.take (m.depth - id)).reverse.flatMap Frame.values ++ top.params ++ top.locals.filterMap (·) ++
          top.eval.reverse)).settle := by
  unfold Machine.restartFrame? at h
  split at h
  · cases h
  rename_i hid
  split at h
  · cases h
  rename_i hle
  split at h
  · cases h
  rename_i top rest hdrop
  cases h
  exact ⟨hid, Nat.not_lt.1 hle, top, rest, hdrop, rfl⟩

theorem restartFrame?_eq_some {m m' : Machine} {id : Nat} (h : m.restartFrame? id = some m') : ∃ top rest,
    m.stack.drop (m.depth - id) = top :: rest ∧ { m with stack := top.reset :: rest, pc := top.start }.Steady m' := by
  obtain ⟨-, -, top, rest, hdrop, rfl⟩ := restartFrame?_ok h
  exact ⟨top, rest, hdrop, (steady_letGo _ _).trans (steady_settle _)⟩

/-- **Starting a frame again keeps the shape.** -/
theorem Sound.restartFrame? {m m' : Machine} (h : m.Sound) {id : Nat} (hr : m.restartFrame? id = some m') :
    m'.Sound := by
  obtain ⟨top, rest, hdrop, hst⟩ := restartFrame?_eq_some hr
  have hframed := h.framed.drop (m.depth - id)
  rw [← List.map_drop, hdrop] at hframed
  have hlen : top.args.length = top.params.length := Framed.length_args hframed List.mem_cons_self
  refine Sound.of_steady ?_ hst
  refine ⟨h.wellFormed, ?_, ?_, ?_⟩
  · rw [List.map_cons, outline_reset top hlen, ← List.map_cons]
    exact hframed
  · have := congrArg List.length hdrop
    simp only [List.length_drop, List.length_cons] at this
    have hdepth := h.depth
    simp only [Machine.depth, List.length_cons] at hdepth ⊢
    omega
  · exact Nat.le_of_lt (Framed.start_lt h.wellFormed hframed)

theorem isProgram_bottom? {image : Image} {f : Frame} (h : bottom? image = some f) : f.outline.IsProgram image := by
  obtain ⟨s, hs, rfl⟩ := Option.map_eq_some_iff.1 h
  exact ⟨rfl, rfl, rfl, rfl, s, hs, by simp [Frame.fresh, Frame.outline]⟩

theorem framed_bottom? (image : Image) : Framed image ((bottom? image).toList.map Frame.outline) := by
  cases h : bottom? image with
  | none => trivial
  | some f => exact isProgram_bottom? h

theorem steady_rewind (m : Machine) :
    { m with stack := (bottom? m.image).toList, pc := 0, executed := 0, result := none }.Steady m.rewind :=
  (steady_letGo _ _).trans (steady_settle _)

/-- **Starting the program over keeps the shape.** -/
theorem Sound.rewind {m : Machine} (h : m.Sound) : m.rewind.Sound := by
  refine Sound.of_steady ?_ m.steady_rewind
  refine ⟨h.wellFormed, framed_bottom? m.image, ?_, Nat.zero_le _⟩
  have : (bottom? m.image).toList.length ≤ 1 := by cases bottom? m.image <;> simp
  exact Nat.le_trans this (Nat.le_max_left _ _)

theorem assign_eq_ok_iff {m m' : Machine} {r : Reference} {v : Value} :
    m.assign r v = .ok m' ↔ ∃ m₁, m.store r v = .ok m₁ ∧ m' = m₁.settle := by
  unfold assign
  cases m.store r v <;> simp [Except.map, eq_comm]

theorem steady_assign {m m' : Machine} {r : Reference} {v : Value} (h : m.assign r v = .ok m') : m.Steady m' := by
  obtain ⟨m₁, hs, rfl⟩ := assign_eq_ok_iff.1 h
  exact (steady_store hs).trans (steady_settle _)

/-! ## Reachable machines -/

/-- What can happen to a machine: a step, successful or not, and what a debugger does to it. -/
inductive Move : Machine → Machine → Prop
  | step (m) : Move m m.step.2
  | restart {m m' id} (h : m.restartFrame? id = some m') : Move m m'
  | rewind (m) : Move m m.rewind
  | store {m m' r v} (h : m.assign r v = .ok m') : Move m m'

/-- The machines that can become of one. -/
inductive Reachable (m₀ : Machine) : Machine → Prop
  | start : Reachable m₀ m₀
  | move {m m'} (h : Reachable m₀ m) (hm : Move m m') : Reachable m₀ m'

theorem Sound.move {m m' : Machine} (h : m.Sound) (hm : Move m m') : m'.Sound := by
  cases hm with
  | step => exact h.step
  | restart hr => exact h.restartFrame? hr
  | rewind => exact h.rewind
  | store hs => exact h.of_steady (steady_assign hs)

theorem Reachable.sound {m₀ m : Machine} (h₀ : m₀.Sound) (h : m₀.Reachable m) : m.Sound := by
  induction h with
  | start => exact h₀
  | move _ hm ih => exact ih.move hm

theorem sound_create? {image : Image} {limits : Limits} {world : World} {m : Machine} (hv : image.isValid = true)
    (h : create? image limits world = some m) : m.Sound := by
  obtain ⟨f, hf, rfl⟩ := Option.map_eq_some_iff.1 h
  exact ⟨Image.isValid_iff.1 hv, isProgram_bottom? hf, Nat.le_max_left _ _, Nat.zero_le _⟩

theorem reachable_stepped (m : Machine) : ∀ n, m.Reachable (m.stepped n)
  | 0 => .start
  | n + 1 => .move (reachable_stepped m n) (.step _)

theorem Move.fixed {m m' : Machine} (h : Move m m') : m'.image = m.image ∧ m'.limits = m.limits := by
  cases h with
  | step => exact ⟨m.step_image, m.step_limits⟩
  | restart hr =>
    obtain ⟨_, _, -, hst⟩ := restartFrame?_eq_some hr
    exact ⟨hst.image, hst.limits⟩
  | rewind => exact ⟨m.steady_rewind.image, m.steady_rewind.limits⟩
  | store hs => exact ⟨(steady_assign hs).image, (steady_assign hs).limits⟩

theorem Reachable.fixed {m₀ m : Machine} (h : m₀.Reachable m) : m.image = m₀.image ∧ m.limits = m₀.limits := by
  induction h with
  | start => exact ⟨rfl, rfl⟩
  | move _ hm ih => exact ⟨hm.fixed.1.trans ih.1, hm.fixed.2.trans ih.2⟩

theorem create?_fixed {image : Image} {limits : Limits} {world : World} {m : Machine}
    (h : create? image limits world = some m) : m.image = image ∧ m.limits = limits := by
  obtain ⟨f, -, rfl⟩ := Option.map_eq_some_iff.1 h
  exact ⟨rfl, rfl⟩

theorem frame?_eq_some {m : Machine} {n : Nat} {f : Frame} (h : m.frame? n = some f) :
    ∃ k, m.stack[k]? = some f ∧ k + 1 + n = m.stack.length := by
  obtain ⟨k, hk, hf⟩ := Option.bind_eq_some_iff.1 h
  unfold place? at hk
  split at hk
  · rename_i hlt
    cases hk
    refine ⟨_, hf, ?_⟩
    simp only [Machine.depth] at hlt ⊢
    omega
  · cases hk

theorem isSome_frame? {m : Machine} {n : Nat} (h : n < m.depth) : ∃ f, m.frame? n = some f := by
  have hlt : m.depth - 1 - n < m.stack.length := by
    simp only [Machine.depth] at h ⊢
    omega
  refine ⟨_, Option.bind_eq_some_iff.2 ⟨m.depth - 1 - n, ?_, List.getElem?_eq_getElem hlt⟩⟩
  unfold place?
  rw [if_pos h]

/-- In a sound machine, the frame with number 0 is that of the whole program and every other one was called. -/
theorem Sound.frame? {m : Machine} (hs : m.Sound) {n : Nat} (h : n < m.depth) :
    ∃ f, m.frame? n = some f ∧ if n = 0 then f.outline.IsProgram m.image else f.outline.IsCall m.image := by
  obtain ⟨f, hf⟩ := isSome_frame? h
  obtain ⟨k, hk, hlen⟩ := frame?_eq_some hf
  have hk' : (m.stack.map Frame.outline)[k]? = some f.outline := by rw [List.getElem?_map, hk]; rfl
  have hshape := hs.framed.getElem? hk'
  rw [List.length_map] at hshape
  refine ⟨f, hf, ?_⟩
  by_cases hn : n = 0
  · rw [if_pos (by omega)] at hshape
    rw [if_pos hn]
    exact hshape
  · rw [if_neg (by omega)] at hshape
    rw [if_neg hn]
    exact hshape

/-- **The shape of the call stack.**  Whatever a valid program, and a debugger that restarts its frames, rewinds it and
writes its variables, has done: the bottom frame is that of the whole program, every other frame was made by a call,
there are no more frames than the limit admits, and control stands inside the code or right behind it. -/
theorem stack_shape {image : Image} {limits : Limits} {world : World} {m₀ m : Machine} (hv : image.isValid = true)
    (h₀ : create? image limits world = some m₀) (h : m₀.Reachable m) :
    (0 < m.depth → ∃ f, m.frame? 0 = some f ∧ f.outline.IsProgram image) ∧
    (∀ n, n + 1 < m.depth → ∃ f, m.frame? (n + 1) = some f ∧ f.outline.IsCall image) ∧
    m.depth ≤ max 1 limits.maxStackDepth ∧ m.pc ≤ image.code.size := by
  obtain ⟨hi₀, hl₀⟩ := create?_fixed h₀
  have hi : m.image = image := h.fixed.1.trans hi₀
  have hl : m.limits = limits := h.fixed.2.trans hl₀
  have hs : m.Sound := h.sound (sound_create? hv h₀)
  rw [← hi, ← hl]
  exact ⟨fun hd => hs.frame? hd, fun n hd => hs.frame? hd, hs.depth, hs.pc⟩

/-- A program that calls a method, which calls itself. -/
def selfCall : Image where
  code := #[⟨⟨1, 1⟩, .objNew 0 0⟩, ⟨⟨1, 1⟩, .vcall 0 0 1⟩, ⟨⟨1, 1⟩, .finish⟩, ⟨⟨2, 1⟩, .begin 1⟩,
    ⟨⟨2, 1⟩, .paramVal 0⟩, ⟨⟨2, 1⟩, .call 0 1 1⟩, ⟨⟨2, 1⟩, .finish⟩]
  labels := #[⟨"again", 3⟩]
  strings := #[]
  classes := #[⟨"Thing", [], #[⟨0, 1⟩]⟩]
  scopes := #[.global ["x"], .callable "again" ["self"] ["t", "u"]]
  globalScope := 0

/-- That program about to start, with nothing to read. -/
def selfCallStart : Machine :=
  ⟨selfCall, {}, 0, [.fresh 0 0 0 [] 1], 0, none, [], [], { console := ⟨.script [], [], ""⟩, random := .ofSeed 0 }⟩

/-- The shape of the stack three calls deep. -/
theorem stack_shape_selfCall :
    (selfCallStart.stepped 8).depth = 4 ∧
    (0 < (selfCallStart.stepped 8).depth →
      ∃ f, (selfCallStart.stepped 8).frame? 0 = some f ∧ f.outline.IsProgram selfCall) ∧
    (∀ n, n + 1 < (selfCallStart.stepped 8).depth →
      ∃ f, (selfCallStart.stepped 8).frame? (n + 1) = some f ∧ f.outline.IsCall selfCall) ∧
    (selfCallStart.stepped 8).depth ≤ max 1 1024 ∧ (selfCallStart.stepped 8).pc ≤ selfCall.code.size := by
  have hv : selfCall.isValid = true := by decide
  have h₀ : create? selfCall {} selfCallStart.world = some selfCallStart := rfl
  exact ⟨by decide, stack_shape hv h₀ (reachable_stepped selfCallStart 8)⟩

end Machine

end PseudoVm
