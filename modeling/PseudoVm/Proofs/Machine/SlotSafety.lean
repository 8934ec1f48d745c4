import PseudoVm.Proofs.Machine.FailedStep
import PseudoVm.Proofs.Machine.StackShape
/-!
# Machine.SlotSafety: when the variables that instructions name are there

A valid image has every variable that an instruction names in the scope that encloses the instruction.  The frame that
executes it need not be of that scope: nothing keeps a jump, or control that goes on, out of another scope's code.
Where it is, the locals are there, and so are the parameters if the call passed enough of them, as one that is not
virtual does (`Machine.slots_exist`).  In an image that keeps control inside scopes (`Image.isContained`) both hold all
along (`Machine.Reachable.inPlace`); a valid image that does not can miss them (`Machine.slots_missing`).
-/
namespace PseudoVm

namespace Op

/-- Whether control may go on behind an instruction, at once or when the scope that it entered is left. -/
def goesOn : Op → Bool
  | .jump _ | .finish | .ret _ | .halt _ => false
  | _ => true

/-- The local that an instruction names. -/
def localSlot? : Op → Option Nat
  | .localRef slot | .localVal slot => some slot
  | _ => none

/-- The parameter that an instruction names. -/
def paramSlot? : Op → Option Nat
  | .paramRef slot | .paramVal slot | .paramPtr slot => some slot
  | _ => none

end Op

namespace Image

/-- Whether an instruction keeps control inside the scope that encloses it, and passes enough arguments to each method
that it may call. -/
def confines (image : Image) (pc : Nat) (op : Op) : Bool :=
  (!op.goesOn || image.scopeAt (pc + 1) == image.scopeAt pc) &&
  match op with
  | .jump label | .jumpTrue label | .jumpFalse label =>
    (image.labelPc? label).all fun target => image.scopeAt target == image.scopeAt pc
  | .vcall _ slot nargs =>
    image.classes.toList.all fun c => (c.methods[slot]?).all fun m => (image.scopes[m.scope]?).all fun s =>
      s.params.length ≤ nargs
  | _ => true

/-- **Whether an image keeps control inside scopes**: it starts in the global scope, which has no parameters, and no
instruction leads out of the scope that encloses it but by calls and returns. -/
def isContained (image : Image) : Bool :=
  image.scopeAt 0 == image.globalScope && image.global?.all (·.params.isEmpty) &&
  (List.range image.code.size).all fun pc => (image.code[pc]?).all fun i => image.confines pc i.op

variable {image : Image}

theorem confines_of_isContained (h : image.isContained = true) {pc : Nat} {i : Instruction}
    (hi : image.code[pc]? = some i) : image.confines pc i.op = true := by
  obtain ⟨-, hall⟩ := Bool.and_eq_true_iff.1 h
  have hpc := List.all_eq_true.1 hall pc (List.mem_range.2 (Array.getElem?_eq_some_iff.1 hi).1)
  rw [hi] at hpc
  exact hpc

theorem scopeAt_zero_of_isContained (h : image.isContained = true) : image.scopeAt 0 = image.globalScope := by
  simp only [isContained, Bool.and_eq_true, beq_iff_eq] at h
  exact h.1.1

theorem params_of_isContained (h : image.isContained = true) {s : Scope} (hs : image.global? = some s) :
    s.params = [] := by
  simp only [isContained, Bool.and_eq_true, hs, Option.all_some] at h
  exact List.isEmpty_iff.1 h.1.2

theorem scopeAt_succ (h : image.isContained = true) {pc : Nat} {i : Instruction} (hi : image.code[pc]? = some i)
    (hop : i.op.goesOn = true) : image.scopeAt (pc + 1) = image.scopeAt pc := by
  have hc := (Bool.and_eq_true_iff.1 (confines_of_isContained h hi)).1
  rw [hop] at hc
  exact beq_iff_eq.1 hc

theorem scopeAt_jump (h : image.isContained = true) {pc : Nat} {i : Instruction} (hi : image.code[pc]? = some i)
    {label : LabelId} (ht : i.op.jumpTarget = some label) (hn : i.op.nargs? = none) {target : Nat}
    (hl : image.labelPc? label = some target) : image.scopeAt target = image.scopeAt pc := by
  have hc := (Bool.and_eq_true_iff.1 (confines_of_isContained h hi)).2
  cases hop : i.op <;> rw [hop] at ht hn hc <;> cases ht
  case call => cases hn
  all_goals
    dsimp only at hc
    rw [hl] at hc
    exact beq_iff_eq.1 hc

theorem params_le_of_vcall (h : image.isContained = true) {pc : Nat} {i : Instruction} (hi : image.code[pc]? = some i)
    {static : ClassId} {slot nargs : Nat} (hop : i.op = .vcall static slot nargs) {cls : ClassId} {c : Class}
    (hc : image.classes[cls]? = some c) {m : Method} (hm : c.methods[slot]? = some m) {s : Scope}
    (hs : image.scopes[m.scope]? = some s) : s.params.length ≤ nargs := by
  have hall := (Bool.and_eq_true_iff.1 (confines_of_isContained h hi)).2
  rw [hop] at hall
  have hmethod := List.all_eq_true.1 hall c (Array.mem_toList_iff.2 (Array.mem_of_getElem? hc))
  rw [hm, Option.all_some, hs, Option.all_some] at hmethod
  exact of_decide_eq_true hmethod

theorem WellFormed.scopeAt_marker (hw : image.WellFormed) {pc : Nat} {i : Instruction} {scope : ScopeId}
    (hi : image.code[pc]? = some i) (hop : i.op = .begin scope) : image.scopeAt pc = scope := by
  have hlt : scope < image.scopes.size := by
    have ha := hw.code pc i hi
    rw [hop] at ha
    exact ha
  have htake : image.code.toList.take (pc + 1) = image.code.toList.take pc ++ [i] := by
    rw [List.take_add_one, Array.getElem?_toList, hi]
    rfl
  rw [scopeAt, htake, List.foldl_append, List.foldl_cons, List.foldl_nil, hop]
  exact if_pos hlt

end Image

/-- A frame that has at least the parameters which its scope declares. -/
def Outline.Filled (image : Image) (o : Outline) : Prop :=
  ∀ s, image.scopes[o.scope]? = some s → s.params.length ≤ o.params

/-- **Control stands in the scope of the latest frame**, and stood in that of every other one when it called; none of
them lacks parameters. -/
def Placed (image : Image) : Nat → List Outline → Prop
  | _, [] => True
  | pc, o :: rest => image.scopeAt pc = o.scope ∧ o.Filled image ∧ Placed image o.returnPc rest

theorem Placed.drop {image : Image} : ∀ {os : List Outline} {pc : Nat}, Placed image pc os → ∀ (n : Nat),
    ∃ pc', Placed image pc' (os.drop n)
  | _, pc, h, 0 => ⟨pc, h⟩
  | [], pc, _, _ + 1 => ⟨pc, trivial⟩
  | _ :: _, _, h, n + 1 => Placed.drop h.2.2 n

theorem Placed.at_pc {image : Image} {pc pc' : Nat} {os : List Outline} (h : Placed image pc os)
    (hpc : image.scopeAt pc' = image.scopeAt pc) : Placed image pc' os := by
  cases os with
  | nil => trivial
  | cons o rest => exact ⟨hpc.trans h.1, h.2⟩

theorem Framed.locals {image : Image} {o : Outline} {rest : List Outline} (h : Framed image (o :: rest)) :
    ∃ s, image.scopes[o.scope]? = some s ∧ o.locals = s.locals.length := by
  cases rest with
  | nil =>
    have hp : o.IsProgram image := h
    rw [hp.scope]
    exact hp.locals
  | cons => exact h.1.locals

/-- Whether a stop says that a frame lacks a local or parameter. -/
def Stop.missesSlot : Stop → Bool
  | .fault (.internal (.slotOutOfRange _)) | .fault (.internal (.paramOutOfRange _)) => true
  | _ => false

namespace Exec

theorem goesOn_of_next {o : Op} {m m' : Machine} (h : op o m = .ok .next m') (hd : m'.isDone = false) :
    o.goesOn = true := by
  have hleave : ∀ {nval : Nat}, leave nval m = .ok .next m' → m'.isDone = true := by
    intro nval h
    obtain ⟨_, _, -, -, ⟨-, -, rfl⟩ | ⟨_, _, -, hflow, -⟩⟩ := leave_ok h
    · rw [Machine.isDone, Machine.letGo_stack]
      rfl
    · cases hflow
  cases o
  case jump label =>
    obtain ⟨_, _, _, h1⟩ := bind_ok_iff.1 h
    obtain ⟨_, _, _, h2⟩ := bind_ok_iff.1 h1
    cases h2
  case finish => rw [hleave h] at hd; cases hd
  case ret => rw [hleave h] at hd; cases hd
  case halt nval =>
    have h : stop nval m = .ok .next m' := h
    obtain ⟨_, _, -, -, -, rfl⟩ := stop_ok h
    rw [Machine.isDone, Machine.letGo_stack] at hd
    cases hd
  all_goals rfl

end Exec

namespace Machine

variable {m m' : Machine}

/-- Every frame is where its scope's code is. -/
def InPlace (m : Machine) : Prop := Placed m.image m.pc (m.stack.map Frame.outline)

theorem InPlace.of_steady (h : m.InPlace) (hst : m.Steady m') : m'.InPlace := by
  unfold InPlace
  rw [hst.image, hst.pc, hst.outlines]
  exact h

theorem inPlace_of_stack (h : m.stack = []) : m.InPlace := by
  unfold InPlace
  rw [h]
  trivial

theorem filled_fresh (hw : m.image.WellFormed) (hc : m.image.isContained = true) {i : Instruction}
    (hi : m.instruction? m.pc = some i) {nargs : Nat} (hop : i.op.nargs? = some nargs) {eval : List Value}
    (hn : nargs ≤ eval.length) {target : Nat} {scope : ScopeId}
    (hr : m.image.Resolves i.op (eval.take nargs).reverse target scope) (locals : Nat) :
    (Frame.fresh scope target m.pc (eval.take nargs).reverse locals).outline.Filled m.image := by
  have hlen : (eval.take nargs).reverse.length = nargs := by
    rw [List.length_reverse, List.length_take, Nat.min_eq_left hn]
  intro s hs
  show s.params.length ≤ (eval.take nargs).reverse.length
  rw [hlen]
  have ha := hw.code m.pc i hi
  generalize hargs : (eval.take nargs).reverse = args at hr
  -- A valid image passes the right number of arguments in plain calls; for virtual ones it takes a contained image.
  cases ho : i.op <;> rw [ho] at hop ha hr <;> cases hop
  case call =>
    cases hr
    obtain ⟨-, s', hs', hparams⟩ := ha
    cases hs'.symm.trans hs
    exact Nat.le_of_eq hparams.symm
  case vcall =>
    cases hr with
    | vcall hcls hm hl => exact Image.params_le_of_vcall hc hi ho hcls hm hs

/-- **What one instruction of a contained image does to the frames.** -/
theorem InPlace.effect (h : m.InPlace) (hs : m.Sound) (hc : m.image.isContained = true) {i : Instruction}
    (hi : m.instruction? m.pc = some i) {flow : Flow} {m₁ : Machine} (ho : Exec.op i.op m = .ok flow m₁) :
    (m₁.flowTo flow).InPlace := by
  have hplaced : Placed m.image m.pc (m.stack.map Frame.outline) := h
  cases Exec.op_effect i.op ho with
  | stay hst =>
    by_cases hd : m₁.isDone = true
    · exact inPlace_of_stack (List.isEmpty_iff.1 hd)
    · have hgo := Exec.goesOn_of_next ho (Bool.eq_false_iff.2 hd)
      show Placed m₁.image (m₁.pc + 1) (m₁.stack.map Frame.outline)
      rw [hst.image, hst.pc, hst.outlines]
      exact hplaced.at_pc (Image.scopeAt_succ hc hi hgo)
  | jump ht hl hst =>
    have hn : i.op.nargs? = none := by
      cases hn : i.op.nargs? with
      | none => rfl
      | some n =>
        have hdepth := Exec.op_call_depth hn ho
        rw [hst.depth] at hdepth
        omega
    show Placed m₁.image _ (m₁.stack.map Frame.outline)
    rw [hst.image, hst.outlines]
    exact hplaced.at_pc (Image.scopeAt_jump hc hi ht hn hl)
  | @enter nargs caller rest target scope s hop hst hn hr =>
    obtain ⟨b, hb, hbop⟩ := hr.marker hs.wellFormed (hs.wellFormed.code m.pc i hi)
    rw [hst] at hplaced
    show Placed (letGo _ _).image target ((letGo _ _).stack.map Frame.outline)
    rw [letGo_image, letGo_stack]
    exact ⟨hs.wellFormed.scopeAt_marker hb hbop, filled_fresh hs.wellFormed hc hi hop hn hr _, hplaced⟩
  | @leave frame caller rest hop hst =>
    -- control goes on behind the call, which stands in the code of the caller's scope
    have hframed := hs.framed
    rw [hst] at hplaced hframed
    obtain ⟨call, nargs, hcall, hnargs, -⟩ := ((Framed.cons_iff (by simp)).1 hframed).1.call
    have hgo : call.op.goesOn = true := by cases ho : call.op <;> rw [ho] at hnargs <;> first | rfl | cases hnargs
    have hcaller : Placed m.image frame.returnPc ((caller :: rest).map Frame.outline) := hplaced.2.2
    show Placed (letGo _ _).image (frame.returnPc + 1) ((letGo _ _).stack.map Frame.outline)
    rw [letGo_image, letGo_stack]
    exact hcaller.at_pc (Image.scopeAt_succ hc hcall hgo)
  | finish => exact inPlace_of_stack (letGo_stack _ _)
  | halt => exact inPlace_of_stack (letGo_stack _ _)

theorem InPlace.step (h : m.InPlace) (hs : m.Sound) (hc : m.image.isContained = true) : m.step.2.InPlace := by
  cases hstep : m.step with
  | mk stop m' =>
    cases stop with
    | none =>
      obtain ⟨i, flow, m₁, hcur, -, ho, rfl⟩ := step_ok hstep
      obtain ⟨-, hi⟩ := current?_eq_some_iff.1 hcur
      have hcounted : m.counted.InPlace := h
      exact (hcounted.effect (hs.counted _) hc hi ho).of_steady (steady_settle _)
    | some s =>
      obtain ⟨n, -, hst, -⟩ := step_some hstep
      exact InPlace.of_steady (m := { m with executed := m.executed + n }) h hst

/-- **Starting a frame again puts control at its entry.** -/
theorem InPlace.restartFrame? (h : m.InPlace) (hs : m.Sound) (hc : m.image.isContained = true) {id : Nat}
    (hr : m.restartFrame? id = some m') : m'.InPlace := by
  obtain ⟨top, rest, hdrop, hst⟩ := restartFrame?_eq_some hr
  refine InPlace.of_steady ?_ hst
  have hframed := hs.framed.drop (m.depth - id)
  obtain ⟨pc, hplaced⟩ := Placed.drop h (m.depth - id)
  rw [← List.map_drop, hdrop] at hframed hplaced
  show Placed m.image top.start ((top.reset :: rest).map Frame.outline)
  rw [List.map_cons, outline_reset top (Framed.length_args hframed List.mem_cons_self)]
  refine ⟨?_, hplaced.2⟩
  cases rest with
  | nil =>
    have hp : top.outline.IsProgram m.image := hframed
    have hstart : top.start = 0 := hp.start
    rw [hstart, Image.scopeAt_zero_of_isContained hc]
    exact hp.scope.symm
  | cons =>
    obtain ⟨i, hi, hop⟩ := hframed.1.entry
    exact hs.wellFormed.scopeAt_marker hi hop

theorem placed_bottom? {image : Image} (hc : image.isContained = true) :
    Placed image 0 ((bottom? image).toList.map Frame.outline) := by
  cases hb : bottom? image with
  | none => trivial
  | some f =>
    have hp := isProgram_bottom? hb
    refine ⟨(Image.scopeAt_zero_of_isContained hc).trans hp.scope.symm, fun s hs => ?_, trivial⟩
    rw [hp.scope] at hs
    rw [Image.params_of_isContained hc hs]
    exact Nat.zero_le _

theorem inPlace_create? {image : Image} {limits : Limits} {world : World} (hc : image.isContained = true)
    (h : create? image limits world = some m) : m.InPlace := by
  obtain ⟨f, hf, rfl⟩ := Option.map_eq_some_iff.1 h
  have hplaced := placed_bottom? hc
  rw [hf] at hplaced
  exact hplaced

theorem InPlace.move (h : m.InPlace) (hs : m.Sound) (hc : m.image.isContained = true) (hm : Move m m') :
    m'.InPlace := by
  cases hm with
  | step => exact h.step hs hc
  | restart hr => exact h.restartFrame? hs hc hr
  | rewind =>
    refine InPlace.of_steady ?_ m.steady_rewind
    exact placed_bottom? hc
  | store hst => exact h.of_steady (steady_assign hst)

/-- **Where control is contained, every frame is always in place.** -/
theorem Reachable.inPlace {m₀ : Machine} (h₀ : m₀.InPlace) (hs : m₀.Sound) (hc : m₀.image.isContained = true)
    (h : m₀.Reachable m) : m.InPlace := by
  induction h with
  | start => exact h₀
  | move hr hm ih => exact ih.move (hr.sound hs) (by rw [hr.fixed.1]; exact hc) hm

/-! ## Slots -/

variable {f : Frame} {rest : List Frame} {i : Instruction} {slot : Nat}

theorem Sound.local_lt (hs : m.Sound) (hst : m.stack = f :: rest) (hi : m.instruction? m.pc = some i)
    (hp : m.image.scopeAt m.pc = f.scope) (hop : i.op.localSlot? = some slot) : slot < f.locals.length := by
  have hframed := hs.framed
  rw [hst] at hframed
  obtain ⟨s, hscope, hlen⟩ := hframed.locals
  have hlen : f.locals.length = s.locals.length := hlen
  have ha := hs.wellFormed.code m.pc i hi
  rw [hp] at ha
  rw [hlen]
  cases ho : i.op <;> rw [ho] at hop ha <;> cases hop
  all_goals
    obtain ⟨s', hs', hlt⟩ := ha
    cases hs'.symm.trans hscope
    exact hlt

theorem Sound.param_lt (hs : m.Sound) (hi : m.instruction? m.pc = some i) (hp : m.image.scopeAt m.pc = f.scope)
    (hf : f.outline.Filled m.image) (hop : i.op.paramSlot? = some slot) : slot < f.params.length := by
  have ha := hs.wellFormed.code m.pc i hi
  rw [hp] at ha
  cases ho : i.op <;> rw [ho] at hop ha <;> cases hop
  all_goals
    obtain ⟨s, hscope, hlt⟩ := ha
    exact Nat.lt_of_lt_of_le hlt (hf s hscope)

theorem Sound.filled_of_call (hs : m.Sound) (hst : m.stack = f :: rest) (hr : rest ≠ []) {c : Instruction}
    (hc : m.image.code[f.returnPc]? = some c) {label : LabelId} {scope : ScopeId} {nargs : Nat}
    (hop : c.op = .call label scope nargs) : f.outline.Filled m.image := by
  have hframed := hs.framed
  rw [hst] at hframed
  obtain ⟨c', n, hc', -, -, hparams, hcall⟩ := ((Framed.cons_iff (by simpa using hr)).1 hframed).1.call
  cases hc'.symm.trans hc
  obtain ⟨-, -, s, hscope, hn⟩ := hcall label scope nargs hop
  intro s' hs'
  cases hs'.symm.trans hscope
  exact Nat.le_of_eq (hparams.trans hn).symm

/-! ## Failures -/

theorem frame?_top (hst : m.stack = f :: rest) : m.frame? (m.depth - 1) = some f := by
  have hd : m.depth = rest.length + 1 := by rw [depth, hst, List.length_cons]
  have hlt : m.depth - 1 < m.depth := by omega
  rw [frame?, place?, if_pos hlt, Option.bind_some, Nat.sub_self, hst]
  rfl

theorem load_local_missesSlot (hst : m.stack = f :: rest) (hslot : slot < f.locals.length) {s : Stop}
    (h : m.load (.local (m.depth - 1) slot) = .error s) : s.missesSlot = false := by
  have hpeek : m.peek (.local (m.depth - 1) slot) = .ok f.locals[slot] := by
    simp only [peek, frame?_top hst, localOf, List.getElem?_eq_getElem hslot]
  unfold load at h
  rw [hpeek] at h
  cases hv : f.locals[slot] with
  | some v => rw [hv] at h; cases h
  | none =>
    rw [hv] at h
    dsimp only at h
    split at h <;> cases h <;> rfl

theorem load_ne_paramOutOfRange (m : Machine) (r : Reference) (k : Nat) :
    m.load r ≠ .error (.fault (.internal (.paramOutOfRange k))) := by
  have hpeek : m.peek r ≠ .error (.internal (.paramOutOfRange k)) := by
    intro h
    cases r with
    | global slot | «local» frame slot =>
      simp only [peek, localOf, missingFrame] at h
      split at h
      · split at h <;> cases h
      · cases h
    | param frame slot =>
      simp only [peek, paramOf, missingFrame] at h
      split at h
      · split at h <;> cases h
      · cases h
    | element array index | field object index =>
      simp only [peek, noElement] at h
      split at h <;> cases h
  intro h
  unfold load at h
  split at h
  · rename_i he
    cases h
    exact hpeek he
  · cases h
  · split at h <;> cases h

end Machine

namespace Exec

variable {m m' : Machine} {f : Frame} {rest : List Frame} {slot : Nat} {s : Stop}

theorem topNumber_eq (m : Machine) :
    topNumber m = if m.depth = 0 then .error (.fault (.internal .noFrame)) m else .ok (m.depth - 1) m := by
  by_cases h : m.depth = 0 <;> simp only [topNumber, bind, EStateM.bind, get_eq, h, if_true, if_false] <;> rfl

theorem topNumber_of_stack (hst : m.stack = f :: rest) : topNumber m = .ok (m.depth - 1) m := by
  rw [topNumber_eq, if_neg]
  rw [Machine.depth, hst]
  exact Nat.succ_ne_zero _

theorem param_eq (hst : m.stack = f :: rest) (slot : Nat) :
    param slot m = match f.params[slot]? with
      | some v => .ok v m
      | none => .error (.fault (.internal (.paramOutOfRange slot))) m := by
  have htop : top m = .ok f m := by rw [top_eq, hst]
  simp only [param, bind, EStateM.bind, htop]
  cases f.params[slot]? <;> rfl

theorem plain_error {x : Exec Unit} (h : plain x m = .error s m') : x m = .error s m' := by
  obtain h1 | ⟨_, _, _, h2⟩ := bind_error_iff.1 h
  · exact h1
  · cases h2

theorem push_error {α : Type} {x : Exec α} {g : α → Value} (hst : m.stack = f :: rest)
    (hx : ∀ {a m₁}, x m = .ok a m₁ → m₁ = m) (h : (do push (g (← x)) : Exec Unit) m = .error s m') :
    x m = .error s m' := by
  obtain h1 | ⟨a, m₁, h1, h2⟩ := bind_error_iff.1 h
  · exact h1
  · rw [hx h1] at h2
    exact absurd h2 (sure_push (g a) m s m' (by rw [Machine.isDone, hst]; rfl))

theorem load_ok {r : Reference} {v : Value} (h : load r m = .ok v m') : m' = m := by
  rw [load_eq] at h
  split at h <;> cases h
  rfl

theorem pointee_ne_paramOutOfRange (hst : m.stack = f :: rest) (hslot : slot < f.params.length) (k : Nat) :
    pointee slot m ≠ .error (.fault (.internal (.paramOutOfRange k))) m' := by
  intro h
  have hparam := param_eq hst slot
  rw [List.getElem?_eq_getElem hslot] at hparam
  obtain h1 | ⟨v, m₁, h1, h2⟩ := bind_error_iff.1 h
  · rw [hparam] at h1
    cases h1
  rw [hparam] at h1
  cases h1
  generalize f.params[slot] = v at h2
  obtain h3 | ⟨r, m₂, h3, h4⟩ := bind_error_iff.1 h2
  · cases v <;> cases h3
  obtain h5 | ⟨m₃, _, h5, h6⟩ := bind_error_iff.1 h4
  · cases h5
  cases h5
  have hload := m₂.load_ne_paramOutOfRange r k
  cases hl : m₂.load r with
  | ok v => rw [hl] at h6; cases h6
  | error e =>
    rw [hl] at h6 hload
    cases e with
    | abort a => cases h6
    | fault e =>
      cases e
      case readBeforeAssignment =>
        -- told under the name of the parameter, for which the scope of the frame is looked up
        obtain h7 | ⟨g, _, _, h7⟩ := bind_error_iff.1 h6
        · rw [top_eq] at h7
          split at h7 <;> cases h7
        · obtain h8 | ⟨scope, _, _, h8⟩ := bind_error_iff.1 h7
          · cases hs : m₂.image.scopes[g.scope]? <;> rw [hs] at h8 <;> cases h8
          · cases h8
      case internal => cases h6; exact hload rfl
      all_goals cases h6

/-- **An instruction that names a local of its frame never finds it missing.** -/
theorem op_local_missesSlot {o : Op} (hop : o.localSlot? = some slot) (hst : m.stack = f :: rest)
    (hslot : slot < f.locals.length) (h : op o m = .error s m') : s.missesSlot = false := by
  have htop := topNumber_of_stack hst
  cases o <;> cases hop
  case localRef =>
    have hx := push_error hst (fun h => by rw [htop] at h; cases h; rfl) (plain_error h)
    rw [htop] at hx
    cases hx
  case localVal =>
    obtain h1 | ⟨n, m₁, h1, h2⟩ := bind_error_iff.1 (plain_error h)
    · rw [htop] at h1
      cases h1
    rw [htop] at h1
    cases h1
    have hx := push_error (g := fun v => v) hst load_ok h2
    rw [load_eq] at hx
    split at hx <;> cases hx
    rename_i hload
    exact Machine.load_local_missesSlot hst hslot hload

/-- **An instruction that names a parameter of its frame never finds it missing**; a local that the parameter refers to
may be. -/
theorem op_param_missesSlot {o : Op} (hop : o.paramSlot? = some slot) (hst : m.stack = f :: rest)
    (hslot : slot < f.params.length) (h : op o m = .error s m') :
    (∀ k, s ≠ .fault (.internal (.paramOutOfRange k))) ∧ (o ≠ .paramPtr slot → s.missesSlot = false) := by
  cases o <;> cases hop
  case paramRef =>
    have htop := topNumber_of_stack hst
    have hx := push_error hst (fun h => by rw [htop] at h; cases h; rfl) (plain_error h)
    rw [htop] at hx
    cases hx
  case paramVal =>
    have hparam := param_eq hst slot
    rw [List.getElem?_eq_getElem hslot] at hparam
    have hx := push_error (g := fun v => v) hst (fun h => by rw [hparam] at h; cases h; rfl) (plain_error h)
    rw [hparam] at hx
    cases hx
  case paramPtr =>
    refine ⟨fun k hk => ?_, fun hne => absurd rfl hne⟩
    subst hk
    obtain h1 | ⟨v, m₁, h1, h2⟩ := bind_error_iff.1 (plain_error h)
    · exact pointee_ne_paramOutOfRange hst hslot k h1
    · have hd : m₁.isDone = false := by
        rw [((keeps_pointee (A := fun _ => True) slot).ok h1).isDone, Machine.isDone, hst]
        rfl
      exact sure_push v m₁ _ m' hd h2

end Exec

namespace Machine

variable {f : Frame} {rest : List Frame} {i : Instruction} {slot : Nat} {m m' : Machine}

/-- A program without globals that is about to start, with nothing to read. -/
def bareStart (image : Image) : Machine :=
  ⟨image, {}, 0, [.fresh 0 0 0 [] 0], 0, none, [], [], { console := ⟨.script [], [], ""⟩, random := .ofSeed 0 }⟩

/-- A program that jumps into the body of a function without a call. -/
def strayJump : Image where
  code := #[⟨⟨1, 1⟩, .jump 0⟩, ⟨⟨2, 1⟩, .begin 1⟩, ⟨⟨2, 1⟩, .localVal 0⟩, ⟨⟨2, 1⟩, .ret 1⟩]
  labels := #[⟨"inside", 2⟩]
  strings := #[]
  classes := #[]
  scopes := #[.global [], .callable "f" [] ["x"]]
  globalScope := 0

/-- A program that calls a method without one of its arguments. -/
def shortCall : Image where
  code := #[⟨⟨1, 1⟩, .objNew 0 0⟩, ⟨⟨1, 1⟩, .vcall 0 0 1⟩, ⟨⟨1, 1⟩, .halt 1⟩, ⟨⟨2, 1⟩, .begin 1⟩, ⟨⟨2, 1⟩, .paramVal 1⟩,
    ⟨⟨2, 1⟩, .ret 1⟩]
  labels := #[⟨"add", 3⟩]
  strings := #[]
  classes := #[⟨"Thing", [], #[⟨0, 1⟩]⟩]
  scopes := #[.global [], .callable "add" ["self", "n"] []]
  globalScope := 0

/-- A program that passes to a function a reference to the local of another one which has returned. -/
def dangling : Image where
  code := #[⟨⟨1, 1⟩, .call 0 1 0⟩, ⟨⟨1, 1⟩, .call 1 2 1⟩, ⟨⟨1, 1⟩, .halt 1⟩, ⟨⟨2, 1⟩, .begin 1⟩, ⟨⟨2, 1⟩, .localRef 0⟩,
    ⟨⟨2, 1⟩, .ret 1⟩, ⟨⟨3, 1⟩, .begin 2⟩, ⟨⟨3, 1⟩, .paramPtr 0⟩, ⟨⟨3, 1⟩, .ret 1⟩]
  labels := #[⟨"leak", 3⟩, ⟨"look", 6⟩]
  strings := #[]
  classes := #[]
  scopes := #[.global [], .callable "leak" [] ["x"], .callable "look" ["p"] []]
  globalScope := 0

/-- **A valid program can miss variables that its instructions name**: a local where a jump led into the code of another
scope, a parameter that a virtual call did not pass, and, even if control stays inside scopes and no parameter is
missing, the local that a parameter refers to. -/
theorem slots_missing :
    (strayJump.isValid = true ∧
      create? strayJump {} (bareStart strayJump).world = some (bareStart strayJump) ∧
      ((bareStart strayJump).stepped 1).current?.map (·.op) = some (.localVal 0) ∧
      ((bareStart strayJump).stepped 1).stack.map (·.locals.length) = [0] ∧
      ((bareStart strayJump).stepped 1).step.1 = some (.fault (.internal (.slotOutOfRange 0)))) ∧
    (shortCall.isValid = true ∧
      create? shortCall {} (bareStart shortCall).world = some (bareStart shortCall) ∧
      ((bareStart shortCall).stepped 3).current?.map (·.op) = some (.paramVal 1) ∧
      ((bareStart shortCall).stepped 3).stack.map (·.params.length) = [1, 0] ∧
      ((bareStart shortCall).stepped 3).step.1 = some (.fault (.internal (.paramOutOfRange 1)))) ∧
    (dangling.isValid = true ∧ dangling.isContained = true ∧
      create? dangling {} (bareStart dangling).world = some (bareStart dangling) ∧
      ((bareStart dangling).stepped 6).current?.map (·.op) = some (.paramPtr 0) ∧
      ((bareStart dangling).stepped 6).step.1 = some (.fault (.internal (.slotOutOfRange 0)))) := by
  refine ⟨⟨?_, rfl, rfl, ?_, ?_⟩, ⟨?_, rfl, rfl, ?_, ?_⟩, ?_, ?_, rfl, rfl, ?_⟩ <;> decide

/-- **Where variables are there.**  Whatever a valid program and its debugger have done: if control stands in the scope
of the latest frame, the frame has the local that the instruction at hand names; it has the parameter, too, if it has
as many as its scope declares, as every frame has that was made by a call which is not virtual.  The instruction then
does not fail for want of it.  In an image that keeps control inside scopes, control stands in the scope of the latest
frame all along, and the frame has as many parameters as that declares. -/
theorem slots_exist {image : Image} {limits : Limits} {world : World} {m₀ : Machine} (hv : image.isValid = true)
    (h₀ : create? image limits world = some m₀) (h : m₀.Reachable m) (hst : m.stack = f :: rest)
    (hi : m.current? = some i) :
    (image.scopeAt m.pc = f.scope →
      (∀ slot, i.op.localSlot? = some slot →
        slot < f.locals.length ∧ ∀ s, m.step.1 = some s → s.missesSlot = false) ∧
      (f.outline.Filled image → ∀ slot, i.op.paramSlot? = some slot →
        slot < f.params.length ∧ ∀ s, m.step.1 = some s →
          (∀ k, s ≠ .fault (.internal (.paramOutOfRange k))) ∧ (i.op ≠ .paramPtr slot → s.missesSlot = false))) ∧
    (∀ c label scope nargs, rest ≠ [] → image.code[f.returnPc]? = some c → c.op = .call label scope nargs →
      f.outline.Filled image) ∧
    (image.isContained = true → image.scopeAt m.pc = f.scope ∧ f.outline.Filled image) := by
  obtain ⟨hi₀, -⟩ := create?_fixed h₀
  have himage : m.image = image := h.fixed.1.trans hi₀
  have hs₀ := sound_create? hv h₀
  have hs : m.Sound := h.sound hs₀
  have hcode : m.instruction? m.pc = some i := (current?_eq_some_iff.1 hi).2
  subst himage
  refine ⟨fun hp => ⟨fun slot hop => ?_, fun hf slot hop => ?_⟩, ?_, fun hc => ?_⟩
  · have hslot := hs.local_lt hst hcode hp hop
    refine ⟨hslot, fun s hstop => ?_⟩
    obtain rfl | ⟨m', ho⟩ := stop_of_step hi hstop
    · rfl
    · exact Exec.op_local_missesSlot (m := m.counted) hop hst hslot ho
  · have hslot := hs.param_lt hcode hp hf hop
    refine ⟨hslot, fun s hstop => ?_⟩
    obtain rfl | ⟨m', ho⟩ := stop_of_step hi hstop
    · exact ⟨fun k hk => (nomatch hk), fun _ => rfl⟩
    · exact Exec.op_param_missesSlot (m := m.counted) hop hst hslot ho
  · intro c label scope nargs hrest hc hop
    exact hs.filled_of_call hst hrest hc hop
  · have hplaced : m.InPlace := h.inPlace (inPlace_create? hc h₀) hs₀ (by rw [hi₀]; exact hc)
    unfold InPlace at hplaced
    rw [hst] at hplaced
    exact ⟨hplaced.1, hplaced.2.1⟩

/-- In a method that was called through an object, the parameter that is read is there. -/
theorem slots_exist_selfCall :
    selfCall.isValid = true ∧ selfCall.isContained = true ∧
    ∃ f rest, (selfCallStart.stepped 3).stack = f :: rest ∧ f.scope = 1 ∧
      (selfCallStart.stepped 3).current?.map (·.op) = some (.paramVal 0) ∧ 0 < f.params.length ∧
      ∀ s, (selfCallStart.stepped 3).step.1 = some s → s.missesSlot = false := by
  have hv : selfCall.isValid = true := by decide
  have hc : selfCall.isContained = true := by decide
  have h₀ : create? selfCall {} selfCallStart.world = some selfCallStart := rfl
  have hi : (selfCallStart.stepped 3).current? = some ⟨⟨2, 1⟩, .paramVal 0⟩ := rfl
  obtain ⟨hslots, -, hplace⟩ := slots_exist hv h₀ (reachable_stepped selfCallStart 3) rfl hi
  obtain ⟨hscope, hfilled⟩ := hplace hc
  obtain ⟨hlt, hstop⟩ := (hslots hscope).2 hfilled 0 rfl
  exact ⟨hv, hc, _, _, rfl, rfl, rfl, hlt, fun s hs => (hstop s hs).2 (fun h => nomatch h)⟩

end Machine

end PseudoVm
