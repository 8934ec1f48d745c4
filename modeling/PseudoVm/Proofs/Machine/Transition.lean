import PseudoVm.Proofs.Image.WellFormed
import PseudoVm.Proofs.Machine.Steady
/-!
# Machine.Transition: everything that an instruction can do

An instruction that succeeds stays in its frame, jumps to a label, enters a scope, returns to its caller, or ends the
program (`Exec.Effect`, `Exec.op_effect`).  One that fails leaves the frames alone (`Exec.op_error`), and in a well
formed image no table lacks what it looks up.  Whatever a run keeps is proved from these, by cases on the effect.
-/
namespace PseudoVm

/-- How many arguments a call passes. -/
def Op.nargs? : Op → Option Nat
  | .call _ _ nargs | .vcall _ _ nargs => some nargs
  | _ => none

/-- How many operands an instruction that leaves its scope hands over. -/
def Op.nval? : Op → Option Nat
  | .finish => some 0
  | .ret nval => some nval
  | _ => none

/-- Where a call with some arguments goes: that of a virtual one is a method of its receiver's class. -/
inductive Image.Resolves (image : Image) : Op → List Value → Nat → ScopeId → Prop
  | call {label scope nargs args target} (hl : image.labelPc? label = some target) :
      Resolves image (.call label scope nargs) args target scope
  | vcall {static slot nargs cls id args target} {c : Class} {m : Method} (hc : image.classes[cls]? = some c)
      (hm : c.methods[slot]? = some m) (hl : image.labelPc? m.label = some target) :
      Resolves image (.vcall static slot nargs) (.object cls id :: args) target m.scope

theorem Image.Resolves.marker {image : Image} (hw : image.WellFormed) {scope : ScopeId} {op : Op}
    (ha : image.Admits scope op) {args : List Value} {target : Nat} {callee : ScopeId}
    (h : image.Resolves op args target callee) : ∃ i, image.code[target]? = some i ∧ i.op = .begin callee := by
  have hentry : ∀ {label : LabelId}, image.IsEntry label callee → image.labelPc? label = some target →
      ∃ i, image.code[target]? = some i ∧ i.op = .begin callee := by
    intro label he hl
    obtain ⟨pc, i, h1, h2, h3⟩ := he.labelPc?
    rw [hl] at h1
    cases h1
    exact ⟨i, h2, h3⟩
  cases h with
  | call hl => exact hentry ha.1 hl
  | vcall hc hm hl => exact hentry (hw.methods _ (Array.mem_of_getElem? hc) _ (Array.mem_of_getElem? hm)) hl

namespace Exec

variable {α : Type}

/-! ## The primitives that change frames -/

theorem holding_ok_iff {vs : List Value} {x : Exec α} {m m' : Machine} {a : α} :
    holding vs x m = .ok a m' ↔ ∃ m₁, x m = .ok a m₁ ∧ m' = m₁.letGo vs := by
  unfold holding
  cases x m <;> simp [eq_comm, and_assoc]

theorem holding_error_iff {vs : List Value} {x : Exec α} {m m' : Machine} {s : Stop} :
    holding vs x m = .error s m' ↔ ∃ m₁, x m = .error s m₁ ∧ m' = m₁.letGo vs := by
  unfold holding
  cases x m <;> simp [eq_comm, and_assoc]

theorem popMany_eq (n : Nat) (m : Machine) :
    popMany n m = match m.stack with
      | [] => .error (.fault (.internal .noFrame)) m
      | f :: rest =>
        if f.eval.length < n then .error (.fault .evalStackUnderflow) m
        else .ok (f.eval.take n).reverse { m with stack := { f with eval := f.eval.drop n } :: rest } := by
  obtain ⟨image, limits, pc, stack, executed, result, suspended, loose, world⟩ := m
  cases stack with
  | nil => rfl
  | cons f rest =>
    by_cases h : f.eval.length < n <;>
      simp only [popMany, top, bind, EStateM.bind, get_eq, pure, EStateM.pure, h,
        if_true, if_false] <;> rfl

theorem enter_eq (target : Nat) (scope : ScopeId) (args : List Value) (m : Machine) :
    enter target scope args m =
      if m.limits.maxStackDepth ≤ m.depth then .error (.fault .stackOverflow) m
      else
        match m.image.scopes[scope]? with
        | none => .error (.fault (.internal (.scopeNotFound scope))) m
        | some s =>
          .ok (.jump target) { m with stack := Frame.fresh scope target m.pc args s.locals.length :: m.stack } := by
  by_cases h : m.limits.maxStackDepth ≤ m.depth
  · simp only [enter, bind, EStateM.bind, get_eq, h, if_true]
    rfl
  · simp only [enter, bind, EStateM.bind, get_eq, h, if_false]
    cases m.image.scopes[scope]? <;> rfl

theorem leave_eq (nval : Nat) (m : Machine) :
    leave nval m = match m.stack with
      | [] => .error (.fault (.internal .noFrame)) m
      | frame :: rest =>
        if frame.eval.length ≠ nval then .error (.fault (.returnArity nval frame.eval.length)) m
        else
          match rest with
          | [] => .ok .next ({ m with stack := [] }.letGo frame.values)
          | caller :: rest =>
            .ok (.jump (frame.returnPc + 1))
              ({ m with stack := { caller with eval := frame.eval ++ caller.eval } :: rest }.letGo
                frame.cellValues) := by
  obtain ⟨image, limits, pc, stack, executed, result, suspended, loose, world⟩ := m
  cases stack with
  | nil => rfl
  | cons frame rest =>
    by_cases h : frame.eval.length ≠ nval
    · simp only [leave, bind, EStateM.bind, get_eq, if_pos h]
      rfl
    · simp only [leave, bind, EStateM.bind, get_eq, h, if_false]
      cases rest <;> rfl

theorem stop_eq (nval : Nat) (m : Machine) :
    stop nval m = match m.stack with
      | [] => .error (.fault (.internal .noFrame)) m
      | frame :: _ =>
        if frame.eval.length ≠ nval then .error (.fault (.returnArity nval frame.eval.length)) m
        else .ok .next ({ m with result := frame.eval.head?, stack := [] }.letGo
          (m.result.toList ++ m.stack.reverse.flatMap Frame.values)) := by
  obtain ⟨image, limits, pc, stack, executed, result, suspended, loose, world⟩ := m
  cases stack with
  | nil => rfl
  | cons frame rest =>
    by_cases h : frame.eval.length ≠ nval
    · simp only [stop, top, bind, EStateM.bind, get_eq, pure, EStateM.pure,
        if_pos h]
      rfl
    · simp only [stop, top, bind, EStateM.bind, get_eq, pure, EStateM.pure, h,
        if_false]
      rfl

theorem method_eq (receiver : Value) (slot : Nat) (m : Machine) :
    method receiver slot m = match receiver.asObject with
      | .error f => .error (.fault f) m
      | .ok (cls, _) =>
        match m.image.classes[cls]?.bind fun c => c.methods[slot]? with
        | some found => .ok found m
        | none => .error (.fault (.badInstruction (.noVirtualSlot slot))) m := by
  cases h : receiver.asObject with
  | error f => simp only [method, h]; rfl
  | ok p =>
    simp only [method, h, check, bind, EStateM.bind, get_eq, pure, EStateM.pure]
    cases m.image.classes[p.1]?.bind fun c => c.methods[slot]? <;> rfl

/-! ## Effects -/

/-- **What an instruction that succeeds did.** -/
inductive Effect (m : Machine) (op : Op) : Flow → Machine → Prop
  /-- It stayed in its frame. -/
  | stay {m'} (h : m.Steady m') : Effect m op .next m'
  /-- It jumped to a label. -/
  | jump {label target m'} (ht : op.jumpTarget = some label) (hl : m.image.labelPc? label = some target)
      (h : m.Steady m') : Effect m op (.jump target) m'
  /-- It entered a scope with operands of its frame as arguments. -/
  | enter {nargs caller rest target scope s} (hop : op.nargs? = some nargs) (hst : m.stack = caller :: rest)
      (hn : nargs ≤ caller.eval.length)
      (hr : m.image.Resolves op (caller.eval.take nargs).reverse target scope)
      (hd : m.depth < m.limits.maxStackDepth) (hs : m.image.scopes[scope]? = some s) :
      Effect m op (.jump target)
        ({ m with stack := Frame.fresh scope target m.pc (caller.eval.take nargs).reverse s.locals.length ::
            { caller with eval := caller.eval.drop nargs } :: rest }.letGo (caller.eval.take nargs).reverse)
  /-- It returned to the caller of its frame. -/
  | leave {frame caller rest} (hop : op.nval? = some frame.eval.length) (hst : m.stack = frame :: caller :: rest) :
      Effect m op (.jump (frame.returnPc + 1))
        ({ m with stack := { caller with eval := frame.eval ++ caller.eval } :: rest }.letGo frame.cellValues)
  /-- It left the frame of the whole program. -/
  | finish {frame} (hop : op.nval? = some frame.eval.length) (hst : m.stack = [frame]) :
      Effect m op .next ({ m with stack := [] }.letGo frame.values)
  /-- It stopped the program. -/
  | halt {frame rest} (hop : op = .halt frame.eval.length) (hst : m.stack = frame :: rest) :
      Effect m op .next ({ m with result := frame.eval.head?, stack := [] }.letGo
        (m.result.toList ++ m.stack.reverse.flatMap Frame.values))

/-- An instruction that keeps the frames and goes on to the next. -/
structure Stays (A : Image → Prop) (x : Exec Flow) : Prop where
  keeps : Keeps A x
  next : ∀ {m flow m'}, x m = .ok flow m' → flow = .next

variable {A : Image → Prop}

theorem Stays.plain {x : Exec Unit} (hx : Keeps A x) : Stays A (plain x) := by
  refine ⟨hx.bind fun _ => .pure _, fun h => ?_⟩
  obtain ⟨_, _, _, h2⟩ := bind_ok_iff.1 h
  cases h2
  rfl

theorem Stays.effect {x : Exec Flow} (hx : Stays A x) {op : Op} {m m' : Machine} {flow : Flow}
    (h : x m = .ok flow m') : Effect m op flow m' := by
  cases hx.next h
  exact .stay (hx.keeps.ok h)

theorem stays_callLibrary (index nargs : Nat) : Stays A (callLibrary index nargs) := by
  refine ⟨keeps_callLibrary index nargs, fun h => ?_⟩
  obtain ⟨args, m₁, _, h1⟩ := bind_ok_iff.1 h
  obtain ⟨m₂, h2, _⟩ := holding_ok_iff.1 h1
  cases hf : LibraryFunction.ofIndex? index with
  | none => rw [hf] at h2; cases h2
  | some f =>
    rw [hf] at h2
    obtain ⟨v, m₃, _, h3⟩ := bind_ok_iff.1 h2
    cases v with
    | none => cases h3; rfl
    | some v =>
      obtain ⟨_, _, _, h4⟩ := bind_ok_iff.1 h3
      cases h4
      rfl

theorem keeps_litStr {id : StringId} (hA : ∀ image, A image → id < image.strings.size) :
    Keeps A (do
      match (← get).image.strings[id]? with
      | some s => push (.text s)
      | none => fault (.internal (.stringNotFound id)) : Exec Unit) := by
  have hpush : ∀ s : String, Keeps A (push (.text s)) := fun s => keeps_push _
  refine ⟨fun {m a m'} h => ?_, fun {m s m'} h => ?_⟩
  · obtain ⟨_, _, h1, h2⟩ := bind_ok_iff.1 h
    cases h1
    cases hs : m.image.strings[id]? with
    | none => rw [hs] at h2; cases h2
    | some text => rw [hs] at h2; exact (hpush text).ok h2
  · obtain h1 | ⟨_, _, h1, h2⟩ := bind_error_iff.1 h
    · cases h1
    cases h1
    cases hs : m.image.strings[id]? with
    | none =>
      rw [hs] at h2
      cases h2
      refine ⟨.refl m, fun ha _ => ?_⟩
      exact absurd (hA _ ha) (Nat.not_lt.2 (Array.getElem?_eq_none_iff.1 hs))
    | some text => rw [hs] at h2; exact (hpush text).error h2

theorem keeps_label {label : LabelId} (hA : ∀ image, A image → label < image.labels.size) :
    Keeps A (do require ((← get).image.labelPc? label) : Exec Nat) := by
  refine ⟨fun {m a m'} h => ?_, fun {m s m'} h => ?_⟩
  · obtain ⟨_, _, h1, h2⟩ := bind_ok_iff.1 h
    cases h1
    cases hl : m.image.labelPc? label with
    | none => rw [hl] at h2; cases h2
    | some t => rw [hl] at h2; cases h2; exact .refl m
  · obtain h1 | ⟨_, _, h1, h2⟩ := bind_error_iff.1 h
    · cases h1
    cases h1
    cases hl : m.image.labelPc? label with
    | none =>
      rw [hl] at h2
      cases h2
      refine ⟨.refl m, fun ha _ => ?_⟩
      exact absurd (hA _ ha) (Nat.not_lt.2 (Array.getElem?_eq_none_iff.1 (Option.map_eq_none_iff.1 hl)))
    | some t => rw [hl] at h2; cases h2

theorem keeps_jump {label : LabelId} (hA : ∀ image, A image → label < image.labels.size) :
    Keeps A (Exec.jump label) := by
  have h : Exec.jump label = (do require ((← get).image.labelPc? label) : Exec Nat) >>= fun t => pure (.jump t) := by
    unfold Exec.jump
    rw [bind_assoc]
  rw [h]
  exact (keeps_label hA).bind fun _ => .pure _

theorem leave_ok {nval : Nat} {m m' : Machine} {flow : Flow} (h : leave nval m = .ok flow m') :
    ∃ frame rest, m.stack = frame :: rest ∧ frame.eval.length = nval ∧
      (rest = [] ∧ flow = .next ∧ m' = { m with stack := [] }.letGo frame.values ∨
        ∃ caller below, rest = caller :: below ∧ flow = .jump (frame.returnPc + 1) ∧
          m' = ({ m with stack := { caller with eval := frame.eval ++ caller.eval } :: below }.letGo
            frame.cellValues)) := by
  rw [leave_eq] at h
  split at h
  · cases h
  rename_i frame rest hst
  by_cases hn : frame.eval.length = nval
  · rw [if_neg (not_not_intro hn)] at h
    split at h <;> cases h
    · exact ⟨frame, [], hst, hn, .inl ⟨rfl, rfl, rfl⟩⟩
    · exact ⟨frame, _, hst, hn, .inr ⟨_, _, rfl, rfl, rfl⟩⟩
  · rw [if_pos hn] at h
    cases h

theorem leave_effect {op : Op} {nval : Nat} (hop : op.nval? = some nval) {m m' : Machine} {flow : Flow}
    (h : leave nval m = .ok flow m') : Effect m op flow m' := by
  obtain ⟨frame, rest, hst, rfl, ⟨rfl, rfl, rfl⟩ | ⟨caller, below, rfl, rfl, rfl⟩⟩ := leave_ok h
  · exact .finish hop hst
  · exact .leave hop hst

theorem jump_effect {op : Op} {label : LabelId} (ht : op.jumpTarget = some label) {m m₁ m' : Machine}
    (hst : m.Steady m₁) {flow : Flow} (h : Exec.jump label m₁ = .ok flow m') : Effect m op flow m' := by
  obtain ⟨_, _, h1, h2⟩ := bind_ok_iff.1 h
  cases h1
  obtain ⟨target, m₂, h3, h4⟩ := bind_ok_iff.1 h2
  cases h4
  cases hl : m₁.image.labelPc? label with
  | none => rw [hl] at h3; cases h3
  | some t =>
    rw [hl] at h3
    cases h3
    rw [hst.image] at hl
    exact .jump ht hl hst

theorem popMany_ok {n : Nat} {m m' : Machine} {vs : List Value} (h : popMany n m = .ok vs m') :
    ∃ f rest, m.stack = f :: rest ∧ n ≤ f.eval.length ∧ vs = (f.eval.take n).reverse ∧
      m' = { m with stack := { f with eval := f.eval.drop n } :: rest } := by
  rw [popMany_eq] at h
  split at h
  · cases h
  · rename_i f rest hst
    by_cases hn : f.eval.length < n
    · rw [if_pos hn] at h
      cases h
    · rw [if_neg hn] at h
      cases h
      exact ⟨f, rest, hst, Nat.not_lt.1 hn, rfl, rfl⟩

theorem enter_ok {target : Nat} {scope : ScopeId} {args : List Value} {m m' : Machine} {flow : Flow}
    (h : enter target scope args m = .ok flow m') : m.depth < m.limits.maxStackDepth ∧ ∃ s,
      m.image.scopes[scope]? = some s ∧ flow = .jump target ∧
      m' = { m with stack := Frame.fresh scope target m.pc args s.locals.length :: m.stack } := by
  rw [enter_eq] at h
  split at h
  · cases h
  rename_i hd
  split at h <;> cases h
  exact ⟨Nat.not_le.1 hd, _, ‹_›, rfl, rfl⟩

theorem enter_effect {op : Op} {nargs : Nat} (hop : op.nargs? = some nargs) {m m₁ m₂ : Machine} {args : List Value}
    {target : Nat} {scope : ScopeId} {flow : Flow} (hp : popMany nargs m = .ok args m₁)
    (hr : m.image.Resolves op args target scope) (h : enter target scope args m₁ = .ok flow m₂) :
    Effect m op flow (m₂.letGo args) := by
  obtain ⟨caller, rest, hst, hn, rfl, rfl⟩ := popMany_ok hp
  obtain ⟨hd, s, hs, rfl, rfl⟩ := enter_ok h
  have hdepth : m.depth < m.limits.maxStackDepth := by
    simp only [Machine.depth, List.length_cons] at hd
    simp only [Machine.depth, hst, List.length_cons]
    omega
  exact .enter hop hst hn hr hdepth hs

theorem require_ok {a : Option α} {b : α} {m m' : Machine} (h : require a m = .ok b m') : a = some b ∧ m' = m := by
  cases a with
  | none => cases h
  | some a => cases h; exact ⟨rfl, rfl⟩

theorem call_effect {label : LabelId} {scope : ScopeId} {nargs : Nat} {m m' : Machine} {flow : Flow}
    (h : op (.call label scope nargs) m = .ok flow m') : Effect m (.call label scope nargs) flow m' := by
  obtain ⟨args, m₁, hp, h1⟩ := bind_ok_iff.1 h
  obtain ⟨m₂, h2, rfl⟩ := holding_ok_iff.1 h1
  obtain ⟨_, _, hg, h3⟩ := bind_ok_iff.1 h2
  cases hg
  obtain ⟨target, _, hl, h4⟩ := bind_ok_iff.1 h3
  obtain ⟨hl, rfl⟩ := require_ok hl
  have hst := (keeps_popMany (A := fun _ => True) nargs).ok hp
  rw [hst.image] at hl
  exact enter_effect rfl hp (.call hl) h4

theorem method_ok {receiver : Value} {slot : Nat} {m m' : Machine} {found : Method}
    (h : method receiver slot m = .ok found m') : m' = m ∧ ∃ cls id c, receiver = .object cls id ∧
      m.image.classes[cls]? = some c ∧ c.methods[slot]? = some found := by
  rw [method_eq] at h
  split at h
  · cases h
  · rename_i cls id ho
    split at h
    · rename_i hm
      cases h
      obtain ⟨c, hc, hs⟩ := Option.bind_eq_some_iff.1 hm
      have hobj : receiver = .object cls id := by
        cases receiver <;> simp_all [Value.asObject]
      exact ⟨rfl, cls, id, c, hobj, hc, hs⟩
    · cases h

theorem vcall_effect {cls : ClassId} {slot nargs : Nat} {m m' : Machine} {flow : Flow}
    (h : op (.vcall cls slot nargs) m = .ok flow m') : Effect m (.vcall cls slot nargs) flow m' := by
  obtain ⟨args, m₁, hp, h1⟩ := bind_ok_iff.1 h
  obtain ⟨m₂, h2, rfl⟩ := holding_ok_iff.1 h1
  have hst := (keeps_popMany (A := fun _ => True) nargs).ok hp
  cases args with
  | nil => cases h2
  | cons receiver args =>
    obtain ⟨found, m₃, hm, h3⟩ := bind_ok_iff.1 h2
    obtain ⟨rfl, c, id, k, rfl, hc, hs⟩ := method_ok hm
    obtain ⟨_, _, hg, h4⟩ := bind_ok_iff.1 h3
    cases hg
    obtain ⟨target, _, hl, h5⟩ := bind_ok_iff.1 h4
    obtain ⟨hl, rfl⟩ := require_ok hl
    rw [hst.image] at hl hc
    exact enter_effect rfl hp (.vcall hc hs hl) h5

theorem stop_ok {nval : Nat} {m m' : Machine} {flow : Flow} (h : stop nval m = .ok flow m') :
    ∃ frame rest, m.stack = frame :: rest ∧ frame.eval.length = nval ∧ flow = .next ∧
      m' = ({ m with result := frame.eval.head?, stack := [] }.letGo
        (m.result.toList ++ m.stack.reverse.flatMap Frame.values)) := by
  rw [stop_eq] at h
  split at h
  · cases h
  rename_i frame rest hst
  by_cases hn : frame.eval.length = nval
  · rw [if_neg (not_not_intro hn)] at h
    cases h
    exact ⟨frame, rest, hst, hn, rfl, rfl⟩
  · rw [if_pos hn] at h
    cases h

theorem stop_effect {nval : Nat} {m m' : Machine} {flow : Flow} (h : stop nval m = .ok flow m') :
    Effect m (.halt nval) flow m' := by
  obtain ⟨frame, rest, hst, rfl, rfl, rfl⟩ := stop_ok h
  exact .halt rfl hst

/-! ## Every instruction -/

/-- An instruction that neither jumps nor changes the frames. -/
def isLocal : Op → Bool
  | .jump _ | .jumpTrue _ | .jumpFalse _ | .call _ _ _ | .vcall _ _ _ | .ret _ | .finish | .halt _ => false
  | _ => true

/-- What an instruction assumes of the image so that its look-ups succeed. -/
def Fits (o : Op) (image : Image) : Prop := image.WellFormed ∧ ∃ scope, image.Admits scope o

theorem stays_op (o : Op) (h : isLocal o = true) : Stays (Fits o) (op o) := by
  by_cases hb : o.isBasic = true
  · obtain ⟨act, hop, hact⟩ := (compositional_keeps (Fits o)).exists_plain keeps_pointee o hb
    rw [hop]
    exact .plain hact
  · cases o <;> simp only [isLocal, Op.isBasic, not_true_eq_false, Bool.false_eq_true] at h hb
    case litStr id => exact .plain (keeps_litStr fun image hA => hA.2.elim fun _ h => h)
    case arrayClone dims => exact .plain (keeps_copyArray dims)
    case objNew cls nfields => exact .plain (keeps_newObject cls nfields)
    case libCall index nargs => exact stays_callLibrary index nargs
    case begin => exact ⟨.pure _, fun h => by cases h; rfl⟩

theorem condJump_effect {o : Op} {label : LabelId} (ht : o.jumpTarget = some label) {yes no : Exec Flow}
    (hy : yes = Exec.jump label ∨ yes = pure .next) (hn : no = Exec.jump label ∨ no = pure .next) {m m' : Machine}
    {flow : Flow} (h : (do if ← popAs Value.asBool then yes else no : Exec Flow) m = .ok flow m') :
    Effect m o flow m' := by
  obtain ⟨b, m₁, h1, h2⟩ := bind_ok_iff.1 h
  have hst := (keeps_popAs (A := fun _ => True) ordinary_asBool).ok h1
  have hone : ∀ {x : Exec Flow}, x = Exec.jump label ∨ x = pure .next → x m₁ = .ok flow m' → Effect m o flow m' := by
    rintro x (rfl | rfl) hx
    · exact jump_effect ht hst hx
    · cases hx
      exact .stay hst
  cases b
  · exact hone hn h2
  · exact hone hy h2

/-- **Every instruction that succeeds has one of the effects.** -/
theorem op_effect (o : Op) {m m' : Machine} {flow : Flow} (h : op o m = .ok flow m') : Effect m o flow m' := by
  by_cases hl : isLocal o = true
  · exact (stays_op o hl).effect h
  · cases o <;> simp only [isLocal, not_true_eq_false] at hl
    case jump => exact jump_effect rfl (.refl m) h
    case jumpTrue => exact condJump_effect rfl (.inl rfl) (.inr rfl) h
    case jumpFalse => exact condJump_effect rfl (.inr rfl) (.inl rfl) h
    case call => exact call_effect h
    case vcall => exact vcall_effect h
    case ret => exact leave_effect rfl h
    case finish => exact leave_effect rfl h
    case halt => exact stop_effect h

theorem enter_error {target : Nat} {scope : ScopeId} {args : List Value} {m m' : Machine} {s : Stop}
    (h : enter target scope args m = .error s m') :
    m' = m ∧ (scope < m.image.scopes.size → s.missesTable = false) := by
  rw [enter_eq] at h
  split at h
  · cases h
    exact ⟨rfl, fun _ => rfl⟩
  · split at h
    · rename_i hs
      cases h
      exact ⟨rfl, fun hlt => absurd hlt (Nat.not_lt.2 (Array.getElem?_eq_none_iff.1 hs))⟩
    · cases h

theorem enterLabel_error {label : LabelId} {scope : ScopeId} {args : List Value} {m m' : Machine} {s : Stop}
    (h : (do
      let target ← require ((← get).image.labelPc? label)
      enter target scope args : Exec Flow) m = .error s m') :
    m' = m ∧ (m.image.IsEntry label scope → s.missesTable = false) := by
  obtain hg | ⟨_, _, hg, h1⟩ := bind_error_iff.1 h
  · cases hg
  cases hg
  cases hl : m.image.labelPc? label with
  | none =>
    rw [hl] at h1
    cases h1
    refine ⟨rfl, fun he => ?_⟩
    obtain ⟨pc, _, hpc, -⟩ := he.labelPc?
    rw [hl] at hpc
    cases hpc
  | some target =>
    rw [hl] at h1
    obtain ⟨rfl, hs⟩ := enter_error h1
    exact ⟨rfl, fun he => hs he.scope_lt⟩

theorem call_error {label : LabelId} {scope : ScopeId} {nargs : Nat} {m m' : Machine} {s : Stop}
    (h : op (.call label scope nargs) m = .error s m') :
    m.Steady m' ∧ (Fits (.call label scope nargs) m.image → m.Named → s.missesTable = false) := by
  obtain hp | ⟨args, m₁, hp, h1⟩ := bind_error_iff.1 h
  · exact (keeps_popMany nargs).error hp
  obtain ⟨m₂, h2, rfl⟩ := holding_error_iff.1 h1
  have hst := (keeps_popMany (A := fun _ => True) nargs).ok hp
  obtain ⟨rfl, hs⟩ := enterLabel_error h2
  refine ⟨hst.trans (Machine.steady_letGo _ args), fun hA _ => hs ?_⟩
  obtain ⟨-, _, ha⟩ := hA
  rw [hst.image]
  exact ha.1

theorem vcall_error {cls : ClassId} {slot nargs : Nat} {m m' : Machine} {s : Stop}
    (h : op (.vcall cls slot nargs) m = .error s m') :
    m.Steady m' ∧ (Fits (.vcall cls slot nargs) m.image → m.Named → s.missesTable = false) := by
  obtain hp | ⟨args, m₁, hp, h1⟩ := bind_error_iff.1 h
  · exact (keeps_popMany nargs).error hp
  obtain ⟨m₂, h2, rfl⟩ := holding_error_iff.1 h1
  have hst := (keeps_popMany (A := fun _ => True) nargs).ok hp
  suffices hin : m₂ = m₁ ∧ (m₁.image.WellFormed → s.missesTable = false) by
    obtain ⟨rfl, hs⟩ := hin
    exact ⟨hst.trans (Machine.steady_letGo _ args), fun hA _ => hs (by rw [hst.image]; exact hA.1)⟩
  cases args with
  | nil => cases h2; exact ⟨rfl, fun _ => rfl⟩
  | cons receiver args =>
    obtain hm | ⟨found, m₃, hm, h3⟩ := bind_error_iff.1 h2
    · rw [method_eq] at hm
      split at hm
      · rename_i f hf
        cases hm
        exact ⟨rfl, fun _ => Fault.missesTable_of_isPlain (Fault.isPlain_of_isOfOperation (ordinary_asObject receiver f hf))⟩
      · split at hm <;> cases hm
        exact ⟨rfl, fun _ => rfl⟩
    · obtain ⟨rfl, _, _, c, -, hc, hs⟩ := method_ok hm
      obtain ⟨rfl, hs'⟩ := enterLabel_error h3
      exact ⟨rfl, fun hw => hs' (hw.methods c (Array.mem_of_getElem? hc) found (Array.mem_of_getElem? hs))⟩

theorem leave_error {nval : Nat} {m m' : Machine} {s : Stop} (h : leave nval m = .error s m') :
    m' = m ∧ s.missesTable = false := by
  rw [leave_eq] at h
  split at h
  · cases h
    exact ⟨rfl, rfl⟩
  · split at h
    · cases h
      exact ⟨rfl, rfl⟩
    · split at h <;> cases h

theorem stop_error {nval : Nat} {m m' : Machine} {s : Stop} (h : stop nval m = .error s m') :
    m' = m ∧ s.missesTable = false := by
  rw [stop_eq] at h
  split at h
  · cases h
    exact ⟨rfl, rfl⟩
  · split at h <;> cases h
    exact ⟨rfl, rfl⟩

/-- **An instruction that fails leaves the frames alone**, and no table that it looks into is why, if the image is well
formed and has the scope of every frame. -/
theorem op_error (o : Op) {m m' : Machine} {s : Stop} (h : op o m = .error s m') :
    m.Steady m' ∧ (Fits o m.image → m.Named → s.missesTable = false) := by
  by_cases hl : isLocal o = true
  · exact (stays_op o hl).keeps.error h
  · have hlabel : ∀ {label : LabelId}, o.jumpTarget = some label → o.nargs? = none → ∀ image, Fits o image →
        label < image.labels.size := by
      intro label ht hn image hA
      obtain ⟨-, _, ha⟩ := hA
      cases o <;> cases ht
      case call => cases hn
      all_goals exact ha
    cases o <;> simp only [isLocal, not_true_eq_false] at hl
    case jump => exact (keeps_jump (hlabel rfl rfl)).error h
    case jumpTrue => exact ((compositional_keeps _).condJump (keeps_jump (hlabel rfl rfl)) (.pure _)).error h
    case jumpFalse => exact ((compositional_keeps _).condJump (.pure _) (keeps_jump (hlabel rfl rfl))).error h
    case call => exact call_error h
    case vcall => exact vcall_error h
    case ret => obtain ⟨rfl, hs⟩ := leave_error h; exact ⟨.refl _, fun _ _ => hs⟩
    case finish => obtain ⟨rfl, hs⟩ := leave_error h; exact ⟨.refl _, fun _ _ => hs⟩
    case halt => obtain ⟨rfl, hs⟩ := stop_error h; exact ⟨.refl _, fun _ _ => hs⟩

end Exec

namespace Machine

/-! ## Steps -/

/-- Where control stands after an instruction. -/
def flowTo (m : Machine) : Flow → Machine
  | .next => { m with pc := m.pc + 1 }
  | .jump target => { m with pc := target }

/-- The machine once an instruction counts against the limit. -/
def counted (m : Machine) : Machine := { m with executed := m.executed + 1 }

theorem step_eq (m : Machine) :
    m.step =
      if m.isDone then (some (.fault (.internal .alreadyFinished)), m.settle)
      else if m.limits.maxInstructions ≤ m.executed then (some (.fault .instructionLimit), m.settle)
      else
        match m.instruction? m.pc with
        | none => (some (.fault (.badInstruction (.pastEnd m.pc))), m.counted.settle)
        | some i =>
          match Exec.op i.op m.counted with
          | .ok flow m' => (none, (m'.flowTo flow).settle)
          | .error s m' => (some s, m'.settle) := by
  by_cases hd : m.isDone = true
  · rw [if_pos hd]
    simp only [step, Exec.step, bind, EStateM.bind, Exec.get_eq, if_pos hd]
    rfl
  rw [if_neg hd]
  by_cases hl : m.limits.maxInstructions ≤ m.executed
  · rw [if_pos hl]
    simp only [step, Exec.step, bind, EStateM.bind, Exec.get_eq, if_neg hd, if_pos hl]
    rfl
  rw [if_neg hl]
  have hstep : Exec.step m = Exec.instruction m.counted := by
    simp only [Exec.step, bind, EStateM.bind, Exec.get_eq, if_neg hd, if_neg hl]
    rfl
  have hinst : Exec.instruction m.counted = match m.instruction? m.pc with
      | none => .error (.fault (.badInstruction (.pastEnd m.pc))) m.counted
      | some i =>
        match Exec.op i.op m.counted with
        | .ok flow m' => .ok () (m'.flowTo flow)
        | .error s m' => .error s m' := by
    simp only [Exec.instruction, bind, EStateM.bind, Exec.get_eq]
    change (match m.instruction? m.pc with
      | none => Exec.fault (.badInstruction (.pastEnd m.pc))
      | some i => (Exec.op i.op >>= fun flow => match flow with
        | .next => modify fun m : Machine => { m with pc := m.pc + 1 }
        | .jump target => modify fun m : Machine => { m with pc := target } : Exec Unit)) m.counted = _
    cases m.instruction? m.pc with
    | none => rfl
    | some i =>
      simp only [bind, EStateM.bind]
      cases Exec.op i.op m.counted with
      | ok flow m' => cases flow <;> rfl
      | error s m' => rfl
  rw [step, hstep, hinst]
  cases m.instruction? m.pc with
  | none => rfl
  | some i => cases h : Exec.op i.op m.counted <;> simp only [h]

theorem current?_eq_some_iff {m : Machine} {i : Instruction} :
    m.current? = some i ↔ m.isDone = false ∧ m.instruction? m.pc = some i := by
  cases hd : m.isDone <;> simp [current?, hd]

theorem instruction?_of_current? {m : Machine} {i : Instruction} (h : m.current? = some i) :
    0 < m.depth ∧ m.instruction? m.pc = some i := by
  obtain ⟨hd, hi⟩ := current?_eq_some_iff.1 h
  refine ⟨List.length_pos_iff.2 fun hnil => ?_, hi⟩
  rw [isDone, hnil] at hd
  cases hd

/-- **All that a step can come to.** -/
inductive StepsTo (m : Machine) : Option Stop → Machine → Prop
  | ended (hd : m.isDone = true) : StepsTo m (some (.fault (.internal .alreadyFinished))) m.settle
  | limited (hd : m.isDone = false) (hl : m.limits.maxInstructions ≤ m.executed) :
    StepsTo m (some (.fault .instructionLimit)) m.settle
  | pastEnd (hd : m.isDone = false) (hl : m.executed < m.limits.maxInstructions) (hi : m.instruction? m.pc = none) :
    StepsTo m (some (.fault (.badInstruction (.pastEnd m.pc)))) m.counted.settle
  | executed {i : Instruction} {flow : Flow} {m₁ : Machine} (hi : m.current? = some i)
    (hl : m.executed < m.limits.maxInstructions) (ho : Exec.op i.op m.counted = .ok flow m₁) :
    StepsTo m none (m₁.flowTo flow).settle
  | failed {i : Instruction} {s : Stop} {m₁ : Machine} (hi : m.current? = some i)
    (hl : m.executed < m.limits.maxInstructions) (ho : Exec.op i.op m.counted = .error s m₁) :
    StepsTo m (some s) m₁.settle

theorem stepsTo_step (m : Machine) : m.StepsTo m.step.1 m.step.2 := by
  rw [step_eq]
  by_cases hd : m.isDone = true
  · rw [if_pos hd]
    exact .ended hd
  have hd' : m.isDone = false := Bool.eq_false_iff.2 hd
  rw [if_neg hd]
  by_cases hl : m.limits.maxInstructions ≤ m.executed
  · rw [if_pos hl]
    exact .limited hd' hl
  have hl' : m.executed < m.limits.maxInstructions := Nat.not_le.1 hl
  rw [if_neg hl]
  cases hi : m.instruction? m.pc with
  | none => exact .pastEnd hd' hl' hi
  | some i =>
    have hcur : m.current? = some i := current?_eq_some_iff.2 ⟨hd', hi⟩
    dsimp only
    cases ho : Exec.op i.op m.counted with
    | ok flow m₁ => exact .executed hcur hl' ho
    | error s m₁ => exact .failed hcur hl' ho

theorem StepsTo.of_step {m m' : Machine} {o : Option Stop} (h : m.step = (o, m')) : m.StepsTo o m' := by
  have hstep := m.stepsTo_step
  rwa [h] at hstep

theorem StepsTo.of_stop {m : Machine} {s : Stop} (h : m.step.1 = some s) : ∃ m', m.StepsTo (some s) m' :=
  ⟨m.step.2, .of_step (Prod.ext h rfl)⟩

theorem step_ok {m m' : Machine} (h : m.step = (none, m')) : ∃ i flow m₁, m.current? = some i ∧
    m.executed < m.limits.maxInstructions ∧ Exec.op i.op m.counted = .ok flow m₁ ∧ m' = (m₁.flowTo flow).settle := by
  cases StepsTo.of_step h with
  | executed hi hl ho => exact ⟨_, _, _, hi, hl, ho, rfl⟩

theorem stop_of_step {m : Machine} {i : Instruction} {s : Stop} (hi : m.current? = some i) (hs : m.step.1 = some s) :
    s = .fault .instructionLimit ∨ ∃ m', Exec.op i.op m.counted = .error s m' := by
  obtain ⟨m', hsteps⟩ := StepsTo.of_stop hs
  cases hsteps with
  | ended hd => rw [(current?_eq_some_iff.1 hi).1] at hd; cases hd
  | limited => exact .inl rfl
  | pastEnd _ _ hnone => rw [(current?_eq_some_iff.1 hi).2] at hnone; cases hnone
  | failed hi' _ ho =>
    cases hi.symm.trans hi'
    exact .inr ⟨_, ho⟩

/-- **A step that succeeds executed an instruction**, and its effect is one of those listed. -/
theorem step_none {m m' : Machine} (h : m.step = (none, m')) : ∃ i flow m₁, m.isDone = false ∧
    m.executed < m.limits.maxInstructions ∧ m.instruction? m.pc = some i ∧ Exec.Effect m.counted i.op flow m₁ ∧
    m' = (m₁.flowTo flow).settle := by
  obtain ⟨i, flow, m₁, hcur, hl, ho, rfl⟩ := step_ok h
  obtain ⟨hd, hi⟩ := current?_eq_some_iff.1 hcur
  exact ⟨i, flow, m₁, hd, hl, hi, Exec.op_effect i.op ho, rfl⟩

/-- **A step that fails leaves the frames alone**, and no table of a well formed image is why. -/
theorem step_some {m m' : Machine} {s : Stop} (h : m.step = (some s, m')) : ∃ n ≤ 1,
    { m with executed := m.executed + n }.Steady m' ∧
    (m.image.WellFormed → m.Named → s.missesTable = false) := by
  cases StepsTo.of_step h with
  | ended | limited => exact ⟨0, Nat.zero_le 1, m.steady_settle, fun _ _ => rfl⟩
  | pastEnd => exact ⟨1, Nat.le_refl 1, m.counted.steady_settle, fun _ _ => rfl⟩
  | @failed i s m₁ hcur hl ho =>
    obtain ⟨-, hi⟩ := current?_eq_some_iff.1 hcur
    obtain ⟨hst, hs⟩ := Exec.op_error i.op ho
    refine ⟨1, Nat.le_refl 1, hst.trans m₁.steady_settle, fun hw hn => hs ⟨hw, _, hw.code m.pc i hi⟩ ?_⟩
    exact ⟨hn.global, hn.frames⟩

@[simp] theorem flowTo_image (m : Machine) (flow : Flow) : (m.flowTo flow).image = m.image := by cases flow <;> rfl

@[simp] theorem flowTo_limits (m : Machine) (flow : Flow) : (m.flowTo flow).limits = m.limits := by cases flow <;> rfl

@[simp] theorem flowTo_executed (m : Machine) (flow : Flow) : (m.flowTo flow).executed = m.executed := by
  cases flow <;> rfl

theorem flowTo_world (m : Machine) (flow : Flow) : (m.flowTo flow).world = m.world := by cases flow <;> rfl

end Machine

theorem Exec.Effect.suspended {m m' : Machine} {op : Op} {flow : Flow} (h : Exec.Effect m op flow m') :
    m'.suspended = m.suspended := by
  cases h with
  | stay hst => exact hst.suspended
  | jump _ _ hst => exact hst.suspended
  | enter | leave | finish | halt => exact (Machine.steady_letGo _ _).suspended

theorem Exec.Effect.fixed {m m' : Machine} {op : Op} {flow : Flow} (h : Exec.Effect m op flow m') :
    m'.image = m.image ∧ m'.limits = m.limits ∧ m'.executed = m.executed := by
  cases h with
  | stay hst => exact ⟨hst.image, hst.limits, hst.executed⟩
  | jump _ _ hst => exact ⟨hst.image, hst.limits, hst.executed⟩
  | enter | leave | finish | halt =>
    exact ⟨Machine.letGo_image _ _, Machine.letGo_limits _ _, Machine.letGo_executed _ _⟩

namespace Machine

theorem step_image (m : Machine) : m.step.2.image = m.image := by
  cases hs : m.step with
  | mk stop m' =>
    cases stop with
    | none =>
      obtain ⟨i, flow, m₁, -, -, -, he, rfl⟩ := step_none hs
      rw [settle_image, flowTo_image]
      exact he.fixed.1
    | some s =>
      obtain ⟨n, -, hst, -⟩ := step_some hs
      exact hst.image

theorem step_limits (m : Machine) : m.step.2.limits = m.limits := by
  cases hs : m.step with
  | mk stop m' =>
    cases stop with
    | none =>
      obtain ⟨i, flow, m₁, -, -, -, he, rfl⟩ := step_none hs
      rw [settle_limits, flowTo_limits]
      exact he.fixed.2.1
    | some s =>
      obtain ⟨n, -, hst, -⟩ := step_some hs
      exact hst.limits

theorem step_suspended (m : Machine) : m.step.2.suspended = m.suspended := by
  cases hs : m.step with
  | mk stop m' =>
    cases stop with
    | none =>
      obtain ⟨i, flow, m₁, -, -, -, he, rfl⟩ := step_none hs
      have hflow : (m₁.flowTo flow).suspended = m₁.suspended := by cases flow <;> rfl
      exact (steady_settle _).suspended.trans (hflow.trans he.suspended)
    | some s =>
      obtain ⟨n, -, hst, -⟩ := step_some hs
      exact hst.suspended

/-- The machine after a number of steps, whether they succeed or not. -/
def stepped (m : Machine) : Nat → Machine
  | 0 => m
  | n + 1 => (m.stepped n).step.2

end Machine

end PseudoVm
