import PseudoVm.Machine.Trace
import PseudoVm.Proofs.Machine.CallSites
import PseudoVm.Proofs.Machine.FailedStep
import PseudoVm.Proofs.Machine.TableSafety
import PseudoVm.Proofs.Value.Nesting
/-!
# Machine.TraceEntries: what a trace shows

A trace walks the stack from the top with one offset in hand: the latest frame is at the offset of the machine, every
other at the return offset of the frame above it.  Since every frame keeps the offset of the call that made it, the walk
finds an instruction for each frame, and all but the first are calls; so no frame is left out and only the latest can be
calling the library (`Machine.report_eq`).  Together with the history of the frames this says what each line of a trace
stands for (`Machine.report_shows_frames`).

A line shows the arguments of its frame, and an array that contains itself cannot be shown: with one among them there is
no trace at all (`Machine.exists_report_iff`).
-/
namespace PseudoVm

theorem map_of_mapM_ok {α β ε : Type} {f : α → Except ε β} : ∀ {l : List α} {bs : List β}, l.mapM f = .ok bs →
    l.map f = bs.map Except.ok
  | [], _, h => by
    cases h
    rfl
  | a :: l, bs, h => by
    rw [List.mapM_cons] at h
    cases hf : f a with
    | error e =>
      rw [hf] at h
      cases h
    | ok b =>
      rw [hf] at h
      cases hl : l.mapM f with
      | error e =>
        rw [hl] at h
        cases h
      | ok bs' =>
        rw [hl] at h
        cases h
        rw [List.map_cons, List.map_cons, hf, map_of_mapM_ok hl]

theorem mapM_map_except {α β γ ε : Type} (f : α → Except ε β) (g : β → γ) : ∀ l : List α,
    l.mapM (fun a => (f a).map g) = (l.mapM f).map (List.map g)
  | [] => rfl
  | a :: l => by
    rw [List.mapM_cons, List.mapM_cons, mapM_map_except f g l]
    cases f a with
    | error e => rfl
    | ok b => cases l.mapM f <;> rfl

theorem mapM_congr_except {α β ε : Type} {f g : α → Except ε β} : ∀ {l : List α}, (∀ a ∈ l, f a = g a) →
    l.mapM f = l.mapM g
  | [], _ => rfl
  | a :: l, h => by
    rw [List.mapM_cons, List.mapM_cons, h a List.mem_cons_self,
      mapM_congr_except fun b hb => h b (List.mem_cons_of_mem a hb)]

/-- The line for the library function that an instruction calls. -/
def Instruction.native (i : Instruction) (pc : Nat) : List TraceEntry :=
  match i.op with
  | .libCall index _ => [⟨libraryName index, i.pos, pc, true⟩]
  | _ => []

/-- The line for a frame itself, under a name. -/
def Activation.entry (a : Activation) (scope : String) : TraceEntry := ⟨scope, a.instruction.pos, a.pc, false⟩

/-- Lines of a trace as text. -/
def linesText (file : String) (entries : List TraceEntry) : String :=
  String.join (entries.map fun e => traceLine file e.pos.line e.scope)

theorem Instruction.native_of_call {i : Instruction} (h : i.op.nargs?.isSome) (pc : Nat) : i.native pc = [] := by
  unfold native
  split
  · rename_i hop
    rw [hop] at h
    cases h
  · rfl

theorem Instruction.isNative_of_mem {i : Instruction} {pc : Nat} {e : TraceEntry} (h : e ∈ i.native pc) :
    e.isNative = true := by
  unfold native at h
  split at h
  · cases List.mem_singleton.1 h
    rfl
  · cases h

theorem Instruction.native_ne_nil {i : Instruction} (pc : Nat) : i.native pc ≠ [] ↔ i.op.isLibCall = true := by
  unfold native
  cases i.op <;> simp [Op.isLibCall]

namespace Machine

variable {m₀ m : Machine}

/-- The lines for the frames themselves, the latest first. -/
def ownEntries (m : Machine) : Except Abort (List TraceEntry) :=
  m.activations.mapM fun a => (m.frameText a.frame).map a.entry

theorem entriesOf_eq (m : Machine) (a : Activation) :
    m.entriesOf a = (m.frameText a.frame).map fun scope => a.instruction.native a.pc ++ [a.entry scope] := by
  unfold entriesOf Instruction.native
  cases m.frameText a.frame with
  | error e => rfl
  | ok scope => cases a.instruction.op <;> rfl

/-! ## The walk over the stack -/

theorem activationsFrom_cons {pc : Nat} {i : Instruction} (hi : m.instruction? pc = some i) (f : Frame)
    (rest : List Frame) :
    m.activationsFrom pc (f :: rest) = ⟨f, rest.length + 1, i, pc⟩ :: m.activationsFrom f.returnPc rest := by
  rw [activationsFrom, hi]

theorem Framed.call {f g : Frame} {rest : List Frame} (h : Framed m.image ((f :: g :: rest).map Frame.outline)) :
    ∃ i, m.instruction? f.returnPc = some i ∧ i.op.nargs?.isSome := by
  obtain ⟨i, nargs, hi, hn, -⟩ := h.1.call
  exact ⟨i, hi, by rw [hn]; rfl⟩

/-- **Every frame below the latest is at a call.** -/
theorem call_of_mem_activationsFrom {a : Activation} : ∀ {f : Frame} {rest : List Frame},
    Framed m.image ((f :: rest).map Frame.outline) → a ∈ m.activationsFrom f.returnPc rest →
    a.instruction.op.nargs?.isSome
  | _, [], _, ha => by cases ha
  | f, g :: rest, h, ha => by
    obtain ⟨i, hi, hcall⟩ := Framed.call h
    rw [activationsFrom_cons hi] at ha
    rcases List.mem_cons.1 ha with rfl | ha
    · exact hcall
    · exact call_of_mem_activationsFrom h.tail ha

/-- The offsets of frames, given that of the latest: every other is at the call that made the frame above it. -/
def sites (pc : Nat) (fs : List Frame) : List Nat := (pc :: fs.map (·.returnPc)).take fs.length

/-- **The walk leaves no frame out.** -/
theorem activationsFrom_framed : ∀ {fs : List Frame} {pc : Nat}, Framed m.image (fs.map Frame.outline) →
    (m.instruction? pc).isSome → (m.activationsFrom pc fs).map (fun a => (a.frame, a.pc, some a.instruction)) =
      fs.zip ((sites pc fs).map fun pc => (pc, m.instruction? pc))
  | [], _, _, _ => rfl
  | [f], pc, _, hpc => by
    obtain ⟨i, hi⟩ := Option.isSome_iff_exists.1 hpc
    rw [activationsFrom_cons hi, List.map_cons, ← hi]
    rfl
  | f :: g :: rest, pc, h, hpc => by
    obtain ⟨i, hi⟩ := Option.isSome_iff_exists.1 hpc
    obtain ⟨j, hj, -⟩ := Framed.call h
    have hcaller : (m.instruction? f.returnPc).isSome := by
      rw [hj]
      rfl
    have hrest := activationsFrom_framed h.tail hcaller
    rw [activationsFrom_cons hi, List.map_cons, hrest, ← hi]
    rfl

/-! ## The lines -/

/-- **A report is the line for a library call, if the machine is at one, and a line for each frame.** -/
theorem report_eq (hs : m.Sound) {i : Instruction} (hi : m.current? = some i) (err : Fault) :
    m.report err = m.ownEntries.map fun own => ⟨err, m.pc, m.pos, i.native m.pc ++ own⟩ := by
  obtain ⟨hd, hi⟩ := instruction?_of_current? hi
  have hframed := hs.framed
  unfold report ownEntries activations
  cases hst : m.stack with
  | nil =>
    rw [depth, hst] at hd
    cases hd
  | cons f rest =>
    rw [hst] at hframed
    have hcallers : (m.activationsFrom f.returnPc rest).mapM m.entriesOf =
        ((m.activationsFrom f.returnPc rest).mapM fun a => (m.frameText a.frame).map a.entry).map
          (List.map fun e => [e]) := by
      rw [← mapM_map_except]
      refine mapM_congr_except fun a ha => ?_
      rw [entriesOf_eq, Instruction.native_of_call (call_of_mem_activationsFrom hframed ha)]
      cases m.frameText a.frame <;> rfl
    rw [activationsFrom_cons hi, List.mapM_cons, List.mapM_cons, hcallers, entriesOf_eq]
    cases m.frameText f with
    | error e => rfl
    | ok scope =>
      cases (m.activationsFrom f.returnPc rest).mapM fun a => (m.frameText a.frame).map a.entry with
      | error e => rfl
      | ok own =>
        have hflat : ((i.native m.pc ++ [Activation.entry ⟨f, rest.length + 1, i, m.pc⟩ scope]) ::
            own.map fun e => [e]).flatten =
            i.native m.pc ++ Activation.entry ⟨f, rest.length + 1, i, m.pc⟩ scope :: own := by
          rw [List.flatten_cons, ← List.flatMap_def, List.flatMap_singleton', List.append_assoc]
          rfl
        exact congrArg (fun es => Except.ok (FaultReport.mk err m.pc m.pos es)) hflat

theorem stackTrace_eq (m : Machine) (file : String) : m.stackTrace file = m.ownEntries.map (linesText file) := by
  have hline : (fun a : Activation => do
      return traceLine file a.instruction.pos.line (← m.frameText a.frame)) =
      fun a => ((m.frameText a.frame).map a.entry).map fun e => traceLine file e.pos.line e.scope := by
    funext a
    cases m.frameText a.frame <;> rfl
  unfold stackTrace ownEntries
  rw [hline, mapM_map_except]
  cases m.activations.mapM fun a => (m.frameText a.frame).map a.entry <;> rfl

theorem linesText_append (file : String) (es es' : List TraceEntry) :
    linesText file (es ++ es') = linesText file es ++ linesText file es' := by
  rw [linesText, List.map_append, String.join_append]
  rfl

theorem length_sites (pc : Nat) (fs : List Frame) : (sites pc fs).length = fs.length := by
  rw [sites, List.length_take, List.length_cons, List.length_map]
  omega

theorem getElem?_sites_succ {pc pc' n : Nat} {fs : List Frame} (h : (sites pc fs)[n + 1]? = some pc') :
    ∃ f, fs[n]? = some f ∧ f.returnPc = pc' := by
  rw [sites, List.getElem?_take] at h
  split at h
  · exact Option.map_eq_some_iff.1 (List.getElem?_map.symm.trans h)
  · cases h

theorem getElem?_sites_zero {pc pc' : Nat} {fs : List Frame} (h : (sites pc fs)[0]? = some pc') : pc' = pc := by
  rw [sites, List.getElem?_take] at h
  split at h
  · exact (Option.some.inj h).symm
  · cases h

theorem isDone_of_depth_pos (h : 0 < m.depth) : m.isDone = false := by
  obtain ⟨f, rest, hst⟩ := List.exists_cons_of_ne_nil (List.length_pos_iff.1 h)
  rw [isDone, hst]
  rfl

theorem exists_current? (hd : 0 < m.depth) (hpc : m.pc < m.image.code.size) : ∃ i, m.current? = some i := by
  rw [current?, isDone_of_depth_pos hd]
  exact ⟨_, Array.getElem?_eq_getElem hpc⟩

theorem length_activations (hs : m.Sound) (hi : (m.instruction? m.pc).isSome) : m.activations.length = m.depth := by
  have h := congrArg List.length (activationsFrom_framed hs.framed hi)
  simp only [List.length_map, List.length_zip, length_sites, Nat.min_self] at h
  exact h

theorem getElem?_activations (hs : m.Sound) (hi : (m.instruction? m.pc).isSome) {n : Nat} {f : Frame}
    (hf : m.stack[n]? = some f) : ∃ a, m.activations[n]? = some a ∧ a.frame = f ∧
      (sites m.pc m.stack)[n]? = some a.pc ∧ m.instruction? a.pc = some a.instruction := by
  have hlt : n < (sites m.pc m.stack).length := by
    rw [length_sites]
    exact (List.getElem?_eq_some_iff.1 hf).1
  obtain ⟨pc, hpc⟩ : ∃ pc, (sites m.pc m.stack)[n]? = some pc := ⟨_, List.getElem?_eq_getElem hlt⟩
  have hsite : ((sites m.pc m.stack).map fun pc => (pc, m.instruction? pc))[n]? = some (pc, m.instruction? pc) := by
    rw [List.getElem?_map, hpc]
    rfl
  have hwalk := congrArg (fun l => l[n]?) (activationsFrom_framed hs.framed hi)
  have hzip := List.getElem?_zip_eq_some (z := (f, pc, m.instruction? pc)).2 ⟨hf, hsite⟩
  obtain ⟨a, ha, hfields⟩ := Option.map_eq_some_iff.1 ((List.getElem?_map.symm.trans hwalk).trans hzip)
  obtain ⟨hframe, hpcs⟩ := Prod.mk.inj hfields
  obtain ⟨rfl, hinstr⟩ := Prod.mk.inj hpcs
  exact ⟨a, ha, hframe, hpc, hinstr.symm⟩

theorem length_ownEntries (hs : m.Sound) (hi : (m.instruction? m.pc).isSome) {own : List TraceEntry}
    (h : m.ownEntries = .ok own) : own.length = m.depth := by
  have hlen := congrArg List.length (map_of_mapM_ok h)
  rw [List.length_map, List.length_map, length_activations hs hi] at hlen
  exact hlen.symm

/-- **Each line is that of a frame**, in the order of the frames, and shows the instruction that the frame is at. -/
theorem getElem?_ownEntries (hs : m.Sound) (hi : (m.instruction? m.pc).isSome) {own : List TraceEntry}
    (h : m.ownEntries = .ok own) {n : Nat} {e : TraceEntry} (he : own[n]? = some e) :
    ∃ f i, m.stack[n]? = some f ∧ m.frameText f = .ok e.scope ∧ e.isNative = false ∧
      (sites m.pc m.stack)[n]? = some e.pc ∧ m.instruction? e.pc = some i ∧ e.pos = i.pos := by
  have hlt : n < m.stack.length := by
    have := (List.getElem?_eq_some_iff.1 he).1
    rwa [length_ownEntries hs hi h] at this
  obtain ⟨a, ha, hframe, hsite, hinstr⟩ := getElem?_activations hs hi (List.getElem?_eq_getElem hlt)
  have hown := congrArg (fun l => l[n]?) (map_of_mapM_ok h)
  simp only [List.getElem?_map, ha, he, Option.map_some, Option.some.injEq] at hown
  cases htext : m.frameText a.frame with
  | error err =>
    rw [htext] at hown
    cases hown
  | ok scope =>
    rw [htext] at hown
    cases hown
    exact ⟨a.frame, a.instruction, hframe ▸ List.getElem?_eq_getElem hlt, htext, rfl, hsite, hinstr, rfl⟩

/-- The offset that a frame other than the latest is at belongs to the call that made the frame above it. -/
theorem madeBy_of_site (hd₀ : m₀.depth ≤ 1) (h : m₀.Reachable m) {n pc : Nat} (hn : n + 1 < m.depth)
    (hsite : (sites m.pc m.stack)[n + 1]? = some pc) :
    ∃ caller i, MadeBy m₀ m (m.depth - 1 - n) caller i ∧ pc = caller.pc ∧ m.instruction? pc = some i := by
  obtain ⟨callee, hcallee, hret⟩ := getElem?_sites_succ hsite
  have hpos : 0 < m.depth - 1 - n := by omega
  obtain ⟨caller, i, hmade, hpc⟩ := h.madeBy hd₀ hpos (atCall?_of_getElem? hcallee)
  have heq : pc = caller.pc := hret.symm.trans hpc
  have himage : caller.image = m.image := hmade.reachable.fixed.1.trans h.fixed.1.symm
  have hi := (instruction?_of_current? hmade.current).2
  rw [instruction?, himage, ← heq] at hi
  exact ⟨caller, i, hmade, heq, hi⟩

/-- **A trace that shows the frames of a machine**: each one by its name and arguments, the latest first, at its own
instruction; before them the library function that the latest is calling, if it is. -/
structure Shows (m₀ m : Machine) (native own : List TraceEntry) : Prop where
  length : own.length = m.depth
  notNative : ∀ e ∈ own, e.isNative = false
  names : ∀ {n : Nat} {f : Frame} {e : TraceEntry}, m.stack[n]? = some f → own[n]? = some e →
    m.frameText f = .ok e.scope
  top : ∃ e i, own[0]? = some e ∧ m.instruction? m.pc = some i ∧ e.pc = m.pc ∧ e.pos = i.pos
  /-- Every other frame is at the call that made the frame above it. -/
  callers : ∀ {n : Nat} {e : TraceEntry}, own[n + 1]? = some e →
    ∃ caller i, MadeBy m₀ m (m.depth - 1 - n) caller i ∧ e.pc = caller.pc ∧ e.pos = i.pos
  native : ∃ i, m.instruction? m.pc = some i ∧ native = i.native m.pc

theorem shows_of_ownEntries (h₀ : m₀.Sound) (hd₀ : m₀.depth ≤ 1) (h : m₀.Reachable m) {i : Instruction}
    (hcur : m.current? = some i) {own : List TraceEntry} (hown : m.ownEntries = .ok own) :
    Shows m₀ m (i.native m.pc) own := by
  have hs := h.sound h₀
  obtain ⟨hpos, hi⟩ := instruction?_of_current? hcur
  have hisSome : (m.instruction? m.pc).isSome := by
    rw [hi]
    rfl
  have hlen := length_ownEntries hs hisSome hown
  refine ⟨hlen, fun e he => ?_, fun {n f e} hf he => ?_, ?_, fun {n e} he => ?_, i, hi, rfl⟩
  · obtain ⟨n, hn⟩ := List.getElem?_of_mem he
    obtain ⟨_, _, -, -, hnative, -⟩ := getElem?_ownEntries hs hisSome hown hn
    exact hnative
  · obtain ⟨f', _, hf', htext, -⟩ := getElem?_ownEntries hs hisSome hown he
    cases hf.symm.trans hf'
    exact htext
  · have he : own[0]? = some _ := List.getElem?_eq_getElem (hlen ▸ hpos)
    obtain ⟨f, j, -, -, -, hsite, hj, hpose⟩ := getElem?_ownEntries hs hisSome hown he
    have hpc := getElem?_sites_zero hsite
    rw [hpc, hi] at hj
    cases hj
    exact ⟨_, i, he, hi, hpc, hpose⟩
  · obtain ⟨f, j, hf, -, -, hsite, hj, hpose⟩ := getElem?_ownEntries hs hisSome hown he
    obtain ⟨caller, k, hmade, hpc, hk⟩ := madeBy_of_site hd₀ h (List.getElem?_eq_some_iff.1 hf).1 hsite
    cases hk.symm.trans hj
    exact ⟨caller, _, hmade, hpc, hpose⟩

/-! ## When there is a trace -/

/-- No argument that the line of a frame shows leads to an array that contains itself. -/
def ArgsUnfold (m : Machine) (f : Frame) : Prop :=
  ∀ scope, m.image.scopes[f.scope]? = some scope → scope.isGlobal = false → ∀ v ∈ f.args, m.world.heap.Unfolds v

/-- Every live frame can be shown. -/
def Showable (m : Machine) : Prop := ∀ f ∈ m.stack, m.ArgsUnfold f

theorem showable_of_grounded (hg : m.world.heap.Grounded) : m.Showable := fun _ _ _ _ _ v _ => hg.unfolds v

theorem Steady.showable {m' : Machine} (h : m.Steady m') (hh : m'.world.heap = m.world.heap) (hu : m.Showable) :
    m'.Showable := by
  intro f' hf' scope hs hg v hv
  have hmem : f'.outline ∈ m.stack.map Frame.outline := h.outlines ▸ List.mem_map_of_mem hf'
  obtain ⟨f, hf, hout⟩ := List.mem_map.1 hmem
  rw [h.image, ← show f.scope = f'.scope from congrArg Outline.scope hout] at hs
  rw [← show f.args = f'.args from congrArg Outline.args hout] at hv
  rw [hh]
  exact hu f hf scope hs hg v hv

theorem exists_frameText_iff (hn : m.Named) {f : Frame} (hf : f ∈ m.stack) :
    (∃ text, m.frameText f = .ok text) ↔ m.ArgsUnfold f := by
  obtain ⟨scope, hs⟩ := Option.isSome_iff_exists.1 (hn.frames f hf)
  have hargs : m.ArgsUnfold f ↔ (scope.isGlobal = false → (f.args.mapM m.world.heap.inspect?).isSome) := by
    simp only [ArgsUnfold, hs, Option.some.injEq, forall_eq', Heap.isSome_mapM_iff, Heap.inspect?_isSome_iff]
  rw [hargs, frameText, hs]
  dsimp only
  cases scope.isGlobal with
  | true => exact iff_of_true ⟨_, rfl⟩ nofun
  | false => cases f.args.mapM m.world.heap.inspect? <;> simp

theorem exists_ownEntries_iff (hs : m.Sound) (hi : (m.instruction? m.pc).isSome) :
    (∃ own, m.ownEntries = .ok own) ↔ m.Showable := by
  constructor
  · rintro ⟨own, hown⟩ f hf
    obtain ⟨n, hn⟩ := List.getElem?_of_mem hf
    have hlt : n < own.length := length_ownEntries hs hi hown ▸ (List.getElem?_eq_some_iff.1 hn).1
    obtain ⟨f', _, hf', htext, -⟩ := getElem?_ownEntries hs hi hown (List.getElem?_eq_getElem hlt)
    cases hn.symm.trans hf'
    exact (exists_frameText_iff hs.named hf).1 ⟨_, htext⟩
  · intro h
    cases hown : m.ownEntries with
    | ok own => exact ⟨own, rfl⟩
    | error a =>
      obtain ⟨act, hact, herr⟩ := exists_of_mapM_error hown
      have hmem := frame_mem_of_mem_activationsFrom hact
      obtain ⟨text, htext⟩ := (exists_frameText_iff hs.named hmem).2 (h act.frame hmem)
      rw [htext] at herr
      cases herr

/-- **There is a report just if every live frame can be shown.** -/
theorem exists_report_iff (hs : m.Sound) {i : Instruction} (hi : m.current? = some i) (err : Fault) :
    (∃ p, m.report err = .ok p) ↔ m.Showable := by
  rw [← exists_ownEntries_iff hs (Option.isSome_iff_exists.2 ⟨i, (instruction?_of_current? hi).2⟩), report_eq hs hi]
  cases m.ownEntries with
  | ok own => exact iff_of_true ⟨_, rfl⟩ ⟨own, rfl⟩
  | error a => exact iff_of_false nofun nofun

/-- **A trace names every frame at its own instruction.**  Whatever a valid program and its debugger have done, and
wherever inside the code the program stands, if no argument of a live frame leads to an array that contains itself: a
report and the text of the stack show one line for each frame, the latest first, that one at the instruction at hand and
every other at the call that made the frame above it; the report has besides, and in front, a line for the library
function that is being called, if one is. -/
theorem report_shows_frames {image : Image} {limits : Limits} {world : World} {m₀ m : Machine}
    (hv : image.isValid = true) (h₀ : create? image limits world = some m₀) (h : m₀.Reachable m) (hd : 0 < m.depth)
    (hpc : m.pc < image.code.size) (hu : m.Showable) (err : Fault) :
    ∃ native own, Shows m₀ m native own ∧ m.report err = .ok ⟨err, m.pc, m.pos, native ++ own⟩ ∧
      ((∃ e ∈ native ++ own, e.isNative = true) ↔ ∃ i, m.current? = some i ∧ i.op.isLibCall = true) ∧
      native.length ≤ 1 ∧ ∀ file, m.stackTrace file = .ok (linesText file own) ∧
        (FaultReport.mk err m.pc m.pos (native ++ own)).trace file = linesText file native ++ linesText file own := by
  have hs₀ := sound_create? hv h₀
  have hs := h.sound hs₀
  have hd₀ : m₀.depth ≤ 1 := by
    obtain ⟨f, -, rfl⟩ := Option.map_eq_some_iff.1 h₀
    exact Nat.le_refl 1
  have himage : m.image = image := h.fixed.1.trans (create?_fixed h₀).1
  obtain ⟨i, hi⟩ := exists_current? hd (himage ▸ hpc)
  obtain ⟨own, hown⟩ :=
    (exists_ownEntries_iff hs (Option.isSome_iff_exists.2 ⟨i, (instruction?_of_current? hi).2⟩)).2 hu
  have hshows := shows_of_ownEntries hs₀ hd₀ h hi hown
  refine ⟨i.native m.pc, own, hshows, by rw [report_eq hs hi, hown]; rfl, ⟨?_, ?_⟩, ?_, fun file => ⟨?_, ?_⟩⟩
  · rintro ⟨e, he, hnative⟩
    refine ⟨i, hi, (Instruction.native_ne_nil m.pc).1 fun hnil => ?_⟩
    rw [hnil] at he
    rw [hshows.notNative e he] at hnative
    cases hnative
  · rintro ⟨j, hj, hlib⟩
    cases hi.symm.trans hj
    obtain ⟨e, rest, hcons⟩ := List.exists_cons_of_ne_nil ((Instruction.native_ne_nil m.pc).2 hlib)
    have hmem : e ∈ i.native m.pc := hcons ▸ List.mem_cons_self
    exact ⟨e, List.mem_append_left own hmem, Instruction.isNative_of_mem hmem⟩
  · unfold Instruction.native
    split <;> simp
  · rw [stackTrace_eq, hown]
    rfl
  · exact linesText_append file _ own

/-- A program that has a function draw a random number from an empty range. -/
def failingDraw : Image where
  code := #[⟨⟨7, 1⟩, .litInt 9⟩, ⟨⟨7, 5⟩, .call 0 1 1⟩, ⟨⟨8, 1⟩, .halt 1⟩, ⟨⟨2, 1⟩, .begin 1⟩,
    ⟨⟨3, 1⟩, .paramVal 0⟩, ⟨⟨3, 4⟩, .litInt 1⟩, ⟨⟨3, 9⟩, .libCall 6 2⟩, ⟨⟨4, 1⟩, .ret 1⟩]
  labels := #[⟨"draw", 3⟩]
  strings := #[]
  classes := #[]
  scopes := #[.global [], .callable "draw" ["low"] []]
  globalScope := 0

/-- That program about to start, with nothing to read. -/
def failingDrawStart : Machine :=
  ⟨failingDraw, {}, 0, [.fresh 0 0 0 [] 0], 0, none, [], [],
    { console := ⟨.script [], [], ""⟩, random := .ofSeed 0 }⟩

/-- Its drawing is shown on top of the function that draws, and that on top of the program, which is at the call. -/
theorem report_shows_frames_failingDraw : (failingDrawStart.stepped 5).step.1.isSome ∧
    (failingDrawStart.stepped 5).Showable ∧
    ∃ native own, Shows failingDrawStart (failingDrawStart.stepped 5) native own ∧
      native = [⟨"random", ⟨3, 9⟩, 6, true⟩] ∧
      own = [⟨"draw(9)", ⟨3, 9⟩, 6, false⟩, ⟨"global", ⟨7, 5⟩, 1, false⟩] ∧
      (failingDrawStart.stepped 5).stackTrace "p" = .ok "p:3: in draw(9)\np:7: in global\n" := by
  have hv : failingDraw.isValid = true := by decide
  have h₀ : create? failingDraw {} failingDrawStart.world = some failingDrawStart := rfl
  have hu : (failingDrawStart.stepped 5).Showable := showable_of_grounded (Heap.grounded_of_arrays rfl)
  have hreport : (failingDrawStart.stepped 5).report .divideByZero = .ok ⟨.divideByZero, 6, ⟨3, 9⟩,
      [⟨"random", ⟨3, 9⟩, 6, true⟩, ⟨"draw(9)", ⟨3, 9⟩, 6, false⟩, ⟨"global", ⟨7, 5⟩, 1, false⟩]⟩ := by
    rfl
  obtain ⟨native, own, hshows, hr, -, -, htrace⟩ :=
    report_shows_frames hv h₀ (reachable_stepped failingDrawStart 5) (by decide) (by decide) hu .divideByZero
  obtain ⟨i, hi, rfl⟩ := hshows.native
  cases hi
  rw [hreport] at hr
  cases hr
  exact ⟨by decide +kernel, hu, _, _, hshows, rfl, rfl, (htrace "p").1⟩

/-- A program that puts an array into itself and passes it to a function, which divides by zero. -/
def loopedCall : Image where
  code := #[⟨⟨1, 1⟩, .litBool true⟩, ⟨⟨1, 1⟩, .arrayNew 1⟩, ⟨⟨1, 1⟩, .globalRef 0⟩, ⟨⟨1, 1⟩, .store⟩,
    ⟨⟨2, 1⟩, .globalVal 0⟩, ⟨⟨2, 1⟩, .globalVal 0⟩, ⟨⟨2, 1⟩, .litInt 0⟩, ⟨⟨2, 1⟩, .offsetRef .array⟩, ⟨⟨2, 1⟩, .store⟩,
    ⟨⟨3, 1⟩, .globalVal 0⟩, ⟨⟨3, 1⟩, .call 0 1 1⟩, ⟨⟨3, 9⟩, .finish⟩,
    ⟨⟨5, 1⟩, .begin 1⟩, ⟨⟨6, 1⟩, .litInt 1⟩, ⟨⟨6, 1⟩, .litInt 0⟩, ⟨⟨6, 1⟩, .binInt .div⟩, ⟨⟨7, 1⟩, .finish⟩]
  labels := #[⟨"f", 12⟩]
  strings := #[]
  classes := #[]
  scopes := #[.global ["a"], .callable "f" ["a"] []]
  globalScope := 0

/-- That program about to start. -/
def loopedCallStart : Machine :=
  ⟨loopedCall, {}, 0, [.fresh 0 0 0 [] 1], 0, none, [], [], failingDrawStart.world⟩

/-- It stands at the division, inside the code and with both its frames, and there is neither a report nor a text of the
stack: showing the argument of the function never ends. -/
theorem report_never_ends : loopedCall.isValid = true ∧
    create? loopedCall {} failingDrawStart.world = some loopedCallStart ∧
    let m := loopedCallStart.stepped 14
    loopedCallStart.Reachable m ∧ m.depth = 2 ∧ m.pc = 15 ∧ m.step.1 = some (.fault .divideByZero) ∧
      m.report .divideByZero = .error .deadlock ∧ ∀ file, m.stackTrace file = .error .deadlock :=
  ⟨by decide, rfl, reachable_stepped loopedCallStart 14, rfl, rfl, rfl, rfl,
    fun file => (stackTrace_eq _ file).trans rfl⟩

end Machine

end PseudoVm
