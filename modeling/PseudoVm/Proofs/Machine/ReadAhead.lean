import PseudoVm.Proofs.Machine.Replay
import PseudoVm.Proofs.Text.LineEndings
/-!
# Machine.ReadAhead: a program cannot tell how its lines are kept

`World.readAhead` is a world whose lines have all been read off its source beforehand.  Reading ahead commutes with
everything that a program does, however it ends: with reading a line (`Console.readLine_readAhead`), with the library's
functions on the console and on files (`Library.overlooks_call`), with a step (`Machine.step_readAhead`), and so with a
whole execution (`Cli.execute_readAhead`).
-/
namespace PseudoVm

/-! ## The console -/

namespace Console

/-- The console when all lines to come have been read off their source. -/
def readAhead (c : Console) : Console := { c with source := .script c.source.handsOut }

theorem write_readAhead (c : Console) (text : String) : c.readAhead.write text = (c.write text).readAhead := rfl

theorem readLine_readAhead (c : Console) : c.readAhead.readLine = (c.readLine.1, c.readLine.2.readAhead) := by
  have hscript : c.readAhead.source = .script c.source.handsOut := rfl
  unfold readLine
  rw [hscript]
  cases hnext : c.source.next? with
  | none =>
    rw [Source.handsOut_of_none hnext]
    rfl
  | some found =>
    obtain ⟨line, rest⟩ := found
    rw [Source.handsOut_of_some hnext]
    rfl

end Console

namespace Library.Dialogue

variable {α : Type} {d : Dialogue α}

theorem Asks.readAhead {c : Console} {r : Except Fault α × Console} (h : d.Asks c r) :
    d.Asks c.readAhead (r.1, r.2.readAhead) := by
  have hread : ∀ {c c' : Console} {line : Except Fault String}, (c.write d.prompt).readLine = (line, c') →
      (c.readAhead.write d.prompt).readLine = (line, c'.readAhead) := fun hr => by
    rw [Console.write_readAhead, Console.readLine_readAhead, hr]
  induction h with
  | «over» hr => exact .over (hread hr)
  | understood hr hv => exact .understood (hread hr) hv
  | again hr hv _ ih => exact .again (hread hr) hv ih

theorem ask_readAhead (d : Dialogue α) (c : Console) : d.ask c.readAhead = ((d.ask c).1, (d.ask c).2.readAhead) :=
  (asks_ask d c.readAhead).unique (asks_ask d c).readAhead

end Library.Dialogue

/-! ## The world -/

namespace World

/-- The world when all lines to come have been read off their source. -/
def readAhead (w : World) : World := { w with console := w.console.readAhead }

theorem setFile_readAhead (w : World) (id : FileId) (state : FileState) :
    w.readAhead.setFile id state = (w.setFile id state).readAhead := rfl

theorem writeOut_readAhead (w : World) (id : FileId) : w.readAhead.writeOut id = (w.writeOut id).readAhead := by
  have hfile : w.readAhead.file? id = w.file? id := rfl
  unfold writeOut
  rw [hfile]
  split
  · split <;> rfl
  · rfl

theorem release_readAhead (w : World) (id : FileId) : w.readAhead.release id = (w.release id).readAhead := by
  unfold release
  rw [writeOut_readAhead]
  rfl

theorem foldl_release_readAhead (ids : List FileId) (w : World) :
    ids.foldl release w.readAhead = (ids.foldl release w).readAhead := by
  induction ids generalizing w with
  | nil => rfl
  | cons id ids ih => rw [List.foldl_cons, List.foldl_cons, release_readAhead, ih]

theorem letGo_readAhead (w : World) (held loose : List Value) :
    w.readAhead.letGo held loose = (w.letGo held loose).readAhead := by
  have hfreed : ∀ doubtful, w.readAhead.freedFiles held doubtful = w.freedFiles held doubtful := fun _ => rfl
  unfold letGo
  dsimp only
  split
  · rfl
  · rw [hfreed, foldl_release_readAhead]

end World

/-! ## Library calls -/

namespace Library

variable {α : Type}

/-- An end of a call, in a world that is read ahead. -/
def ahead : EStateM.Result Stop World α → EStateM.Result Stop World α
  | .ok a w => .ok a w.readAhead
  | .error s w => .error s w.readAhead

/-- **It goes the same way in a world that is read ahead.** -/
def Overlooks (a : Act α) : Prop := ∀ w, a w.readAhead = ahead (a w)

theorem overlooks_computed (r : Except Fault Value) : Overlooks (computed r) := by
  intro w
  cases r <;> rfl

theorem overlooks_display (args : List Value) : Overlooks (display args) := by
  intro w
  have hheap : w.readAhead.heap = w.heap := rfl
  unfold display
  rw [hheap]
  cases displayAll w.heap args <;> rfl

theorem overlooks_ask (function : String) (d : Dialogue α) (value : α → Value) (args : List Value) :
    Overlooks (ask function d value args) := by
  intro w
  have hconsole : w.readAhead.console = w.console.readAhead := rfl
  unfold ask
  cases noArguments function args with
  | error e => rfl
  | ok _ =>
    dsimp only
    rw [hconsole, Dialogue.ask_readAhead]
    cases d.ask w.console with
    | mk r console => cases r <;> rfl

/-- An answer with the world it leaves, which is read ahead. -/
def aheadAnswer {β : Type} (r : Except Fault (β × World)) : Except Fault (β × World) :=
  r.map fun answer => (answer.1, answer.2.readAhead)

theorem overlooks_update {f : World → Except Fault (Value × World)} (hf : ∀ w, f w.readAhead = aheadAnswer (f w)) :
    Overlooks (update f) := by
  intro w
  unfold update
  rw [hf]
  cases f w <;> rfl

theorem overlooks_effect {f : World → Except Fault World} (hf : ∀ w, f w.readAhead = (f w).map World.readAhead) :
    Overlooks (effect f) := by
  intro w
  unfold effect
  rw [hf]
  cases f w <;> rfl

theorem overlooks_attempt {f : World → Except Fault Value × World}
    (hf : ∀ w, f w.readAhead = ((f w).1, (f w).2.readAhead)) : Overlooks (attempt f) := by
  intro w
  unfold attempt
  rw [hf]
  cases f w with
  | mk r w' => cases r <;> rfl

theorem overlooks_random (args : List Value) : Overlooks (random args) := by
  rw [random_eq]
  refine overlooks_update fun w => ?_
  have hrandom : w.readAhead.random = w.random := rfl
  rw [hrandom]
  cases draw args w.random <;> rfl

theorem openOutput_readAhead (function : String) (appends : Bool) (args : List Value) (w : World) :
    openOutput function appends args w.readAhead = aheadAnswer (openOutput function appends args w) := by
  have hdisk : w.readAhead.disk = w.disk := rfl
  unfold openOutput
  cases one function args with
  | error e => rfl
  | ok v =>
    cases htext : textOf v with
    | error e => simp only [bind, Except.bind, htext]; rfl
    | ok name =>
      simp only [bind, Except.bind, htext, hdisk]
      cases w.disk.openOutput (shownPath name) <;> rfl

theorem openInput_readAhead (args : List Value) (w : World) :
    openInput args w.readAhead = aheadAnswer (openInput args w) := by
  have hdisk : w.readAhead.disk = w.disk := rfl
  unfold openInput
  cases one "OpenInputFile" args with
  | error e => rfl
  | ok v =>
    cases htext : textOf v with
    | error e => simp only [bind, Except.bind, htext]; rfl
    | ok name =>
      simp only [bind, Except.bind, htext, hdisk]
      cases w.disk.openInput (shownPath name) <;> rfl

theorem stateOf_readAhead (v : Value) (w : World) : stateOf v w.readAhead = stateOf v w := rfl

theorem close_readAhead (args : List Value) (w : World) :
    close args w.readAhead = (close args w).map World.readAhead := by
  unfold close
  cases one "CloseFile" args with
  | error e => rfl
  | ok v =>
    simp only [bind, Except.bind, stateOf_readAhead]
    cases stateOf v w with
    | error e => rfl
    | ok found =>
      obtain ⟨id, name, path, state⟩ := found
      cases state <;> simp only [World.writeOut_readAhead, World.setFile_readAhead] <;> rfl

theorem writeFile_readAhead (args : List Value) (w : World) :
    writeFile args w.readAhead = (writeFile args w).map World.readAhead := by
  cases args with
  | nil => rfl
  | cons file values =>
    simp only [writeFile, bind, Except.bind, stateOf_readAhead]
    cases fileTexts values with
    | error e => rfl
    | ok bytes =>
      cases stateOf file w with
      | error e => rfl
      | ok found =>
        obtain ⟨id, name, path, state⟩ := found
        cases state <;> rfl

theorem nextLine_readAhead (function : String) (v : Value) (w : World) :
    nextLine function v w.readAhead = ((nextLine function v w).1, (nextLine function v w).2.readAhead) := by
  have hdisk : w.readAhead.disk = w.disk := rfl
  unfold nextLine
  rw [stateOf_readAhead, hdisk]
  split
  · rfl
  · dsimp only
    rw [World.setFile_readAhead]
    split
    · rfl
    · split <;> rfl

theorem readValue_readAhead (function : String) (understand : String → Option Value) (args : List Value) (w : World) :
    readValue function understand args w.readAhead =
      ((readValue function understand args w).1, (readValue function understand args w).2.readAhead) := by
  unfold readValue
  cases one function args with
  | error e => rfl
  | ok file =>
    dsimp only
    rw [nextLine_readAhead]
    cases nextLine function file w with
    | mk r w' =>
      cases r with
      | error e => rfl
      | ok line =>
        dsimp only
        cases understand line <;> rfl

theorem eof_readAhead (args : List Value) (w : World) : eof args w.readAhead = aheadAnswer (eof args w) := by
  have hdisk : w.readAhead.disk = w.disk := rfl
  unfold eof
  cases one "eof" args with
  | error e => rfl
  | ok v =>
    simp only [bind, Except.bind, stateOf_readAhead, hdisk]
    cases stateOf v w with
    | error e => rfl
    | ok found =>
      obtain ⟨id, f⟩ := found
      dsimp only
      cases inputState "eof" f with
      | error e => rfl
      | ok reading =>
        obtain ⟨offset, ahead⟩ := reading
        dsimp only
        cases fill w.disk f.path offset ahead <;> rfl

/-- **Every function overlooks that lines were read ahead.** -/
theorem overlooks_call (f : LibraryFunction) (args : List Value) : Overlooks (call f args) := by
  cases f <;> first | exact overlooks_computed _ | skip
  case display => exact overlooks_display args
  case inputInteger | inputReal | inputString | inputCharacter | inputBoolean => exact overlooks_ask _ _ _ args
  case random => exact overlooks_random args
  case openOutputFile | openAppendFile => exact overlooks_update (openOutput_readAhead _ _ args)
  case openInputFile => exact overlooks_update (openInput_readAhead args)
  case closeOutputFile | closeInputFile => exact overlooks_effect (close_readAhead args)
  case writeFile => exact overlooks_effect (writeFile_readAhead args)
  case readInteger | readReal | readString | readCharacter | readBoolean =>
    exact overlooks_attempt (readValue_readAhead _ _ args)
  case eof => exact overlooks_update (eof_readAhead args)

end Library

/-! ## Instructions -/

namespace Machine

/-- The machine in a world that is read ahead. -/
def readAhead (m : Machine) : Machine := { m with world := m.world.readAhead }

theorem letGo_readAhead (m : Machine) (vs : List Value) : m.readAhead.letGo vs = (m.letGo vs).readAhead := by
  unfold letGo
  split <;> rfl

theorem settle_readAhead (m : Machine) : m.readAhead.settle = m.settle.readAhead := by
  have howes : m.readAhead.world.owesText = m.world.owesText := rfl
  have hletGo : m.readAhead.world.letGo m.readAhead.values m.readAhead.loose =
      (m.world.letGo m.values m.loose).readAhead := m.world.letGo_readAhead m.values m.loose
  unfold settle
  rw [howes, hletGo]
  by_cases hloose : m.loose.isEmpty = true
  · rw [if_pos hloose]
    exact if_pos hloose
  · rw [if_neg hloose]
    refine (if_neg hloose).trans ?_
    split <;> rfl

theorem flowTo_readAhead (m : Machine) (flow : Flow) : m.readAhead.flowTo flow = (m.flowTo flow).readAhead := by
  cases flow <;> rfl

end Machine

namespace Exec

variable {α β : Type}

/-- An end of an instruction under way, in a world that is read ahead. -/
def ahead : EStateM.Result Stop Machine α → EStateM.Result Stop Machine α
  | .ok a m => .ok a m.readAhead
  | .error s m => .error s m.readAhead

/-- **It goes the same way in a world that is read ahead.** -/
def Overlooks (x : Exec α) : Prop := ∀ m, x m.readAhead = ahead (x m)

theorem Indoors.overlooks {x : Exec α} (hx : Indoors x) : Overlooks x := by
  intro m
  -- moved to its own world it changes the heap alone, so moved to that read ahead it ends in its own end read ahead
  have hown := hx m m.world
  have hahead := hx m m.world.readAhead
  rw [Machine.movedTo_self] at hown
  refine hahead.trans ?_
  cases h : x m with
  | ok a m₁ =>
    rw [h] at hown
    injection hown with _ hm
    have hmoved : m₁.movedTo m.world.readAhead = (m₁.movedTo m.world).readAhead := rfl
    show EStateM.Result.ok a (m₁.movedTo m.world.readAhead) = .ok a m₁.readAhead
    rw [hmoved, ← hm]
  | error s m₁ =>
    rw [h] at hown
    injection hown with _ hm
    have hmoved : m₁.movedTo m.world.readAhead = (m₁.movedTo m.world).readAhead := rfl
    show EStateM.Result.error s (m₁.movedTo m.world.readAhead) = .error s m₁.readAhead
    rw [hmoved, ← hm]

namespace Overlooks

theorem pure (a : α) : Overlooks (pure a : Exec α) := fun _ => rfl

theorem bind {x : Exec α} {k : α → Exec β} (hx : Overlooks x) (hk : ∀ a, Overlooks (k a)) : Overlooks (x >>= k) := by
  intro m
  simp only [Bind.bind, EStateM.bind, hx m]
  cases x m with
  | ok a m₁ => exact hk a m₁
  | error s m₁ => rfl

theorem holding {vs : List Value} {x : Exec α} (hx : Overlooks x) : Overlooks (holding vs x) := by
  intro m
  unfold Exec.holding
  rw [hx m]
  cases x m <;> simp only [ahead, Machine.letGo_readAhead]

end Overlooks

theorem overlooks_act {a : Library.Act α} (ha : Library.Overlooks a) : Overlooks (act a) := by
  intro m
  have hworld : a m.readAhead.world = Library.ahead (a m.world) := ha m.world
  rw [act_eq, act_eq, hworld]
  cases a m.world <;> rfl

theorem overlooks_callLibrary (index nargs : Nat) : Overlooks (callLibrary index nargs) := by
  refine (indoors_popMany nargs).overlooks.bind fun args => .holding ?_
  split
  · exact (Indoors.fault _).overlooks
  · next f _ =>
    refine (overlooks_act (Library.overlooks_call f args)).bind fun answer => ?_
    cases answer with
    | none => exact .pure _
    | some v => exact (indoors_push v).overlooks.bind fun _ => .pure _

/-- **Every instruction overlooks that lines were read ahead.** -/
theorem overlooks_op (o : Op) : Overlooks (op o) := by
  by_cases hlib : o.isLibCall = false
  · exact (indoors_op o hlib).overlooks
  · cases o <;> simp only [Op.isLibCall, not_true_eq_false] at hlib
    exact overlooks_callLibrary _ _

end Exec

/-! ## Runs -/

namespace Machine

/-- **A step goes the same way in a world that is read ahead.** -/
theorem step_readAhead (m : Machine) : m.readAhead.step = (m.step.1, m.step.2.readAhead) := by
  have hdone : m.readAhead.isDone = m.isDone := rfl
  have hlimits : m.readAhead.limits.maxInstructions ≤ m.readAhead.executed ↔
    m.limits.maxInstructions ≤ m.executed := Iff.rfl
  have hinst : m.readAhead.instruction? m.readAhead.pc = m.instruction? m.pc := rfl
  have hcounted : m.readAhead.counted = m.counted.readAhead := rfl
  rw [step_eq, step_eq, hdone, hinst, hcounted, if_congr hlimits rfl rfl]
  split
  · rw [settle_readAhead]
  · split
    · rw [settle_readAhead]
    · split
      · rw [settle_readAhead]
        rfl
      · next i _ =>
        rw [Exec.overlooks_op]
        cases Exec.op i.op m.counted with
        | ok flow m₁ => simp only [Exec.ahead, flowTo_readAhead, settle_readAhead]
        | error s m₁ => simp only [Exec.ahead, settle_readAhead]

/-- **A run goes the same way in a world that is read ahead.** -/
theorem runFor_readAhead : ∀ (fuel : Nat) (m : Machine),
    m.readAhead.runFor fuel = ((m.runFor fuel).1, (m.runFor fuel).2.readAhead)
  | 0, _ => rfl
  | fuel + 1, m => by
    rw [runFor, runFor]
    by_cases hd : m.isDone = true
    · rw [if_pos hd]
      exact if_pos hd
    · rw [if_neg hd]
      refine (if_neg hd).trans ?_
      rw [step_readAhead]
      cases m.step with
      | mk stop m₁ =>
        cases stop with
        | none => exact runFor_readAhead fuel m₁
        | some s => rfl

theorem activationsFrom_readAhead (m : Machine) : ∀ (pc : Nat) (stack : List Frame),
    m.readAhead.activationsFrom pc stack = m.activationsFrom pc stack
  | _, [] => rfl
  | pc, frame :: rest => by
    rw [activationsFrom, activationsFrom, activationsFrom_readAhead m frame.returnPc rest]
    rfl

theorem explain_readAhead (m : Machine) (s : Stop) : m.readAhead.explain s = m.explain s := by
  cases s with
  | abort a => rfl
  | fault f =>
    have hframes : m.readAhead.activations = m.activations := activationsFrom_readAhead m m.pc m.stack
    have hentries : m.readAhead.entriesOf = m.entriesOf := rfl
    show m.readAhead.report f = m.report f
    unfold report
    rw [hframes, hentries]
    rfl

theorem runTraced_readAhead (m : Machine) :
    m.readAhead.runTraced = (m.runTraced.1, m.runTraced.2.readAhead) := by
  have hrun : m.readAhead.run = (m.run.1, m.run.2.readAhead) := runFor_readAhead m.budget m
  unfold runTraced
  rw [hrun]
  cases m.run with
  | mk stop m₁ =>
    cases stop with
    | none => rfl
    | some s => simp only [explain_readAhead]

theorem leftWorld_readAhead (m : Machine) : m.readAhead.leftWorld = m.leftWorld.readAhead := by
  have hletGo := letGo_readAhead { m with stack := [], result := none }
    (m.stack.reverse.flatMap Frame.values ++ m.result.toList)
  unfold leftWorld
  refine (congrArg (fun m => m.settle.world) hletGo).trans ?_
  rw [settle_readAhead]
  rfl

end Machine

/-- **An execution ends the same way in a world that is read ahead**, and leaves the same behind. -/
theorem Cli.execute_readAhead (image : Image) (limits : Limits) (w : World) :
    Cli.execute image limits w.readAhead =
      ((Cli.execute image limits w).1, (Cli.execute image limits w).2.readAhead) := by
  unfold Cli.execute Machine.create?
  cases Machine.bottom? image with
  | none => rfl
  | some frame =>
    have hstart := Machine.runTraced_readAhead ⟨image, limits, 0, [frame], 0, none, [], [], w⟩
    simp only [Option.map_some]
    refine (congrArg (fun r : _ × Machine => (r.1, r.2.leftWorld)) hstart).trans ?_
    simp only [Machine.leftWorld_readAhead]

end PseudoVm
