import PseudoVm.Proofs.Session.Schedule
/-!
# Session.Floor: any number of controllers and workers at one session

A call of a controller is a sequence of sections, and so is the work of a worker.  Sections exclude each other; between
any two of them others may come.  A floor is a session with the calls under way, the workers that were started, and the
handle by which the latest of these is waited for.  A play takes the worker's place first, is granted or refused next,
and starts a worker last; a halt asks the program to stop first and then looks for a handle.

`Floor.perform?` is one section and `Floor.run?` any interleaving of them; `Floor.Step` lists what a section can do.  A
call or a worker that nobody interrupts does what `Session.start`, `Session.terminate`, `Session.halt` and
`Session.work` say.

A worker that waits for itself never gives the session back, so no section comes any more that needs it.
-/
namespace PseudoVm

/-- What a call waits for the end of a worker for. -/
inductive Purpose
  | wait | halt | reset
  deriving DecidableEq

/-- Where the call of a controller stands. -/
inductive Stage
  | idle
  /-- A play that has taken the worker's place. -/
  | reserved
  /-- A play that was refused and has the place still to give back. -/
  | refused
  /-- A play that was granted and has a worker still to start. -/
  | granted
  /-- A termination that has still to be reported. -/
  | telling
  /-- A call that is about to look for a handle. -/
  | seeking (purpose : Purpose)
  /-- A call that has taken the handle of a worker and waits for its end. -/
  | joining (purpose : Purpose) (worker : Nat)
  /-- A call out of a report of the worker whose handle it has taken, and puts back. -/
  | returning (purpose : Purpose) (worker : Nat)
  /-- A reset that has waited. -/
  | rewinding
  deriving DecidableEq

/-- Where a worker stands. -/
inductive Phase
  /-- It has not got to its first section. -/
  | fresh
  /-- It has begun with the instructions. -/
  | active
  /-- It broke down and has still to clear up. -/
  | broken
  /-- Its burst is over, and these events are still to be reported; it ends with the last of them. -/
  | telling (events : List Event)
  /-- The host deals with a report, and these events come after it. -/
  | heard (events : List Event)
  deriving DecidableEq

/-- A section of a call. -/
inductive CallSection
  -- all of a request that is over with one section
  | ask (r : Request)
  -- a play, and how it can end
  | reserve
  | request
  | giveBack
  | start
  | startFails
  -- a termination
  | terminate
  | tell
  -- a wait, a halt or a reset
  | await (purpose : Purpose)
  | seek
  | join
  | putBack
  | rewind

/-- A section of a worker's work. -/
inductive WorkSection
  | turn (executes : Bool)
  | clearUp
  | report
  | goOn

/-- What happens on a floor: a section of the call of a controller, or of the work of a worker. -/
inductive Move
  | call (controller : Nat) (what : CallSection)
  | work (worker : Nat) (what : WorkSection)

namespace Move

def executes : Move → Bool
  | .work _ (.turn executes) => executes
  | _ => false

def rewinds : Move → Bool
  | .call _ .rewind => true
  | _ => false

def starts : Move → Bool
  | .call _ .start => true
  | _ => false

end Move

/-- Whether a request is over with one section. -/
def Request.isSection : Request → Bool
  | .play | .halt | .terminate | .rewind => false
  | _ => true

namespace Purpose

/-- The first section of a call that waits. -/
def ask (s : Session) : Purpose → Session
  | .wait => s
  | .halt | .reset => s.requestHalt

/-- Where such a call stands once it has waited. -/
def after : Purpose → Stage
  | .wait | .halt => .idle
  | .reset => .rewinding

end Purpose

namespace Stage

/-- Whether a call has the worker's place. -/
def holds : Stage → Nat
  | .reserved | .refused | .granted => 1
  | _ => 0

end Stage

namespace Phase

/-- Whether a worker is live: it has the worker's place until its last section. -/
def live : Phase → Nat
  | .fresh | .active | .broken => 1
  | .telling _ | .heard _ => 0

def isHeard : Phase → Bool
  | .heard _ => true
  | _ => false

end Phase

namespace CallSection

/-- Whether a section needs the session. -/
def locks : CallSection → Bool
  | .ask r => r.needsSession
  | .request | .terminate | .rewind => true
  | .await p => p != .wait
  | .reserve | .giveBack | .start | .startFails | .tell | .seek | .join | .putBack => false

/-- The workers that a section adds. -/
def hired : CallSection → List Phase
  | .start => [.fresh]
  | _ => []

/-- Whether the worker of a handle has ended.  A play out of the report of that worker does not ask. -/
def relieved (home : Option Nat) (workers : List Phase) : Option Nat → Bool
  | none => true
  | some w => home == some w || workers[w]? == some (.telling [])

/-- **A section of a call**: where the call stands after it, the session and the handle.  The controller is at home in
the reports of a worker or nowhere, and the workers stand as given.  `none` if the call is not at this section or has
to wait. -/
def perform? (home : Option Nat) (workers : List Phase) (c : CallSection) (x : Stage) (s : Session) (h : Option Nat) :
    Option (Stage × Session × Option Nat) :=
  match c, x with
  | .ask r, .idle => if r.isSection then some (.idle, r.apply s, h) else none
  | .reserve, .idle =>
    match s.reserve? with
    | some s' => some (.reserved, s', h)
    | none => some (.idle, s, h)
  | .request, .reserved =>
    match s.grant with
    | (none, s') => some (.granted, s', h)
    | (some _, s') => some (.refused, s', h)
  | .giveBack, .refused => some (.idle, { s with running := false }, h)
  | .start, .granted => if relieved home workers h then some (.idle, s, some workers.length) else none
  | .startFails, .granted => if relieved home workers h then some (.idle, { s with running := false }, none) else none
  | .terminate, .idle =>
    match s.requestTerminate with
    | (some false, s') => some (.telling, s', h)
    | (_, s') => some (.idle, s', h)
  | .tell, .telling => some (.idle, s.emit .terminated, h)
  | .await p, .idle => some (.seeking p, p.ask s, h)
  | .seek, .seeking p =>
    match h with
    | none => some (p.after, s, none)
    | some w => some (if home = some w then .returning p w else .joining p w, s, none)
  | .join, .joining p w => if workers[w]? = some (.telling []) then some (p.after, s, h) else none
  | .putBack, .returning p w => some (p.after, s, some w)
  | .rewind, .rewinding => some (.idle, s.rewound, h)
  | _, _ => none

/-- **What a section of a call can do.** -/
inductive Does (home : Option Nat) (workers : List Phase) :
    CallSection → Stage → Session → Option Nat → Stage → Session → Option Nat → Prop
  | asks {r : Request} {s h} (hr : r.isSection = true) : Does home workers (.ask r) .idle s h .idle (r.apply s) h
  | reserves {s s' h} (hs : s.reserve? = some s') : Does home workers .reserve .idle s h .reserved s' h
  | comesLate {s h} : Does home workers .reserve .idle s h .idle s h
  | grants {s s' h} (hs : s.grant = (none, s')) : Does home workers .request .reserved s h .granted s' h
  | refuses {e s s' h} (hs : s.grant = (some e, s')) : Does home workers .request .reserved s h .refused s' h
  | givesBack {s h} : Does home workers .giveBack .refused s h .idle { s with running := false } h
  | starts {s h} : Does home workers .start .granted s h .idle s (some workers.length)
  | startFails {s h} : Does home workers .startFails .granted s h .idle { s with running := false } none
  | endsIt {s s' h} (hs : s.requestTerminate = (some false, s')) : Does home workers .terminate .idle s h .telling s' h
  | leavesIt {live s s' h} (hs : s.requestTerminate = (live, s')) (hl : live ≠ some false) :
    Does home workers .terminate .idle s h .idle s' h
  | tells {s h} : Does home workers .tell .telling s h .idle (s.emit .terminated) h
  | awaits {p : Purpose} {s h} : Does home workers (.await p) .idle s h (.seeking p) (p.ask s) h
  | findsNone {p s} : Does home workers .seek (.seeking p) s none p.after s none
  | finds {p w s} (hw : home ≠ some w) : Does home workers .seek (.seeking p) s (some w) (.joining p w) s none
  | findsOwn {p w s} (hw : home = some w) : Does home workers .seek (.seeking p) s (some w) (.returning p w) s none
  | joins {p w s h} (hw : workers[w]? = some (.telling [])) : Does home workers .join (.joining p w) s h p.after s h
  | putsBack {p w s h} : Does home workers .putBack (.returning p w) s h p.after s (some w)
  | rewinds {s h} : Does home workers .rewind .rewinding s h .idle s.rewound h

theorem does_of_perform? {home : Option Nat} {workers : List Phase} {c : CallSection} {x y : Stage} {s s' : Session}
    {h h' : Option Nat} (hc : perform? home workers c x s h = some (y, s', h')) :
    Does home workers c x s h y s' h' := by
  unfold perform? at hc
  -- the cases are the lines of the definition; those not named have no condition
  split at hc
  case h_1 =>
    split at hc
    · rename_i hr
      cases hc
      exact .asks hr
    · cases hc
  case h_2 =>
    split at hc
    · rename_i hs
      cases hc
      exact .reserves hs
    · cases hc
      exact .comesLate
  case h_3 =>
    split at hc
    · rename_i hs
      cases hc
      exact .grants hs
    · rename_i hs
      cases hc
      exact .refuses hs
  case h_5 =>
    split at hc
    · cases hc
      exact .starts
    · cases hc
  case h_6 =>
    split at hc
    · cases hc
      exact .startFails
    · cases hc
  case h_7 =>
    split at hc
    · rename_i hs
      cases hc
      exact .endsIt hs
    · rename_i hl hs
      cases hc
      exact .leavesIt hs hl
  case h_10 =>
    split at hc
    · cases hc
      exact .findsNone
    · split at hc
      · rename_i hw
        cases hc
        exact .findsOwn hw
      · rename_i hw
        cases hc
        exact .finds hw
  case h_11 =>
    split at hc
    · rename_i hw
      cases hc
      exact .joins hw
    · cases hc
  case h_14 => cases hc
  all_goals
    cases hc
    constructor

end CallSection

namespace Session

/-- Whether a turn executes an instruction. -/
def executes (s : Session) : Bool := s.runState == .running && !s.machine.isDone && !s.stepEnds

/-- Where a worker stands after a turn, and the session.  A worker that breaks down lets go of the session before it
clears up, and one that waits for ever stays where it is. -/
def afterTurn (s : Session) : Option Outcome × Session → Phase × Session
  | (none, s') => (.active, s')
  | (some .hung, s') => (.active, s')
  | (some .crashed, s') => (.broken, { s' with runState := s.runState })
  | (some o, s') => (.telling (eventsOf o), s'.conclude o)

end Session

namespace WorkSection

/-- Whether a section needs the session. -/
def locks : WorkSection → Bool
  | .turn _ | .clearUp => true
  | .report | .goOn => false

/-- **A section of a worker**: where it stands after it, and the session. -/
def perform? (k : WorkSection) (p : Phase) (s : Session) : Option (Phase × Session) :=
  match k, p with
  | .turn false, .fresh => some (s.afterTurn s.enter)
  | .turn executes, .active => if executes = s.executes then some (s.afterTurn s.tick) else none
  | .clearUp, .broken => some (.telling [], s.crashed.2.conclude .crashed)
  | .report, .telling (e :: es) => some (.heard es, s.emit e)
  | .goOn, .heard es => some (.telling es, s)
  | _, _ => none

/-- **What a section of a worker can do.** -/
inductive Does : WorkSection → Phase → Session → Phase × Session → Prop
  | enters {s : Session} : Does (.turn false) .fresh s (s.afterTurn s.enter)
  | ticks {s : Session} : Does (.turn s.executes) .active s (s.afterTurn s.tick)
  | clearsUp {s : Session} : Does .clearUp .broken s (.telling [], s.crashed.2.conclude .crashed)
  | reports {e : Event} {es : List Event} {s : Session} : Does .report (.telling (e :: es)) s (.heard es, s.emit e)
  | goesOn {es : List Event} {s : Session} : Does .goOn (.heard es) s (.telling es, s)

theorem does_of_perform? {k : WorkSection} {p : Phase} {s : Session} {r : Phase × Session}
    (hk : perform? k p s = some r) : Does k p s r := by
  unfold perform? at hk
  split at hk
  case h_2 =>
    split at hk
    · rename_i he
      cases hk
      rw [he]
      exact .ticks
    · cases hk
  case h_6 => cases hk
  all_goals
    cases hk
    constructor

end WorkSection

namespace Session

variable {s s' : Session}

theorem reserve?_eq_some : s.reserve? = some s' ↔ s.running = false ∧ s' = { s with running := true } := by
  unfold reserve?
  cases s.running with
  | true => simp
  | false => simp [eq_comm]

theorem stuck_of_reserve? (h : s.reserve? = some s') : s'.stuck = s.stuck := by
  obtain ⟨-, rfl⟩ := reserve?_eq_some.1 h
  rfl

theorem giveBack_of_refused {reserved : Session} {e : SessionError} (hr : s.reserve? = some reserved)
    (hg : reserved.grant = (some e, s')) : { s' with running := false } = s := by
  obtain ⟨hrunning, rfl⟩ := reserve?_eq_some.1 hr
  unfold grant at hg
  split at hg
  · cases hg
    rw [← hrunning]
  · cases hg

end Session

/-- A session with the calls of its controllers, by their numbers, the workers that were started, in order, and the
handle of the latest of them unless a call has taken it. -/
structure Floor where
  session : Session
  calls : List Stage
  workers : List Phase := []
  handle : Option Nat := none
  /-- The worker in whose reports a controller is at home, if in any. -/
  home : Nat → Option Nat := fun _ => none

namespace Floor

/-- The floor of a session before any call of its `n` controllers. -/
def of (s : Session) (n : Nat) (home : Nat → Option Nat) : Floor :=
  { session := s, calls := List.replicate n .idle, home := home }

/-- Whether a controller can make a call: one that is at home in the reports of a worker can only out of a report. -/
def canCall (f : Floor) (i : Nat) : Bool :=
  match f.home i with
  | none => true
  | some w => (f.workers[w]?.map Phase.isHeard).getD false

/-- Whether all calls out of the report of a worker are over. -/
def isAnswered (f : Floor) (w : Nat) : Bool := f.calls.zipIdx.all fun (x, i) => x == .idle || f.home i != some w

/-- **One section**, of any controller or worker, if it can come now. -/
def perform? (f : Floor) : Move → Option Floor
  | .call i c => do
    let x ← f.calls[i]?
    guard (x ≠ .idle ∨ f.canCall i = true)
    guard (f.session.stuck = false ∨ c.locks = false)
    let (y, s, h) ← c.perform? (f.home i) f.workers x f.session f.handle
    return { f with session := s, calls := f.calls.set i y, workers := f.workers ++ c.hired, handle := h }
  | .work w k => do
    let p ← f.workers[w]?
    guard (p.isHeard = false ∨ f.isAnswered w = true)
    guard (f.session.stuck = false ∨ k.locks = false)
    let (q, s) ← k.perform? p f.session
    return { f with session := s, workers := f.workers.set w q }

/-- **Any interleaving**, if its sections can come one after the other. -/
def run? (f : Floor) : List Move → Option Floor
  | [] => some f
  | m :: ms => (f.perform? m).bind fun g => g.run? ms

theorem perform?_call {f : Floor} {i : Nat} {c : CallSection} {x y : Stage} {s : Session} {h : Option Nat}
    (hi : f.calls[i]? = some x) (hx : x ≠ .idle ∨ f.canCall i = true) (hl : f.session.stuck = false ∨ c.locks = false)
    (hc : c.perform? (f.home i) f.workers x f.session f.handle = some (y, s, h)) : f.perform? (.call i c) =
      some { f with session := s, calls := f.calls.set i y, workers := f.workers ++ c.hired, handle := h } := by
  refine Option.bind_eq_some_iff.2 ⟨x, hi, Option.bind_eq_some_iff.2 ⟨(), if_pos hx, ?_⟩⟩
  exact Option.bind_eq_some_iff.2 ⟨(), if_pos hl, Option.bind_eq_some_iff.2 ⟨_, hc, rfl⟩⟩

theorem perform?_work {f : Floor} {w : Nat} {k : WorkSection} {p q : Phase} {s : Session} (hw : f.workers[w]? = some p)
    (hp : p.isHeard = false ∨ f.isAnswered w = true) (hl : f.session.stuck = false ∨ k.locks = false)
    (hk : k.perform? p f.session = some (q, s)) :
    f.perform? (.work w k) = some { f with session := s, workers := f.workers.set w q } := by
  refine Option.bind_eq_some_iff.2 ⟨p, hw, Option.bind_eq_some_iff.2 ⟨(), if_pos hp, ?_⟩⟩
  exact Option.bind_eq_some_iff.2 ⟨(), if_pos hl, Option.bind_eq_some_iff.2 ⟨_, hk, rfl⟩⟩

/-- A worker is live from its start to its last section. -/
def Live (f : Floor) (w : Nat) : Prop := ∃ p, f.workers[w]? = some p ∧ p.live = 1

/-- **What one section can do to a floor.** -/
inductive Step (f : Floor) : Move → Floor → Prop
  | call {i : Nat} {c : CallSection} {x y : Stage} {s : Session} {h : Option Nat} (hi : f.calls[i]? = some x)
      (hc : CallSection.Does (f.home i) f.workers c x f.session f.handle y s h) :
    Step f (.call i c) { f with session := s, calls := f.calls.set i y, workers := f.workers ++ c.hired, handle := h }
  | work {w : Nat} {k : WorkSection} {p q : Phase} {s : Session} (hw : f.workers[w]? = some p)
      (hk : WorkSection.Does k p f.session (q, s)) :
    Step f (.work w k) { f with session := s, workers := f.workers.set w q }

theorem step_of_perform? {f g : Floor} {m : Move} (h : f.perform? m = some g) : Step f m g := by
  cases m with
  | call i c =>
    obtain ⟨x, hi, h⟩ := Option.bind_eq_some_iff.1 h
    obtain ⟨-, -, h⟩ := Option.bind_eq_some_iff.1 h
    obtain ⟨-, -, h⟩ := Option.bind_eq_some_iff.1 h
    obtain ⟨⟨y, s, handle⟩, hc, h⟩ := Option.bind_eq_some_iff.1 h
    cases h
    exact .call hi (CallSection.does_of_perform? hc)
  | work w k =>
    obtain ⟨p, hw, h⟩ := Option.bind_eq_some_iff.1 h
    obtain ⟨-, -, h⟩ := Option.bind_eq_some_iff.1 h
    obtain ⟨-, -, h⟩ := Option.bind_eq_some_iff.1 h
    obtain ⟨⟨q, s⟩, hk, h⟩ := Option.bind_eq_some_iff.1 h
    cases h
    exact .work hw (WorkSection.does_of_perform? hk)

variable {f g : Floor} {m : Move} {moves : List Move}

theorem Step.home (hs : Step f m g) : g.home = f.home := by cases hs <;> rfl

theorem run?_cons {h : Floor} : f.run? (m :: moves) = some h ↔ ∃ g, f.perform? m = some g ∧ g.run? moves = some h :=
  Option.bind_eq_some_iff

theorem run?_singleton (f : Floor) (m : Move) : f.run? [m] = f.perform? m := by
  unfold run?
  cases f.perform? m <;> rfl

theorem run?_append {later : List Move} : ∀ {moves : List Move} {f : Floor}, f.run? moves = some g →
    f.run? (moves ++ later) = g.run? later
  | [], _, h => by
    cases h
    rfl
  | m :: moves, f, h => by
    obtain ⟨f', hm, h⟩ := run?_cons.1 h
    rw [List.cons_append, run?, hm]
    exact run?_append h

/-- What every section of an interleaving keeps holds after it, and what holds of each section where it comes holds of
all. -/
theorem run?_keeps {P : Floor → Prop} {Q : Move → Prop} : ∀ {moves : List Move} {f : Floor},
    (∀ f m g, m ∈ moves → Step f m g → P f → P g ∧ Q m) → f.run? moves = some g → P f → P g ∧ ∀ m ∈ moves, Q m
  | [], _, _, hr, h => by
    cases hr
    exact ⟨h, fun m hm => nomatch hm⟩
  | m :: _, f, hstep, hr, h => by
    obtain ⟨f', hm, hr⟩ := run?_cons.1 hr
    obtain ⟨hf', hq⟩ := hstep f m f' List.mem_cons_self (step_of_perform? hm) h
    obtain ⟨hg, hqs⟩ := run?_keeps (fun f k g hk => hstep f k g (List.mem_cons_of_mem m hk)) hr hf'
    exact ⟨hg, List.forall_mem_cons.2 ⟨hq, hqs⟩⟩

theorem home_of_run? (hr : f.run? moves = some g) : g.home = f.home :=
  (run?_keeps (P := fun g => g.home = f.home) (fun _ _ _ _ hs h => ⟨hs.home.trans h, trivial⟩) hr rfl).1

/-! ## Calls that nobody interrupts -/

section Alone

variable {i w : Nat}

theorem perform?_call_nil {c : CallSection} {x y : Stage} {s : Session} {h : Option Nat} (hn : c.hired = [])
    (hi : f.calls[i]? = some x) (hx : x ≠ .idle ∨ f.canCall i = true) (hl : f.session.stuck = false ∨ c.locks = false)
    (hc : c.perform? (f.home i) f.workers x f.session f.handle = some (y, s, h)) :
    f.perform? (.call i c) = some { f with session := s, calls := f.calls.set i y, handle := h } := by
  rw [perform?_call hi hx hl hc, hn, List.append_nil]

theorem set_idle (hi : f.calls[i]? = some .idle) : f.calls.set i .idle = f.calls := by
  obtain ⟨hlt, hi⟩ := List.getElem?_eq_some_iff.1 hi
  rw [← hi, List.set_getElem_self]

/-- **A play that nobody interrupts starts a worker exactly as `Session.start` says.** -/
theorem run?_play {s : Session} (hi : f.calls[i]? = some .idle) (hc : f.canCall i = true)
    (hst : f.session.stuck = false) (hr : CallSection.relieved (f.home i) f.workers f.handle = true)
    (hs : f.session.start = .ok s) :
    f.run? [.call i .reserve, .call i .request, .call i .start] =
      some { f with session := s, workers := f.workers ++ [.fresh], handle := some f.workers.length } := by
  have hlt := (List.getElem?_eq_some_iff.1 hi).1
  unfold Session.start at hs
  split at hs
  · cases hs
  rename_i reserved hreserve
  split at hs
  · cases hs
  rename_i granted hgrant
  cases hs
  have hreserved : reserved.stuck = false := (Session.stuck_of_reserve? hreserve).trans hst
  have h₁ : f.perform? (.call i .reserve) = some { f with session := reserved, calls := f.calls.set i .reserved } :=
    perform?_call_nil rfl hi (.inr hc) (.inr rfl) (by simp only [CallSection.perform?, hreserve])
  have h₂ : perform? { f with session := reserved, calls := f.calls.set i .reserved } (.call i .request) =
      some { f with session := s, calls := (f.calls.set i .reserved).set i .granted } :=
    perform?_call_nil rfl (List.getElem?_set_self hlt) (.inl Stage.noConfusion) (.inl hreserved)
      (by simp only [CallSection.perform?, hgrant])
  rw [List.set_set] at h₂
  have h₃ : perform? { f with session := s, calls := f.calls.set i .granted } (.call i .start) =
      some { f with session := s, calls := (f.calls.set i .granted).set i .idle, workers := f.workers ++ [.fresh],
                    handle := some f.workers.length } :=
    perform?_call (List.getElem?_set_self hlt) (.inl Stage.noConfusion) (.inr rfl) (if_pos hr)
  rw [List.set_set, set_idle hi] at h₃
  exact run?_cons.2 ⟨_, h₁, run?_cons.2 ⟨_, h₂, (run?_singleton _ _).trans h₃⟩⟩

/-- **One that is refused leaves all as it was.** -/
theorem exists_run?_refused {e : SessionError} (hi : f.calls[i]? = some .idle) (hc : f.canCall i = true)
    (hst : f.session.stuck = false) (hs : f.session.start = .error e) :
    ∃ moves, (∀ m ∈ moves, ∃ c, m = .call i c) ∧ f.run? moves = some f := by
  have hlt := (List.getElem?_eq_some_iff.1 hi).1
  unfold Session.start at hs
  split at hs
  · rename_i hreserve
    have h₁ : f.perform? (.call i .reserve) = some { f with calls := f.calls.set i .idle } :=
      perform?_call_nil rfl hi (.inr hc) (.inr rfl) (by simp only [CallSection.perform?, hreserve])
    rw [set_idle hi] at h₁
    exact ⟨[.call i .reserve], by simp, (run?_singleton f _).trans h₁⟩
  rename_i reserved hreserve
  split at hs
  · rename_i s hgrant
    have hback : { s with running := false } = f.session := Session.giveBack_of_refused hreserve hgrant
    have hreserved : reserved.stuck = false := (Session.stuck_of_reserve? hreserve).trans hst
    have h₁ : f.perform? (.call i .reserve) = some { f with session := reserved, calls := f.calls.set i .reserved } :=
      perform?_call_nil rfl hi (.inr hc) (.inr rfl) (by simp only [CallSection.perform?, hreserve])
    have h₂ : perform? { f with session := reserved, calls := f.calls.set i .reserved } (.call i .request) =
        some { f with session := s, calls := (f.calls.set i .reserved).set i .refused } :=
      perform?_call_nil rfl (List.getElem?_set_self hlt) (.inl Stage.noConfusion) (.inl hreserved)
        (by simp only [CallSection.perform?, hgrant])
    rw [List.set_set] at h₂
    have h₃ : perform? { f with session := s, calls := f.calls.set i .refused } (.call i .giveBack) =
        some { f with session := { s with running := false }, calls := (f.calls.set i .refused).set i .idle } :=
      perform?_call_nil rfl (List.getElem?_set_self hlt) (.inl Stage.noConfusion) (.inr rfl) rfl
    rw [List.set_set, set_idle hi, hback] at h₃
    exact ⟨[.call i .reserve, .call i .request, .call i .giveBack], by simp,
      run?_cons.2 ⟨_, h₁, run?_cons.2 ⟨_, h₂, (run?_singleton _ _).trans h₃⟩⟩⟩
  · cases hs

/-- **A termination that nobody interrupts does what `Session.terminate` says.** -/
theorem exists_run?_terminate (hi : f.calls[i]? = some .idle) (hc : f.canCall i = true)
    (hst : f.session.stuck = false) :
    ∃ moves, (∀ m ∈ moves, ∃ c, m = .call i c) ∧ f.run? moves = some { f with session := f.session.terminate } := by
  have hlt := (List.getElem?_eq_some_iff.1 hi).1
  unfold Session.terminate
  split
  · rename_i s hs
    have h₁ : f.perform? (.call i .terminate) = some { f with session := s, calls := f.calls.set i .telling } :=
      perform?_call_nil rfl hi (.inr hc) (.inl hst) (by simp only [CallSection.perform?, hs])
    have h₂ : perform? { f with session := s, calls := f.calls.set i .telling } (.call i .tell) =
        some { f with session := s.emit .terminated, calls := (f.calls.set i .telling).set i .idle } :=
      perform?_call_nil rfl (List.getElem?_set_self hlt) (.inl Stage.noConfusion) (.inr rfl) rfl
    rw [List.set_set, set_idle hi] at h₂
    exact ⟨[.call i .terminate, .call i .tell], by simp, run?_cons.2 ⟨_, h₁, (run?_singleton _ _).trans h₂⟩⟩
  · rename_i s hl hs
    have h₁ : f.perform? (.call i .terminate) = some { f with session := s, calls := f.calls.set i .idle } :=
      perform?_call_nil rfl hi (.inr hc) (.inl hst) (by simp only [CallSection.perform?, hs])
    rw [set_idle hi] at h₁
    exact ⟨[.call i .terminate], by simp, (run?_singleton _ _).trans h₁⟩

theorem isAnswered_of_home (hh : ∀ j, f.home j ≠ some w) : f.isAnswered w = true := by
  refine List.all_eq_true.2 fun (x, j) _ => ?_
  rw [Bool.or_eq_true_iff]
  exact .inr (bne_iff_ne.2 (hh j))

theorem perform?_goOn {es : List Event} (hh : ∀ j, f.home j ≠ some w) (hw : f.workers[w]? = some (.heard es)) :
    f.perform? (.work w .goOn) = some { f with workers := f.workers.set w (.telling es) } :=
  perform?_work hw (.inr (isAnswered_of_home hh)) (.inr rfl) rfl

/-- **A worker whose reports nobody calls out of gets through them in order.** -/
theorem run?_reports : ∀ {es : List Event} {f : Floor}, (∀ j, f.home j ≠ some w) →
    f.workers[w]? = some (.telling es) → f.run? (es.flatMap fun _ => [.work w .report, .work w .goOn]) =
      some { f with session := es.foldl Session.emit f.session, workers := f.workers.set w (.telling []) }
  | [], f, _, hw => by
    obtain ⟨hlt, hw⟩ := List.getElem?_eq_some_iff.1 hw
    have hset : f.workers.set w (.telling []) = f.workers := by rw [← hw, List.set_getElem_self]
    rw [hset]
    rfl
  | e :: es, f, hh, hw => by
    have hlt := (List.getElem?_eq_some_iff.1 hw).1
    have h₁ : f.perform? (.work w .report) =
        some { f with session := f.session.emit e, workers := f.workers.set w (.heard es) } :=
      perform?_work hw (.inl rfl) (.inr rfl) rfl
    have h₂ : perform? { f with session := f.session.emit e, workers := f.workers.set w (.heard es) } (.work w .goOn) =
        some { f with session := f.session.emit e, workers := (f.workers.set w (.heard es)).set w (.telling es) } :=
      perform?_goOn hh (List.getElem?_set_self hlt)
    rw [List.set_set] at h₂
    refine run?_cons.2 ⟨_, h₁, run?_cons.2 ⟨_, h₂, ?_⟩⟩
    have hrest := run?_reports
      (f := { f with session := f.session.emit e, workers := f.workers.set w (.telling es) }) hh
      (List.getElem?_set_self hlt)
    rw [List.set_set] at hrest
    exact hrest

theorem runState_of_crashed {s s' : Session} {o : Outcome} (h : Session.Section s (some o) s') (ho : o = .crashed) :
    s'.runState = .terminated := by
  cases h with
  | givesWay =>
    cases hr : s.runState with
    | terminated => rfl
    | running | paused | halted => rw [hr] at ho; cases ho
  | crashes => rfl
  | _ => cases ho

/-- Where a worker stands at last: it waits for ever, or is done. -/
def lastPhase : Outcome → Phase
  | .hung => .active
  | _ => .telling []

theorem lastPhase_of_ne {o : Outcome} (h : o ≠ .hung) : lastPhase o = .telling [] := by
  cases o <;> first | rfl | exact absurd rfl h

theorem exists_run?_ended {o : Outcome} {s : Session} {k : WorkSection} {p : Phase} (hh : ∀ j, f.home j ≠ some w)
    (hw : f.workers[w]? = some p) (hp : p.isHeard = false) (hst : f.session.stuck = false)
    (hs : Session.Section f.session (some o) s)
    (hk : k.perform? p f.session = some (f.session.afterTurn (some o, s))) :
    ∃ moves, (∀ m ∈ moves, ∃ k, m = .work w k) ∧
      f.run? moves = some { f with session := (s.conclude o).report o, workers := f.workers.set w (lastPhase o) } := by
  have hlt := (List.getElem?_eq_some_iff.1 hw).1
  by_cases hhung : o = .hung
  · subst hhung
    exact ⟨[.work w k], by simp, (run?_singleton _ _).trans (perform?_work hw (.inl hp) (.inl hst) hk)⟩
  rw [lastPhase_of_ne hhung]
  -- a worker that breaks down lets go of the session and clears up in a section of its own
  by_cases ho : o = .crashed
  · have hstate := runState_of_crashed hs ho
    have hfree : s.stuck = false := (hs.stuck fun h => hhung (Option.some.inj h)).trans hst
    subst ho
    have hconclude : ({ s with runState := f.session.runState } : Session).crashed.2.conclude .crashed =
        s.conclude .crashed := by
      unfold Session.conclude Session.crashed
      dsimp only
      rw [hstate]
    have h₁ : f.perform? (.work w k) = some { f with session := { s with runState := f.session.runState },
                                                     workers := f.workers.set w .broken } :=
      perform?_work hw (.inl hp) (.inl hst) hk
    have h₂ : perform? { f with session := { s with runState := f.session.runState },
                                workers := f.workers.set w .broken } (.work w .clearUp) =
        some { f with session := ({ s with runState := f.session.runState } : Session).crashed.2.conclude .crashed,
                      workers := (f.workers.set w .broken).set w (.telling []) } :=
      perform?_work (List.getElem?_set_self hlt) (.inl rfl) (.inl hfree) rfl
    rw [List.set_set, hconclude] at h₂
    exact ⟨[.work w k, .work w .clearUp], by simp, run?_cons.2 ⟨_, h₁, (run?_singleton _ _).trans h₂⟩⟩
  · have hafter : f.session.afterTurn (some o, s) = (.telling (Session.eventsOf o), s.conclude o) := by
      cases o with
      | crashed => exact absurd rfl ho
      | hung => exact absurd rfl hhung
      | _ => rfl
    rw [hafter] at hk
    have h₂ := run?_reports (f := { f with
      session := s.conclude o, workers := f.workers.set w (.telling (Session.eventsOf o)) }) hh
      (List.getElem?_set_self hlt)
    rw [List.set_set] at h₂
    refine ⟨.work w k :: (Session.eventsOf o).flatMap fun _ => [.work w .report, .work w .goOn], ?_,
      run?_cons.2 ⟨_, perform?_work hw (.inl hp) (.inl hst) hk, h₂⟩⟩
    intro m hm
    rcases List.mem_cons.1 hm with rfl | hm
    · exact ⟨k, rfl⟩
    · obtain ⟨e, -, hm⟩ := List.mem_flatMap.1 hm
      simp only [List.mem_cons, List.not_mem_nil, or_false] at hm
      rcases hm with rfl | rfl <;> exact ⟨_, rfl⟩

theorem exists_run?_turns : ∀ {fuel : Nat} {f : Floor}, (∀ j, f.home j ≠ some w) → f.workers[w]? = some .active →
    f.session.stuck = false → f.session.machine.budget ≤ fuel → ∃ moves, (∀ m ∈ moves, ∃ k, m = .work w k) ∧
      f.run? moves = some { f with
        session := ((Session.turns fuel f.session).2.conclude (Session.turns fuel f.session).1).report
          (Session.turns fuel f.session).1
        workers := f.workers.set w (lastPhase (Session.turns fuel f.session).1) }
  | 0, _, _, _, _, hb => absurd hb (Nat.not_succ_le_zero _)
  -- every turn that does not end the burst lowers the budget, so the fuel is never used up
  | fuel + 1, f, hh, hw, hst, hb => by
    have hturn : WorkSection.perform? (.turn f.session.executes) .active f.session =
        some (f.session.afterTurn f.session.tick) := by simp [WorkSection.perform?]
    have hsection := f.session.section_tick
    unfold Session.turns
    cases ht : f.session.tick with
    | mk o s =>
      rw [ht] at hturn hsection
      cases o with
      | some o => exact exists_run?_ended hh hw rfl hst hsection hturn
      | none =>
        obtain ⟨hstep, -, hs⟩ := Session.tick_none ht
        have hb' : s.machine.budget ≤ fuel := by
          rw [hs]
          exact Nat.le_of_lt_succ (Nat.lt_of_lt_of_le (Machine.budget_of_succeeds hstep) hb)
        have hst' : s.stuck = false := by
          rw [hs]
          exact hst
        have hlt := (List.getElem?_eq_some_iff.1 hw).1
        have h₁ : f.perform? (.work w (.turn f.session.executes)) =
            some { f with session := s, workers := f.workers.set w .active } :=
          perform?_work hw (.inl rfl) (.inl hst) hturn
        obtain ⟨moves, hm, hr⟩ := exists_run?_turns (f := { f with session := s, workers := f.workers.set w .active })
          hh (List.getElem?_set_self hlt) hst' hb'
        rw [List.set_set] at hr
        refine ⟨_ :: moves, ?_, run?_cons.2 ⟨_, h₁, hr⟩⟩
        exact List.forall_mem_cons.2 ⟨⟨_, rfl⟩, hm⟩

/-- **A worker that nobody interrupts does what `Session.work` says.** -/
theorem exists_run?_work (hh : ∀ j, f.home j ≠ some w) (hw : f.workers[w]? = some .fresh)
    (hst : f.session.stuck = false) : ∃ moves, (∀ m ∈ moves, ∃ k, m = .work w k) ∧
      f.run? moves = some { f with
        session := f.session.work, workers := f.workers.set w (lastPhase f.session.burst.1) } := by
  have hturn : WorkSection.perform? (.turn false) .fresh f.session =
      some (f.session.afterTurn f.session.enter) := rfl
  have hsection := f.session.section_enter
  unfold Session.work Session.burst
  cases he : f.session.enter with
  | mk o s =>
    rw [he] at hturn hsection
    cases o with
    | some o => exact exists_run?_ended hh hw rfl hst hsection hturn
    | none =>
      have hlt := (List.getElem?_eq_some_iff.1 hw).1
      have hst' : s.stuck = false := (hsection.stuck nofun).trans hst
      have h₁ : f.perform? (.work w (.turn false)) =
          some { f with session := s, workers := f.workers.set w .active } :=
        perform?_work hw (.inl rfl) (.inl hst) hturn
      obtain ⟨moves, hm, hr⟩ := exists_run?_turns (f := { f with session := s, workers := f.workers.set w .active })
        hh (List.getElem?_set_self hlt) hst' (Nat.le_succ s.machine.budget)
      rw [List.set_set] at hr
      refine ⟨_ :: moves, ?_, run?_cons.2 ⟨_, h₁, hr⟩⟩
      exact List.forall_mem_cons.2 ⟨⟨_, rfl⟩, hm⟩

theorem perform?_seek_none {p : Purpose} (hi : f.calls[i]? = some (.seeking p)) (hn : f.handle = none) :
    f.perform? (.call i .seek) = some { f with calls := f.calls.set i p.after, handle := none } :=
  perform?_call_nil rfl hi (.inl Stage.noConfusion) (.inr rfl) (by rw [hn]; rfl)

theorem perform?_seek_some {p : Purpose} (hi : f.calls[i]? = some (.seeking p)) (hh : f.home i = none)
    (hw : f.handle = some w) :
    f.perform? (.call i .seek) = some { f with calls := f.calls.set i (.joining p w), handle := none } :=
  perform?_call_nil rfl hi (.inl Stage.noConfusion) (.inr rfl) (by rw [hh, hw]; rfl)

theorem perform?_join {p : Purpose} (hi : f.calls[i]? = some (.joining p w)) (hw : f.workers[w]? = some (.telling [])) :
    f.perform? (.call i .join) = some { f with calls := f.calls.set i p.after } :=
  perform?_call_nil rfl hi (.inl Stage.noConfusion) (.inr rfl) (if_pos hw)

theorem burst_requestHalt (s : Session) : s.requestHalt.burst = (Session.stoppedOutcome s.requestHalt.runState,
    s.requestHalt) := by
  have hr : s.requestHalt.runState ≠ .running := by
    unfold Session.requestHalt
    dsimp only
    split <;> exact RunState.noConfusion
  unfold Session.burst
  rw [Session.enter_of_not_running hr]

/-- **A halt that nobody interrupts does what `Session.halt` says**, if the handle of the worker is in its place. -/
theorem exists_run?_halt (hh : ∀ j, f.home j ≠ some w) (hi : f.calls[i]? = some .idle) (hc : f.home i = none)
    (hhandle : f.handle = some w) (hw : f.workers[w]? = some .fresh) (hr : f.session.working = true) :
    ∃ moves, f.run? moves = some { f with
      session := f.session.halt, workers := f.workers.set w (.telling []), handle := none } := by
  have hlt := (List.getElem?_eq_some_iff.1 hi).1
  have hwlt := (List.getElem?_eq_some_iff.1 hw).1
  have hst := (Session.working_iff.1 hr).2
  have hcan : f.canCall i = true := by
    unfold canCall
    rw [hc]
  have hhalt : f.session.requestHalt.work = f.session.halt := (if_pos hr).symm
  have hlast : lastPhase f.session.requestHalt.burst.1 = .telling [] := by
    rw [burst_requestHalt]
    cases f.session.requestHalt.runState <;> rfl
  have h₁ : f.perform? (.call i (.await .halt)) =
      some { f with session := f.session.requestHalt, calls := f.calls.set i (.seeking .halt) } :=
    perform?_call_nil rfl hi (.inr hcan) (.inl hst) rfl
  have h₂ := perform?_seek_some
    (f := { f with session := f.session.requestHalt, calls := f.calls.set i (.seeking .halt) })
    (List.getElem?_set_self hlt) hc hhandle
  simp only [List.set_set] at h₂
  obtain ⟨moves, -, h₃⟩ := exists_run?_work
    (f := { f with session := f.session.requestHalt, calls := f.calls.set i (.joining .halt w), handle := none }) hh hw
    hst
  simp only [hlast] at h₃
  have h₄ := perform?_join (f := { f with
    session := f.session.requestHalt.work, calls := f.calls.set i (.joining .halt w),
    workers := f.workers.set w (.telling []), handle := none })
    (List.getElem?_set_self hlt) (List.getElem?_set_self hwlt)
  simp only [List.set_set, Purpose.after, set_idle hi, hhalt] at h₄
  refine ⟨.call i (.await .halt) :: .call i .seek :: (moves ++ [.call i .join]), ?_⟩
  refine run?_cons.2 ⟨_, h₁, run?_cons.2 ⟨_, h₂, ?_⟩⟩
  rw [run?_append h₃, run?_singleton, hhalt]
  exact h₄

end Alone

end Floor

end PseudoVm
