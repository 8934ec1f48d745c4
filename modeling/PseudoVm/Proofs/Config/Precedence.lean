import PseudoVm.Proofs.Config.Variables
import PseudoVm.Proofs.World.Ancestors
/-!
# Config.Precedence: which source a setting is taken from

What each part of loading answers is one relation: `Layer.InFile` for a file, `Says` for a variable, `InForce` for a key
over all its sources.  Loading succeeds exactly if every source that it reads is valid and the settings in force are
usable (`ofDirectory_eq_ok_iff`), and it reads the project's files up to the nearest one only (`ofDirectory_congr`).
-/
namespace PseudoVm

theorem Except.bind_eq_ok_iff {ε α β : Type} {x : Except ε α} {f : α → Except ε β} {b : β} :
    x >>= f = .ok b ↔ ∃ a, x = .ok a ∧ f a = .ok b := by
  refine ⟨Disk.bind_ok, ?_⟩
  rintro ⟨a, rfl, h⟩
  exact h

theorem Except.check_bind_eq_ok_iff {ε β : Type} {x : Except ε Unit} {f : Unit → Except ε β} {b : β} :
    x >>= f = .ok b ↔ x = .ok () ∧ f () = .ok b := by
  rw [Except.bind_eq_ok_iff]
  exact ⟨fun ⟨(), h⟩ => h, fun h => ⟨(), h⟩⟩

theorem checkPositive_eq_ok_iff {field : String} {n : Nat} : checkPositive field n = .ok () ↔ 0 < n := by
  unfold checkPositive
  split <;> simp <;> omega

theorem checkLevel_eq_ok_iff {field level : String} : checkLevel field level = .ok () ↔ level ∈ logLevels := by
  unfold checkLevel
  split <;> simp_all

/-! ## Files -/

namespace Layer

/-- Settings that are there are usable. -/
structure Usable (l : Layer) : Prop where
  maxInstructions : ∀ n, l.maxInstructions = some n → 0 < n
  maxStackDepth : ∀ n, l.maxStackDepth = some n → 0 < n
  level : ∀ level, l.level = some level → level ∈ logLevels

/-- The file at a path can be read, is well-formed and makes usable settings. -/
def InFile (disk : Disk) (path : String) (l : Layer) : Prop :=
  ∃ text, disk.readText path = .ok text ∧ ofText? text = some l ∧ l.Usable

theorem validate_eq_ok_iff {l l' : Layer} : l.validate = .ok l' ↔ l = l' ∧ l.Usable := by
  have hcheck : l.validate = .ok l' ↔ (∀ n, l.maxInstructions = some n → 0 < n) ∧
      (∀ n, l.maxStackDepth = some n → 0 < n) ∧ (∀ level, l.level = some level → level ∈ logLevels) ∧ l = l' := by
    unfold validate
    cases l.maxInstructions <;> cases l.maxStackDepth <;> cases l.level <;>
      simp [Except.check_bind_eq_ok_iff, checkPositive_eq_ok_iff, checkLevel_eq_ok_iff, pure, Except.pure]
  rw [hcheck]
  exact ⟨fun ⟨hi, hd, hl, h⟩ => ⟨h, hi, hd, hl⟩, fun ⟨h, hi, hd, hl⟩ => ⟨hi, hd, hl, h⟩⟩

theorem ofFile_eq_ok_iff {disk : Disk} {path : String} {l : Layer} : ofFile disk path = .ok l ↔ InFile disk path l := by
  unfold ofFile InFile
  split
  · next h => simp [h]
  · next h => simp [h]
  · next text h =>
    rw [h]
    split
    · next hnone => simp [hnone]
    · next made hsome =>
      rw [validate_eq_ok_iff]
      constructor
      · rintro ⟨rfl, husable⟩
        exact ⟨text, rfl, hsome, husable⟩
      · rintro ⟨text', htext, hmade, husable⟩
        obtain rfl := Except.ok.inj htext
        obtain rfl := Option.some_inj.1 (hsome.symm.trans hmade)
        exact ⟨rfl, husable⟩

end Layer

namespace Settings

variable {disk disk' : Disk} {env : Environment} {global : Option String} {start : String}

/-- What the global file makes: a missing file makes no settings, one that is there has to be valid. -/
def GlobalMakes (disk : Disk) (global : Option String) (base : Layer) : Prop :=
  (∃ path, global = some path ∧ disk.pathExists path = true ∧ Layer.InFile disk path base) ∨
    ((∀ path, global = some path → disk.pathExists path = false) ∧ base = {})

theorem globalLayer_eq_ok_iff {base : Layer} : globalLayer disk global = .ok base ↔ GlobalMakes disk global base := by
  have hnothing : Except.ok {} = Except.ok (ε := ConfigError) base ↔ base = {} :=
    ⟨fun h => (Except.ok.inj h).symm, fun h => congrArg Except.ok h.symm⟩
  unfold globalLayer GlobalMakes
  cases global with
  | none => simp [hnothing]
  | some path => cases hthere : disk.pathExists path <;> simp [hthere, Layer.ofFile_eq_ok_iff, hnothing]

/-- A project's file is there in `dir`, in a directory on the way up from `start`, and in no directory before it. -/
def Nearest (disk : Disk) (start : String) (before : List String) (dir : String) : Prop :=
  (∃ above, PathName.WayUp start (before ++ dir :: above)) ∧
    disk.pathExists (PathName.join dir projectFile) = true ∧
    ∀ d ∈ before, disk.pathExists (PathName.join d projectFile) = false

/-- What the project's file makes: the nearest one has to be valid, and none at all makes no settings. -/
def ProjectMakes (disk : Disk) (start : String) (root : Option String) (project : Layer) : Prop :=
  (∃ before dir, Nearest disk start before dir ∧ root = some dir ∧
      Layer.InFile disk (PathName.join dir projectFile) project) ∨
    ((∃ way, PathName.WayUp start way ∧ ∀ d ∈ way, disk.pathExists (PathName.join d projectFile) = false) ∧
      root = none ∧ project = {})

theorem projectRoot?_eq_some_iff {dir : String} :
    projectRoot? disk start = some dir ↔ ∃ before, Nearest disk start before dir := by
  unfold projectRoot? Nearest
  rw [List.find?_eq_some_iff_append]
  simp only [Bool.not_eq_true', PathName.ancestors_eq_iff_wayUp]
  constructor
  · rintro ⟨hthere, before, above, hway, hbefore⟩
    exact ⟨before, ⟨above, hway⟩, hthere, hbefore⟩
  · rintro ⟨before, ⟨above, hway⟩, hthere, hbefore⟩
    exact ⟨hthere, before, above, hway, hbefore⟩

theorem projectRoot?_eq_none_iff : projectRoot? disk start = none ↔
    ∃ way, PathName.WayUp start way ∧ ∀ d ∈ way, disk.pathExists (PathName.join d projectFile) = false := by
  unfold projectRoot?
  rw [List.find?_eq_none]
  simp only [Bool.not_eq_true, ← PathName.ancestors_eq_iff_wayUp, exists_eq_left']

theorem Nearest.projectRoot? {before : List String} {dir : String} (h : Nearest disk start before dir) :
    projectRoot? disk start = some dir := projectRoot?_eq_some_iff.2 ⟨before, h⟩

/-! ## Variables -/

/-- What a variable says, for a reading of texts: nothing if it is not set. -/
def Says {α : Type} (env : Environment) (name : String) (Reads : String → α → Prop) : Option α → Prop
  | none => env.lookup name = none
  | some value => ∃ text, env.lookup name = some text ∧ Reads text value

/-- A number, blanks around it aside. -/
def ReadsNumber (text : String) (n : Nat) : Prop := WritesWord (trimBlank text) n

/-- A truth value: three words in any case of their letters are true, and every other text is false. -/
def ReadsTruth (text : String) (b : Bool) : Prop :=
  b = true ↔ text.toLower = "true" ∨ text.toLower = "1" ∨ text.toLower = "yes"

/-- A level, in any case of its letters. -/
def ReadsLevel (text : String) (level : String) : Prop := lowerCase text = level

theorem variableNumber_eq_ok_iff {name : String} {said : Option Nat} :
    variableNumber env name = .ok said ↔ Says env name ReadsNumber said := by
  have hunique : ∀ {text : String} {n m : Nat}, ReadsNumber text n → (ReadsNumber text m ↔ n = m) := fun hn =>
    ⟨hn.unique, fun h => h ▸ hn⟩
  unfold variableNumber
  split
  · next hnone => cases said <;> simp [Says, hnone]
  · next text htext =>
    split
    · next n hn =>
      cases said <;> simp [Says, htext, hunique (wordOf?_eq_some_iff.1 hn)]
    · next hnone =>
      have hword : ∀ n, ¬ ReadsNumber text n := fun n hn => by
        rw [wordOf?_eq_some_iff.2 hn] at hnone
        cases hnone
      cases said <;> simp [Says, htext, hword]

theorem lookup_isYes_iff {name : String} {said : Option Bool} :
    (env.lookup name).map isYes = said ↔ Says env name ReadsTruth said := by
  have hreads : ∀ text b, isYes text = b ↔ ReadsTruth text b := fun text b => by
    unfold ReadsTruth
    rw [← isYes_iff]
    cases isYes text <;> cases b <;> simp
  cases h : env.lookup name <;> cases said <;> simp [Says, h, hreads]

theorem variableLevel_eq_ok_iff {name : String} {said : Option String} : variableLevel env name = .ok said ↔
    Says env name ReadsLevel said ∧ ∀ level, said = some level → level ∈ logLevels := by
  unfold variableLevel
  split
  · next hnone => cases said <;> simp [Says, hnone]
  · next text htext =>
    rw [Except.check_bind_eq_ok_iff, checkLevel_eq_ok_iff]
    cases said with
    | none => simp [Says, htext, pure, Except.pure]
    | some level =>
      simp only [pure, Except.pure, Says, ReadsLevel, htext, Option.some.injEq, exists_eq_left', Except.ok.injEq,
        forall_eq']
      constructor
      · rintro ⟨hlevel, rfl⟩
        exact ⟨rfl, hlevel⟩
      · rintro ⟨rfl, hlevel⟩
        exact ⟨hlevel, rfl⟩

/-- What the six variables say. -/
structure EnvironmentSays (env : Environment) (top : Layer) : Prop where
  maxInstructions : Says env "GADDIS_MAX_INSTRUCTIONS" ReadsNumber top.maxInstructions
  maxStackDepth : Says env "GADDIS_MAX_STACK_DEPTH" ReadsNumber top.maxStackDepth
  seed : Says env "GADDIS_SEED" ReadsNumber top.seed
  stopOnEntry : Says env "GADDIS_STOP_ON_ENTRY" ReadsTruth top.stopOnEntry
  noDebug : Says env "GADDIS_NO_DEBUG" ReadsTruth top.noDebug
  level : Says env "GADDIS_LOG_LEVEL" ReadsLevel top.level

theorem environmentLayer_eq_ok_iff {top : Layer} : environmentLayer env = .ok top ↔
    EnvironmentSays env top ∧ ∀ level, top.level = some level → level ∈ logLevels := by
  unfold environmentLayer
  simp only [Except.bind_eq_ok_iff, variableNumber_eq_ok_iff, variableLevel_eq_ok_iff, pure, Except.pure,
    Except.ok.injEq]
  constructor
  · rintro ⟨maxInstructions, hi, maxStackDepth, hd, seed, hs, level, ⟨hl, hallowed⟩, rfl⟩
    exact ⟨⟨hi, hd, hs, lookup_isYes_iff.1 rfl, lookup_isYes_iff.1 rfl, hl⟩, hallowed⟩
  · rintro ⟨h, hallowed⟩
    refine ⟨_, h.maxInstructions, _, h.maxStackDepth, _, h.seed, _, ⟨h.level, hallowed⟩, ?_⟩
    rw [lookup_isYes_iff.2 h.stopOnEntry, lookup_isYes_iff.2 h.noDebug]

/-! ## Layers -/

/-- The value in force for a key: what its variable says, or else what the project's file sets, or else what the global
file sets, or else the default. -/
def InForce {α : Type} (env : Environment) (name : String) (Reads : String → α → Prop)
    (project global default value : Option α) : Prop :=
  ∃ said, Says env name Reads said ∧ value = said.or (project.or (global.or default))

/-- The settings in force over the layers of the two files. -/
structure SettingsInForce (env : Environment) (project base : Layer) (s : Settings) : Prop where
  maxInstructions : InForce env "GADDIS_MAX_INSTRUCTIONS" ReadsNumber project.maxInstructions base.maxInstructions
    (some (2 ^ 30)) (some s.limits.maxInstructions)
  maxStackDepth : InForce env "GADDIS_MAX_STACK_DEPTH" ReadsNumber project.maxStackDepth base.maxStackDepth
    (some 1024) (some s.limits.maxStackDepth)
  seed : InForce env "GADDIS_SEED" ReadsNumber project.seed base.seed none s.seed
  stopOnEntry : InForce env "GADDIS_STOP_ON_ENTRY" ReadsTruth project.stopOnEntry base.stopOnEntry (some false)
    (some s.stopOnEntry)
  noDebug : InForce env "GADDIS_NO_DEBUG" ReadsTruth project.noDebug base.noDebug (some false) (some s.noDebug)
  level : InForce env "GADDIS_LOG_LEVEL" ReadsLevel project.level base.level (some "warn") (some s.level)

theorem settingsInForce_iff {project base : Layer} {s : Settings} : SettingsInForce env project base s ↔
    ∃ top, EnvironmentSays env top ∧ s = ((apply {} base).apply project).apply top := by
  constructor
  · rintro ⟨⟨i, hi, hi'⟩, ⟨d, hd, hd'⟩, ⟨sd, hs, hs'⟩, ⟨e, he, he'⟩, ⟨n, hn, hn'⟩, ⟨l, hl, hl'⟩⟩
    refine ⟨⟨i, d, sd, e, n, l⟩, ⟨hi, hd, hs, he, hn, hl⟩, ?_⟩
    obtain ⟨⟨mi, md⟩, seed, entry, noDebug, level⟩ := s
    simp_all [apply]
  · rintro ⟨top, h, rfl⟩
    exact ⟨⟨_, h.maxInstructions, by simp [apply]⟩, ⟨_, h.maxStackDepth, by simp [apply]⟩,
      ⟨_, h.seed, by simp [apply]⟩, ⟨_, h.stopOnEntry, by simp [apply]⟩, ⟨_, h.noDebug, by simp [apply]⟩,
      ⟨_, h.level, by simp [apply]⟩⟩

/-- Settings that a run can use. -/
structure Usable (s : Settings) : Prop where
  maxInstructions : 0 < s.limits.maxInstructions
  maxStackDepth : 0 < s.limits.maxStackDepth
  level : s.level ∈ ["off", "error", "warn", "info", "debug", "trace"]

theorem validate_eq_ok_iff {s s' : Settings} : s.validate = .ok s' ↔ s = s' ∧ s.Usable := by
  unfold validate
  simp only [Except.check_bind_eq_ok_iff, checkPositive_eq_ok_iff, checkLevel_eq_ok_iff, pure, Except.pure,
    Except.ok.injEq]
  exact ⟨fun ⟨hi, hd, hl, h⟩ => ⟨h, hi, hd, hl⟩, fun ⟨h, hi, hd, hl⟩ => ⟨hi, hd, hl, h⟩⟩

theorem ofLayers_eq_ok_iff {project base : Layer} {s : Settings} :
    ofLayers env [base, project] = .ok s ↔ SettingsInForce env project base s ∧ s.Usable := by
  unfold ofLayers
  rw [Except.bind_eq_ok_iff, settingsInForce_iff]
  simp only [List.foldl_cons, List.foldl_nil, environmentLayer_eq_ok_iff, validate_eq_ok_iff]
  constructor
  · rintro ⟨top, ⟨hsaid, -⟩, rfl, husable⟩
    exact ⟨⟨top, hsaid, rfl⟩, husable⟩
  · rintro ⟨⟨top, hsaid, rfl⟩, husable⟩
    refine ⟨top, ⟨hsaid, fun level hlevel => ?_⟩, rfl, husable⟩
    have hallowed := husable.level
    simp only [apply, hlevel, Option.getD_some] at hallowed
    exact hallowed

/-- **Loading succeeds exactly if every source that is read is valid and the settings in force are usable.** -/
theorem ofDirectory_eq_ok_iff {c : Configuration} : ofDirectory disk env global start = .ok c ↔
    ∃ base project, GlobalMakes disk global base ∧ ProjectMakes disk start c.root project ∧
      SettingsInForce env project base c.settings ∧ c.settings.Usable := by
  have hpair : ∀ {base project : Layer} {root : Option String},
      (do return (⟨← ofLayers env [base, project], root⟩ : Configuration)) = Except.ok c ↔
        root = c.root ∧ SettingsInForce env project base c.settings ∧ c.settings.Usable := by
    intro base project root
    simp only [Except.bind_eq_ok_iff, ofLayers_eq_ok_iff, pure, Except.pure, Except.ok.injEq]
    constructor
    · rintro ⟨s, hs, rfl⟩
      exact ⟨rfl, hs⟩
    · rintro ⟨rfl, hs⟩
      exact ⟨c.settings, hs, rfl⟩
  unfold ofDirectory
  simp only [Except.bind_eq_ok_iff (x := globalLayer disk global), globalLayer_eq_ok_iff]
  refine exists_congr fun base => ?_
  rw [exists_and_left]
  refine and_congr_right fun _ => ?_
  cases hroot : projectRoot? disk start with
  | none =>
    have hnone := projectRoot?_eq_none_iff.1 hroot
    have hempty : ofLayers env [base] = ofLayers env [base, {}] := rfl
    simp only [hempty]
    rw [hpair]
    constructor
    · rintro ⟨hc, h⟩
      exact ⟨{}, .inr ⟨hnone, hc.symm, rfl⟩, h⟩
    · rintro ⟨project, ⟨before, dir, hnearest, -⟩ | ⟨-, hc, rfl⟩, h⟩
      · cases hroot.symm.trans hnearest.projectRoot?
      · exact ⟨hc.symm, h⟩
  | some dir =>
    obtain ⟨before, hnearest⟩ := projectRoot?_eq_some_iff.1 hroot
    simp only [Except.bind_eq_ok_iff (x := Layer.ofFile disk _), Layer.ofFile_eq_ok_iff, hpair]
    refine exists_congr fun project => ?_
    constructor
    · rintro ⟨hfile, hc, h⟩
      exact ⟨.inl ⟨before, dir, hnearest, hc.symm, hfile⟩, h⟩
    · rintro ⟨⟨before', dir', hnearest', hc, hfile⟩ | ⟨hnone, -⟩, h⟩
      · obtain rfl := Option.some_inj.1 (hroot.symm.trans hnearest'.projectRoot?)
        exact ⟨hfile, hc.symm, h⟩
      · cases hroot.symm.trans (projectRoot?_eq_none_iff.2 hnone)

/-- Two disks have the same at a path, as far as a loader can tell. -/
structure SameAt (disk disk' : Disk) (path : String) : Prop where
  pathExists : disk'.pathExists path = disk.pathExists path
  readText : disk'.readText path = disk.readText path

theorem SameAt.ofFile_eq {path : String} (h : SameAt disk disk' path) :
    Layer.ofFile disk' path = Layer.ofFile disk path := by
  unfold Layer.ofFile
  rw [h.readText]

theorem globalLayer_congr (h : ∀ path, global = some path → SameAt disk disk' path) :
    globalLayer disk' global = globalLayer disk global := by
  cases global with
  | none => rfl
  | some path =>
    unfold globalLayer
    simp only [(h path rfl).pathExists, (h path rfl).ofFile_eq]

theorem Nearest.congr {before : List String} {dir : String} (h : Nearest disk start before dir)
    (hsame : ∀ d ∈ dir :: before, SameAt disk disk' (PathName.join d projectFile)) :
    Nearest disk' start before dir := by
  obtain ⟨hway, hthere, hbefore⟩ := h
  refine ⟨hway, ?_, fun d hd => ?_⟩
  · rw [(hsame dir List.mem_cons_self).pathExists, hthere]
  · rw [(hsame d (List.mem_cons_of_mem dir hd)).pathExists, hbefore d hd]

/-- **What lies further up than the nearest project's file is not looked at.** -/
theorem ofDirectory_congr {before : List String} {dir : String} (h : Nearest disk start before dir)
    (hglobal : ∀ path, global = some path → SameAt disk disk' path)
    (hsame : ∀ d ∈ dir :: before, SameAt disk disk' (PathName.join d projectFile)) :
    ofDirectory disk' env global start = ofDirectory disk env global start := by
  unfold ofDirectory
  rw [globalLayer_congr hglobal, (h.congr hsame).projectRoot?, h.projectRoot?]
  simp only [(hsame dir List.mem_cons_self).ofFile_eq]

theorem exists_error_of_not_ok {ε α : Type} {x : Except ε α} (h : ∀ a, x ≠ .ok a) : ∃ e, x = .error e := by
  cases x with
  | error e => exact ⟨e, rfl⟩
  | ok a => exact absurd rfl (h a)

/-- **Precedence of the sources of settings.**  Every key is taken from its variable, or else from the nearest project's
file, or else from the global file, or else it has its default, and the settings in force are usable.  An invalid global
file or an invalid nearest file fails, whatever the other sources say, and files further up than the nearest one make no
difference. -/
theorem ofDirectory_precedence (disk : Disk) (env : Environment) (global : Option String) (start : String) :
    (∀ c, ofDirectory disk env global start = .ok c ↔ ∃ base project, GlobalMakes disk global base ∧
      ProjectMakes disk start c.root project ∧ SettingsInForce env project base c.settings ∧ c.settings.Usable) ∧
    (∀ path, global = some path → disk.pathExists path = true → (∀ l, ¬ Layer.InFile disk path l) →
      ∃ e, ofDirectory disk env global start = .error e) ∧
    ∀ before dir, Nearest disk start before dir →
      ((∀ l, ¬ Layer.InFile disk (PathName.join dir projectFile) l) →
        ∃ e, ofDirectory disk env global start = .error e) ∧
      ∀ disk', (∀ path, global = some path → SameAt disk disk' path) →
        (∀ d ∈ dir :: before, SameAt disk disk' (PathName.join d projectFile)) →
        ofDirectory disk' env global start = ofDirectory disk env global start := by
  refine ⟨fun c => ofDirectory_eq_ok_iff, fun path hpath hthere hinvalid => ?_, fun before dir hnearest =>
    ⟨fun hinvalid => ?_, fun disk' hglobal hsame => ofDirectory_congr hnearest hglobal hsame⟩⟩
  · refine exists_error_of_not_ok fun c hc => ?_
    obtain ⟨base, project, hbase, -⟩ := ofDirectory_eq_ok_iff.1 hc
    obtain ⟨path', hpath', -, hfile⟩ | ⟨hmissing, -⟩ := hbase
    · obtain rfl := Option.some_inj.1 (hpath.symm.trans hpath')
      exact hinvalid base hfile
    · cases (hmissing path hpath).symm.trans hthere
  · refine exists_error_of_not_ok fun c hc => ?_
    obtain ⟨base, project, -, hproject, -⟩ := ofDirectory_eq_ok_iff.1 hc
    obtain ⟨before', dir', hnearest', -, hfile⟩ | ⟨hmissing, -⟩ := hproject
    · obtain rfl := Option.some_inj.1 (hnearest.projectRoot?.symm.trans hnearest'.projectRoot?)
      exact hinvalid project hfile
    · cases hnearest.projectRoot?.symm.trans (projectRoot?_eq_none_iff.2 hmissing)

theorem pathExists_of_leads {text : String} {path : Path} {content : Bytes} (h : disk.Leads text path content) :
    disk.pathExists text = true := by
  unfold Disk.pathExists
  rw [h.openInput]
  rfl

theorem inFile_of_leads {path : String} {at' : Path} {text : String} {l : Layer}
    (h : disk.Leads path at' (bytesOf text)) (hl : Layer.ofText? text = some l) (husable : l.Usable) :
    Layer.InFile disk path l := ⟨text, h.readText, hl, husable⟩

theorem sameAt_of_leads {text : String} {path path' : Path} {content : Bytes} (h : disk.Leads text path content)
    (h' : disk'.Leads text path' content) : SameAt disk disk' text where
  pathExists := by rw [pathExists_of_leads h, pathExists_of_leads h']
  readText := by unfold Disk.readText; rw [h.readFile, h'.readFile]

theorem sameAt_of_missing {text : String} {e : DiskError} (h : disk.openInput text = .error e)
    (h' : disk'.openInput text = .error e) : SameAt disk disk' text where
  pathExists := by unfold Disk.pathExists; rw [h, h']
  readText := by unfold Disk.readText Disk.readFile; rw [h, h']; rfl

/-- A global file, and a project's files in `lessons` and in the directory above it. -/
def lessonsDisk (base project upper : String) : Disk where
  entries := [(["config.toml"], .file (bytesOf base)), (["lessons"], .dir), (["lessons", "one"], .dir),
    (["lessons", "gaddis.toml"], .file (bytesOf project)), (["gaddis.toml"], .file (bytesOf upper))]

/-- Variables for a run in it. -/
def lessonsEnvironment : Environment :=
  [("GADDIS_SEED", " +7 "), ("GADDIS_STOP_ON_ENTRY", "yEs"), ("GADDIS_LOG_LEVEL", "Trace")]

theorem join_projectFile : PathName.join "lessons/one" projectFile = "lessons/one/gaddis.toml" ∧
    PathName.join "lessons" projectFile = "lessons/gaddis.toml" ∧ PathName.join "" projectFile = "gaddis.toml" := by
  decide +kernel

theorem names_lessons : Disk.names "config.toml" = .ok ["config.toml"] ∧
    Disk.names "gaddis.toml" = .ok ["gaddis.toml"] ∧
    Disk.names "lessons/gaddis.toml" = .ok ["lessons", "gaddis.toml"] ∧
    Disk.names "lessons/one/gaddis.toml" = .ok ["lessons", "one", "gaddis.toml"] := by
  unfold Disk.names
  simp only [String.contains_char_eq]
  decide +kernel

theorem noSlash_lessons : ∀ text ∈ ["config.toml", "gaddis.toml", "lessons/gaddis.toml"], text.endsWith "/" = false := by
  decide +kernel

variable (base project upper : String)

theorem leads_config : (lessonsDisk base project upper).Leads "config.toml" ["config.toml"] (bytesOf base) :=
  ⟨⟨_, names_lessons.1, rfl⟩, noSlash_lessons _ (by simp), rfl⟩

theorem leads_project :
    (lessonsDisk base project upper).Leads "lessons/gaddis.toml" ["lessons", "gaddis.toml"] (bytesOf project) :=
  ⟨⟨_, names_lessons.2.2.1, rfl⟩, noSlash_lessons _ (by simp), rfl⟩

theorem leads_upper : (lessonsDisk base project upper).Leads "gaddis.toml" ["gaddis.toml"] (bytesOf upper) :=
  ⟨⟨_, names_lessons.2.1, rfl⟩, noSlash_lessons _ (by simp), rfl⟩

theorem openInput_missing :
    (lessonsDisk base project upper).openInput "lessons/one/gaddis.toml" = .error .notFound := by
  unfold Disk.openInput
  rw [names_lessons.2.2.2]
  rfl

theorem nearest_lessons : Nearest (lessonsDisk base project upper) "lessons/one" ["lessons/one"] "lessons" := by
  refine ⟨⟨[""], PathName.ancestors_eq_iff_wayUp.1 (by decide)⟩, ?_, fun d hd => ?_⟩
  · rw [join_projectFile.2.1]
    exact pathExists_of_leads (leads_project base project upper)
  · rw [List.mem_singleton.1 hd, join_projectFile.1]
    unfold Disk.pathExists
    rw [openInput_missing]
    rfl

/-- The variables, the nearest file and the global file each have their say.  The file further up cannot be read: a run
that is started up there fails, or one that takes it for the global file, and to a run that is started below it makes no
difference. -/
theorem ofDirectory_precedence_lessons :
    let base := "[debug]\nno_debug = true\n[vm]\nseed = 1\n"
    let project := "[vm]\nmax_stack_depth = 64\nseed = 2\n[log]\nlevel = \"info\"\n"
    let disk := lessonsDisk base project "[vm"
    ofDirectory disk lessonsEnvironment (some "config.toml") "lessons/one" =
      .ok ⟨⟨⟨2 ^ 30, 64⟩, some 7, true, true, "trace"⟩, some "lessons"⟩ ∧
    ofDirectory (lessonsDisk base project "") lessonsEnvironment (some "config.toml") "lessons/one" =
      ofDirectory disk lessonsEnvironment (some "config.toml") "lessons/one" ∧
    (∃ e, ofDirectory disk lessonsEnvironment (some "config.toml") "" = .error e) ∧
    ∃ e, ofDirectory disk lessonsEnvironment (some "gaddis.toml") "lessons/one" = .error e := by
  intro base project disk
  have hupper := leads_upper base project "[vm"
  have hmalformed : ∀ l, ¬ Layer.InFile disk "gaddis.toml" l := by
    rintro l ⟨text, htext, hl, -⟩
    have hnone : Layer.ofText? "[vm" = none := by decide
    rw [hupper.readText] at htext
    rw [← Except.ok.inj htext, hnone] at hl
    cases hl
  have hroot : Nearest disk "" [] "" :=
    ⟨⟨[], .top (by decide)⟩, by rw [join_projectFile.2.2]; exact pathExists_of_leads hupper, nofun⟩
  refine ⟨?_, ?_, ?_, ?_⟩
  · refine ((ofDirectory_precedence disk lessonsEnvironment (some "config.toml") "lessons/one").1 _).2
      ⟨{ noDebug := some true, seed := some 1 }, { maxStackDepth := some 64, seed := some 2, level := some "info" },
        .inl ⟨_, rfl, pathExists_of_leads (leads_config base project _), ?_⟩,
        .inl ⟨_, _, nearest_lessons base project _, rfl, ?_⟩,
        ⟨⟨none, rfl, rfl⟩, ⟨none, rfl, rfl⟩, ⟨some 7, ⟨_, rfl, ?_⟩, rfl⟩, ⟨some true, ⟨_, rfl, ?_⟩, rfl⟩,
          ⟨none, rfl, rfl⟩, ⟨some "trace", ⟨_, rfl, ?_⟩, rfl⟩⟩,
        ⟨by decide, by decide, by decide⟩⟩
    · exact inFile_of_leads (leads_config base project _) (by decide +kernel) ⟨by simp, by simp, by simp⟩
    · rw [join_projectFile.2.1]
      exact inFile_of_leads (leads_project base project _) (by decide +kernel) ⟨by simp, by simp, by simp [logLevels]⟩
    · exact wordOf?_eq_some_iff.1 (by decide)
    · exact ⟨fun _ => .inr (.inr (by decide +kernel)), fun _ => rfl⟩
    · exact (by decide : lowerCase "Trace" = "trace")
  · refine ((ofDirectory_precedence disk lessonsEnvironment (some "config.toml") "lessons/one").2.2 _ _
      (nearest_lessons base project _)).2 (lessonsDisk base project "") ?_ ?_
    · rintro path ⟨⟩
      exact sameAt_of_leads (leads_config base project _) (leads_config base project _)
    · intro d hd
      obtain rfl | rfl : d = "lessons" ∨ d = "lessons/one" := by simpa using hd
      · rw [join_projectFile.2.1]
        exact sameAt_of_leads (leads_project base project _) (leads_project base project _)
      · rw [join_projectFile.1]
        exact sameAt_of_missing (openInput_missing base project _) (openInput_missing base project _)
  · refine ((ofDirectory_precedence disk lessonsEnvironment (some "config.toml") "").2.2 [] "" hroot).1 ?_
    rw [join_projectFile.2.2]
    exact hmalformed
  · exact (ofDirectory_precedence disk lessonsEnvironment _ "lessons/one").2.1 _ rfl (pathExists_of_leads hupper)
      hmalformed

end Settings

end PseudoVm
