import PseudoVm.Config.Layer
import PseudoVm.Machine.Basic
import PseudoVm.Text.Blank
import PseudoVm.Text.LowerCase
import PseudoVm.World.PathName
/-!
# Config.Settings: settings from all sources

Settings are built in layers, of which the later win: defaults, a global file, the file of the project,
variables of the environment.  The project's file is the nearest one upward from the directory the search starts
in.
-/
namespace PseudoVm

abbrev Environment := List (String × String)

/-- Settings in force. -/
structure Settings where
  limits : Limits := {}
  seed : Option Nat := none
  stopOnEntry : Bool := false
  noDebug : Bool := false
  level : String := "warn"
  deriving DecidableEq, Repr, Inhabited

/-- Settings and the directory of the project's file, if there is one. -/
structure Configuration where
  settings : Settings
  root : Option String
  deriving DecidableEq, Repr, Inhabited

namespace Settings

def apply (s : Settings) (l : Layer) : Settings :=
  { limits := ⟨l.maxInstructions.getD s.limits.maxInstructions, l.maxStackDepth.getD s.limits.maxStackDepth⟩
    seed := l.seed.or s.seed
    stopOnEntry := l.stopOnEntry.getD s.stopOnEntry
    noDebug := l.noDebug.getD s.noDebug
    level := l.level.getD s.level }

def validate (s : Settings) : Except ConfigError Settings := do
  checkPositive "vm.max_instructions" s.limits.maxInstructions
  checkPositive "vm.max_stack_depth" s.limits.maxStackDepth
  checkLevel "log.level" s.level
  return s

/-- A number in a variable, blanks around it aside. -/
def variableNumber (env : Environment) (name : String) : Except ConfigError (Option Nat) :=
  match env.lookup name with
  | none => .ok none
  | some value =>
    match wordOf? (trimBlank value) with
    | some n => .ok (some n)
    | none => .error (.invalid name ("expected a non-negative integer, got '" ++ value ++ "'"))

/-- A truth value in a variable: three words are true, everything else is false. -/
def isYes (value : String) : Bool := lowerCase value ∈ ["true", "1", "yes"]

/-- A level in a variable, in any case. -/
def variableLevel (env : Environment) (name : String) : Except ConfigError (Option String) :=
  match env.lookup name with
  | none => .ok none
  | some value => do
    checkLevel name (lowerCase value)
    return some (lowerCase value)

def environmentLayer (env : Environment) : Except ConfigError Layer := do
  let maxInstructions ← variableNumber env "GADDIS_MAX_INSTRUCTIONS"
  let maxStackDepth ← variableNumber env "GADDIS_MAX_STACK_DEPTH"
  let seed ← variableNumber env "GADDIS_SEED"
  let level ← variableLevel env "GADDIS_LOG_LEVEL"
  return { maxInstructions, maxStackDepth, seed,
           stopOnEntry := (env.lookup "GADDIS_STOP_ON_ENTRY").map isYes,
           noDebug := (env.lookup "GADDIS_NO_DEBUG").map isYes, level }

/-- The layer of the global file; a missing file makes no settings. -/
def globalLayer (disk : Disk) (path : Option String) : Except ConfigError Layer :=
  match path with
  | none => .ok {}
  | some path => if disk.pathExists path then Layer.ofFile disk path else .ok {}

def projectFile : String := "gaddis.toml"

/-- The nearest directory upward that holds a project's file. -/
def projectRoot? (disk : Disk) (start : String) : Option String :=
  (PathName.ancestors start).find? fun dir => disk.pathExists (PathName.join dir projectFile)

/-- Layers put over the defaults, with the environment on top. -/
def ofLayers (env : Environment) (layers : List Layer) : Except ConfigError Settings := do
  let top ← environmentLayer env
  ((layers.foldl apply {}).apply top).validate

/-- **Settings for a run started in a directory.** -/
def ofDirectory (disk : Disk) (env : Environment) (global : Option String) (start : String) :
    Except ConfigError Configuration := do
  let base ← globalLayer disk global
  match projectRoot? disk start with
  | none => return ⟨← ofLayers env [base], none⟩
  | some root =>
    let project ← Layer.ofFile disk (PathName.join root projectFile)
    return ⟨← ofLayers env [base, project], some root⟩

/-- **Settings for a run with a given project file.** -/
def ofFile (disk : Disk) (env : Environment) (global : Option String) (path : String) :
    Except ConfigError Configuration := do
  let base ← globalLayer disk global
  let project ← Layer.ofFile disk path
  return ⟨← ofLayers env [base, project], PathName.parent? path⟩

end Settings

end PseudoVm
