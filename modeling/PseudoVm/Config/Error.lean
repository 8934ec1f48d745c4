import PseudoVm.World.Disk
/-!
# Config.Error: why settings cannot be loaded
-/
namespace PseudoVm

/-- Why settings cannot be loaded. -/
inductive ConfigError
  | notFound (path : String)
  | unreadable (cause : DiskError)
  | malformed (path : String)
  | invalid (field reason : String)
  deriving DecidableEq, Repr

def ConfigError.message : ConfigError → String
  | .notFound path => "Configuration file not found: " ++ path
  | .unreadable cause => "Failed to read configuration file: " ++ cause.message
  | .malformed path => "Invalid TOML syntax in " ++ path
  | .invalid field reason => "Invalid value for '" ++ field ++ "': " ++ reason

/-- The log levels, from the quietest. -/
def logLevels : List String := ["off", "error", "warn", "info", "debug", "trace"]

/-- A level has to be one of the log levels. -/
def checkLevel (field level : String) : Except ConfigError Unit :=
  if level ∈ logLevels then .ok ()
  else .error (.invalid field ("must be one of " ++ String.intercalate ", " logLevels ++ ", got '" ++ level ++ "'"))

def checkPositive (field : String) (n : Nat) : Except ConfigError Unit :=
  if n = 0 then .error (.invalid field "must be greater than zero") else .ok ()

end PseudoVm
