import PseudoVm.Config.Settings
/-!
# Cli.Arguments: what the command line asks for

Arguments are read from left to right, and the first that is not understood ends the reading, as does a request
for the version.  Options may stand before and after the image; everything after a double dash is no option.  An
option is given once, except for breakpoints.  Only a value before the command that is an argument of its own is
looked at later, after the command.
-/
namespace PseudoVm

namespace Cli

/-- What an option takes. -/
inductive Kind
  | flag
  | text
  /-- A text that is not empty. -/
  | path
  | number
  /-- A number, any number of times. -/
  | numbers
  deriving DecidableEq, Repr

def Kind.accepts (value : String) : Kind → Bool
  | .flag | .text => true
  | .path => value != ""
  | .number | .numbers => (wordOf? value).isSome

/-- An option by its long name, and by a letter if it has one. -/
structure OptionSpec where
  name : String
  letter : Option Char
  kind : Kind
  deriving DecidableEq, Repr

/-- How reading the arguments ends if no command is to be carried out. -/
inductive Ending
  | rejected
  | help
  | version (program : String)
  deriving DecidableEq, Repr

/-- What the arguments have given so far: options with their values, and other arguments. -/
structure Given where
  options : List (String × String) := []
  others : List String := []
  deriving DecidableEq, Repr

namespace Given

def value? (g : Given) (name : String) : Option String := g.options.lookup name

def number? (g : Given) (name : String) : Option Nat := (g.value? name).bind wordOf?

/-- The numbers that an option gives, in order. -/
def numbers (g : Given) (name : String) : List Nat :=
  (g.options.filter (·.1 == name)).filterMap fun o => wordOf? o.2

def has (g : Given) (name : String) : Bool := (g.value? name).isSome

def add (g : Given) (spec : OptionSpec) (value : String) : Except Ending Given :=
  if spec.kind.accepts value && (spec.kind == .numbers || !g.has spec.name) then
    .ok { g with options := g.options ++ [(spec.name, value)] }
  else .error .rejected

/-- Adds another argument, of which there is at most one. -/
def addOther (g : Given) (value : String) : Except Ending Given :=
  if value = "" ∨ g.others ≠ [] then .error .rejected else .ok { g with others := [value] }

end Given

/-- Whether an argument is an option where one may stand. -/
def isOption (arg : String) : Bool := arg.startsWith "-" && arg != "-"

/-- The name and, after an equals sign, the value in a long option. -/
def splitLong (arg : List Char) : String × Option String :=
  let name := String.ofList (arg.takeWhile (· != '='))
  match arg.dropWhile (· != '=') with
  | _ :: value => (name, some (String.ofList value))
  | [] => (name, none)

/-- An option as it stands on the command line: which it is, and the value that is part of the argument. -/
def option? (specs : List OptionSpec) (program : String) (arg : String) :
    Except Ending (OptionSpec × Option String) :=
  match arg.toList with
  | '-' :: '-' :: long =>
    match splitLong long with
    | ("help", none) => .error .help
    | ("version", none) => .error (.version program)
    | (name, value) =>
      match specs.find? (·.name == name) with
      | some spec => .ok (spec, value)
      | none => .error .rejected
  | _ :: 'h' :: _ => .error .help
  | _ :: 'V' :: _ => .error (.version program)
  | _ :: letter :: value =>
    match specs.find? (·.letter == some letter) with
    | none => .error .rejected
    | some spec =>
      .ok (spec, match value with
        | [] => none
        | '=' :: value => some (String.ofList value)
        | value => some (String.ofList value))
  | _ => .error .rejected

/-- Reads the arguments of a command; `waiting` is an option whose value comes next. -/
def scan (specs : List OptionSpec) (program : String) (waiting : Option OptionSpec) (g : Given) :
    List String → Except Ending Given
  | [] => if waiting.isSome then .error .rejected else .ok g
  | arg :: rest =>
    match waiting with
    | some spec =>
      if isOption arg then .error .rejected else (g.add spec arg).bind fun g => scan specs program none g rest
    | none =>
      if arg = "--" then rest.foldlM Given.addOther g
      else if isOption arg then
        match option? specs program arg with
        | .error e => .error e
        | .ok (spec, inner) =>
          match spec.kind, inner with
          | .flag, none => (g.add spec "").bind fun g => scan specs program none g rest
          | .flag, some _ => .error .rejected
          | _, some value => (g.add spec value).bind fun g => scan specs program none g rest
          | _, none => scan specs program (some spec) g rest
      else (g.addOther arg).bind fun g => scan specs program none g rest

/-- What is to be done. -/
inductive Command
  | run (image : String) (seed maxInstructions : Option Nat) (fileName : Option String)
  | disasm (image : String) (source : Option String)
  | test (image : String) (seed : Option Nat)
  | debug (image : String) (source : Option String) (breakpoints : List Nat) (stopOnEntry : Bool)
      (seed : Option Nat) (noHistory : Bool)
  deriving DecidableEq, Repr

/-- What is to be done, and the settings file to be used. -/
structure Invocation where
  config : Option String
  command : Command
  deriving DecidableEq, Repr

def programName : String := "gaddis"

def configOption : OptionSpec := ⟨"config", none, .path⟩

def fullName? : String → Option String
  | "run" | "r" => some "run"
  | "disasm" => some "disasm"
  | "test" | "t" => some "test"
  | "debug" | "d" => some "debug"
  | _ => none

def optionsOf : String → List OptionSpec
  | "run" => [configOption, ⟨"seed", none, .number⟩, ⟨"max-instructions", none, .number⟩, ⟨"file-name", none, .text⟩]
  | "disasm" => [configOption, ⟨"source", some 's', .path⟩]
  | "test" => [configOption, ⟨"seed", none, .number⟩]
  | _ => [configOption, ⟨"source", some 's', .path⟩, ⟨"break", some 'b', .numbers⟩, ⟨"stop-on-entry", none, .flag⟩,
      ⟨"seed", none, .number⟩, ⟨"no-history", none, .flag⟩]

def commandOf (name image : String) (g : Given) : Command :=
  match name with
  | "run" => .run image (g.number? "seed") (g.number? "max-instructions") (g.value? "file-name")
  | "disasm" => .disasm image (g.value? "source")
  | "test" => .test image (g.number? "seed")
  | _ => .debug image (g.value? "source") (g.numbers "break") (g.has "stop-on-entry") (g.number? "seed")
      (g.has "no-history")

/-- The settings file: the option wins over the variable, and the option after the command over one before it.
A variable that is set has to name a file where no option stands in for it. -/
def configOf (env : Environment) (before after : Option String) : Except Ending (Option String) :=
  match env.lookup "GADDIS_CONFIG" with
  | none => .ok (after.or before)
  | some path =>
    if path = "" ∧ (before.isNone ∨ after.isNone) then .error .rejected else .ok ((after.or before).or (some path))

/-- Asking for help on a command, or for help on that. -/
def parseHelp : List String → Ending
  | [] => .help
  | [name] => if name = "help" ∨ (fullName? name).isSome then .help else .rejected
  | _ => .rejected

/-- The command with its arguments; what stands before it counts only once it is read. -/
def parseCommand (env : Environment) (before : Except Ending Given) (name : String) (args : List String) :
    Except Ending Invocation := do
  match fullName? name with
  | none => .error (if name = "help" then parseHelp args else .rejected)
  | some name =>
    let g ← scan (optionsOf name) (programName ++ "-" ++ name) none {} args
    let before ← before
    match g.others with
    | [image] => return ⟨← configOf env (before.value? "config") (g.value? "config"), commandOf name image g⟩
    | _ => .error .rejected

/-- The value of the option before the command: nothing is open, or the next argument is the value, or it was given
in an argument of its own and is not taken yet. -/
inductive Open
  | nothing
  | awaited
  | held (value : String)
  deriving DecidableEq, Repr

def Given.take (g : Given) : Open → Except Ending Given
  | .held value => g.add configOption value
  | _ => .ok g

/-- The options before the command, and the command.  A value in an argument of its own is taken when the next option
comes or after the command, whose arguments may have ended the reading by then. -/
def parseFrom (env : Environment) (state : Open) (g : Given) : List String → Except Ending Invocation
  | [] => .error .rejected
  | arg :: rest =>
    if state = .awaited then
      if isOption arg then .error .rejected else parseFrom env (.held arg) g rest
    else if isOption arg then
      (g.take state).bind fun g =>
        match option? [configOption] programName arg with
        | .error e => .error e
        | .ok (spec, some value) => (g.add spec value).bind fun g => parseFrom env .nothing g rest
        | .ok (_, none) => parseFrom env .awaited g rest
    else parseCommand env (g.take state) arg rest

/-- **What the arguments ask for.** -/
def parse (env : Environment) (args : List String) : Except Ending Invocation := parseFrom env .nothing {} args

end Cli

end PseudoVm
