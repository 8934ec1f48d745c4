import PseudoVm.Config.Error
import PseudoVm.Toml.Parser
/-!
# Config.Layer: the settings of one file

A file sets any of six keys in three tables.  A table is opened once: by a header, by keys with dots, or as one
value, a table in braces or the values of all its keys in order.  Unknown tables and keys, repeated keys and
values of the wrong type make the whole file unusable.
-/
namespace PseudoVm

/-- The settings that one source makes. -/
structure Layer where
  maxInstructions : Option Nat := none
  maxStackDepth : Option Nat := none
  seed : Option Nat := none
  stopOnEntry : Option Bool := none
  noDebug : Option Bool := none
  level : Option String := none
  deriving DecidableEq, Repr, Inhabited

namespace Layer

/-- A setting made once. -/
def once {α : Type} (old : Option α) (new : Option α) : Option (Option α) :=
  match old, new with
  | none, some v => some (some v)
  | _, _ => none

def count? : Toml.Value → Option Nat
  | .int n => if 0 ≤ n then some n.toNat else none
  | _ => none

def truth? : Toml.Value → Option Bool
  | .bool b => some b
  | _ => none

def text? : Toml.Value → Option String
  | .str s => some s
  | _ => none

def assign? (l : Layer) (table key : String) (v : Toml.Value) : Option Layer :=
  match table, key with
  | "vm", "max_instructions" => (once l.maxInstructions (count? v)).map fun n => { l with maxInstructions := n }
  | "vm", "max_stack_depth" => (once l.maxStackDepth (count? v)).map fun n => { l with maxStackDepth := n }
  | "vm", "seed" => (once l.seed (count? v)).map fun n => { l with seed := n }
  | "debug", "stop_on_entry" => (once l.stopOnEntry (truth? v)).map fun b => { l with stopOnEntry := b }
  | "debug", "no_debug" => (once l.noDebug (truth? v)).map fun b => { l with noDebug := b }
  | "log", "level" => (once l.level (text? v)).map fun s => { l with level := s }
  | _, _ => none

/-- The keys of a table, in order; there is no other table. -/
def keys? : String → Option (List String)
  | "vm" => some ["max_instructions", "max_stack_depth", "seed"]
  | "debug" => some ["stop_on_entry", "no_debug"]
  | "log" => some ["level"]
  | _ => none

def assignAll? (l : Layer) (table : String) : List (List String × Toml.Value) → Option Layer
  | [] => some l
  | ([key], v) :: rest => do (← l.assign? table key v).assignAll? table rest
  | _ => none

def assignTable? (l : Layer) (table : String) : Toml.Value → Option Layer
  | .table entries => l.assignAll? table entries
  | .arr items => do
    let keys ← keys? table
    guard (keys.length ≤ items.length)
    l.assignAll? table ((keys.map fun key => [key]).zip items)
  | _ => none

/-- How a table was opened. -/
inductive Opened
  | header | dotted | whole
  deriving DecidableEq, Repr

/-- What has been read of a file: the table that the next entries belong to, and the tables opened. -/
structure Reading where
  layer : Layer := {}
  current : Option String := none
  opened : List (String × Opened) := []

def Reading.statement? (r : Reading) : Toml.Statement → Option Reading
  | .header [table] => do
    let _ ← keys? table
    guard (r.opened.lookup table).isNone
    return { r with current := some table, opened := (table, .header) :: r.opened }
  | .header _ => none
  | .entry path v =>
    match r.current, path with
    | some table, [key] => (r.layer.assign? table key v).map fun l => { r with layer := l }
    | none, [table, key] => do
      guard (r.opened.lookup table ≠ some .whole)
      let l ← r.layer.assign? table key v
      return { r with layer := l, opened := (table, .dotted) :: r.opened }
    | none, [table] => do
      let _ ← keys? table
      guard (r.opened.lookup table).isNone
      let l ← r.layer.assignTable? table v
      return { r with layer := l, opened := (table, .whole) :: r.opened }
    | _, _ => none

/-- Reads statements in order. -/
def Reading.statements? (r : Reading) : List Toml.Statement → Option Reading
  | [] => some r
  | s :: rest => do (← r.statement? s).statements? rest

def ofText? (text : String) : Option Layer := do
  let statements ← Toml.statements? text
  let r ← Reading.statements? {} statements
  return r.layer

def validate (l : Layer) : Except ConfigError Layer := do
  if let some n := l.maxInstructions then checkPositive "vm.max_instructions" n
  if let some n := l.maxStackDepth then checkPositive "vm.max_stack_depth" n
  if let some level := l.level then checkLevel "log.level" level
  return l

def ofFile (disk : Disk) (path : String) : Except ConfigError Layer :=
  match disk.readText path with
  | .error .notFound => .error (.notFound path)
  | .error e => .error (.unreadable e)
  | .ok text =>
    match ofText? text with
    | none => .error (.malformed path)
    | some l => l.validate

end Layer

end PseudoVm
