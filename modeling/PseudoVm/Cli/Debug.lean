import PseudoVm.Cli.Host
import PseudoVm.Debugger.Execute
import PseudoVm.Debugger.History
import PseudoVm.Text.Grapheme
/-!
# Cli.Debug: debugging a program

Commands come from the same input as the lines that the program reads.  The debugger ends when it is left or the
input has ended, and commands are remembered in a file unless that is switched off.
-/
namespace PseudoVm

namespace Cli

open Debugger (History)

/-- What a debugger is started with. -/
structure DebugOptions where
  source : Option String := none
  breakpoints : List Nat := []
  stopOnEntry : Bool := false
  limits : Limits := {}
  seed : Option Nat := none
  /-- The file with earlier commands. -/
  history : Option String := none

/-- Characters, given backwards, without the latest that take up a number of bytes; none if that number ends inside
a character. -/
def withoutBytes? : Nat → List Char → Option (List Char)
  | 0, kept => some kept
  | _, [] => some []
  | size, c :: rest => if c.utf8Size ≤ size then withoutBytes? (size - c.utf8Size) rest else none

/-- Clusters after which those that were taken back are gone.  The characters kept are given backwards, and the sizes
of the clusters that can be taken back, the latest first. -/
def takeBackFrom? (kept : List Char) (sizes : List UInt8) : List (List Char) → Option (List Char)
  | [] => some kept.reverse
  | ['\x08'] :: rest =>
    match sizes with
    | [] => takeBackFrom? kept [] rest
    | size :: sizes => (withoutBytes? size.toNat kept).bind fun kept => takeBackFrom? kept sizes rest
  | cluster :: rest =>
    let size := (cluster.map Char.utf8Size).sum
    takeBackFrom? (cluster.reverse ++ kept) (UInt8.ofNat size :: sizes) rest

/-- A line as typed: a backspace takes back the cluster before it, and blanks at the ends do not count.  The size of a
cluster is kept in a byte, so of a longer one only the rest after whole multiples of 256 bytes is taken back; there is
no line if that would leave a part of a character. -/
def typed? (line : String) : Option String :=
  (takeBackFrom? [] [] (Grapheme.clusters line.toList)).map fun kept => trimBlank (String.ofList kept)

/-- Takes commands, of which there are fewer than `fuel`, until the debugger is left or the input has ended.  A line
that cannot be taken, or a command that breaks off, ends the conversation, and nothing is remembered. -/
def converse : Nat → Debugger → History → Except Abort History × Debugger
  | 0, d, h => (.ok h, d)
  | fuel + 1, d, h =>
    if d.left then (.ok h, d)
    else
      match d.readLine? with
      | none => (.ok h, d.say "^D")
      | some (line, d) =>
        match typed? line with
        | none => (.error .badIndex, d)
        | some line =>
          match d.executeLine line with
          | .error a => (.error a, d)
          | .ok d => converse fuel d (h.add line)

/-- What a debugger says first. -/
def banner (fileName : String) : List String :=
  ["", Debugger.bold "Gaddis Debugger" ++ "  " ++ fileName,
    "Type " ++ Debugger.bold "help" ++ " for available commands.", ""]

def prepare (session : Session) (options : DebugOptions) (fileName : String) (source : Option String) : Debugger :=
  let session := { session with file := fileName }
  let session := if options.stopOnEntry then session.requestEntry else session
  let d : Debugger := { session := session, fileName := fileName, source := (source.map lines).getD [] }
  (options.breakpoints.foldl Debugger.setBreakpoint d).sayAll (banner fileName)

/-- The end of a debugger that broke off. -/
def breakOff (d : Debugger) (a : Abort) : Finish :=
  brokenOff a d.session.machine.world.console.output d.session.machine.leftWorld.disk

/-- The end of a debugger that was left: commands are remembered before the program's files are let go. -/
def conclude (d : Debugger) (remembered : History) (history : Option String) : Finish :=
  let machine := ({ d with session := d.session.halt }.say "Debugger exited.").session.machine
  let disk := match history with
    | some path => remembered.save machine.world.disk path
    | none => machine.world.disk
  ⟨some 0, machine.world.console.output, "",
    { machine with world := { machine.world with disk := disk } }.leftWorld.disk⟩

/-- A debugger from its first command to its end. -/
def attend (d : Debugger) (disk : Disk) (history : Option String) : Finish :=
  let remembered := (history.map (History.load disk)).getD {}
  match converse (d.session.machine.world.console.source.size + 1) d remembered with
  | (.error a, d) => breakOff d a
  | (.ok remembered, d) =>
    match d.reached with
    | .error a => breakOff d a
    | .ok d => conclude d remembered history

/-- The name of a program in listings and traces: that of its source, or of its image. -/
def listedName (image : String) (source : Option String) : String :=
  ((source.bind PathName.fileName?).or (PathName.fileStem? image)).getD "main"

def debug (host : Host) (path : String) (options : DebugOptions) : Except Failure Finish := do
  let image ← loadImage host.disk path
  let source ← options.source.mapM (loadText host.disk "Failed to read source file: ")
  match Session.create? image options.limits (worldOf host options.seed (.ofStream host.input)) with
  | none => return brokenOff .badIndex "" host.disk
  | some session =>
    return attend (prepare session options (listedName path options.source) source) host.disk options.history

end Cli

end PseudoVm
