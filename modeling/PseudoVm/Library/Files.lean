import PseudoVm.Library.Dialogue
import PseudoVm.Text.Quoted
/-!
# Library.Files: functions on files

Values are written one to a line, in a form that the reading function of their type understands.  Lines are
read whole: the ending is stripped, and the rest has to be a value of the wanted type.
-/
namespace PseudoVm

namespace Library

/-- A path as shown: names are relative to the working directory unless they are absolute. -/
def shownPath (name : String) : String := if name.startsWith "/" then name else "./" ++ name

/-- Opens a file for output, from its beginning or at its end. -/
def openOutput (function : String) (appends : Bool) (args : List Value) (w : World) :
    Except Fault (Value × World) := do
  let name := shownPath (← textOf (← one function args))
  match w.disk.openOutput name with
  | .error e => throw (.io e.message)
  | .ok (path, disk) =>
    let disk := if appends then disk else disk.put path (.file [])
    let (id, w) := { w with disk := disk }.addFile ⟨name, path, .output appends []⟩
    return (.file id, w)

def openInput (args : List Value) (w : World) : Except Fault (Value × World) := do
  let name := shownPath (← textOf (← one "OpenInputFile" args))
  match w.disk.openInput name with
  | .error e => throw (.io e.message)
  | .ok path =>
    let (id, w) := w.addFile ⟨name, path, .input 0 []⟩
    return (.file id, w)

def stateOf (v : Value) (w : World) : Except Fault (FileId × OpenFile) := do
  let id ← v.asFile
  match w.file? id with
  | some f => return (id, f)
  | none => throw .fileNotOpen

def close (args : List Value) (w : World) : Except Fault World := do
  let (id, f) ← stateOf (← one "CloseFile" args) w
  match f.state with
  | .closed => throw .fileNotOpen
  | _ => return (w.writeOut id).setFile id .closed

/-- A value on a line of a file, without the line feed. -/
def fileText : Value → Except Fault Bytes
  | .bool true => .ok (bytesOf "True")
  | .bool false => .ok (bytesOf "False")
  | .int n => .ok (bytesOf (Numeral.intText n))
  | .real x => .ok (bytesOf (realText x))
  | .str s => .ok (Quoted.write Quoted.stringDelim s)
  | .char c => .ok (Quoted.write Quoted.charDelim [c])
  | v => .error (rejected "WriteFile" ("cannot write a " ++ v.typeName.text))

def fileTexts : List Value → Except Fault Bytes
  | [] => .ok []
  | v :: rest => do
    let line ← fileText v
    let more ← fileTexts rest
    return line ++ 0x0A :: more

def writeFile (args : List Value) (w : World) : Except Fault World := do
  match args with
  | [] => throw (rejected "WriteFile" "expected a file argument")
  | file :: values =>
    let bytes ← fileTexts values
    let (id, f) ← stateOf file w
    match f.state with
    | .output appends pending => return w.setFile id (.output appends (pending ++ bytes))
    | .input _ _ => throw (rejected "WriteFile" "file is open for input")
    | .closed => throw .fileNotOpen

def fill (disk : Disk) (path : Path) (offset : Nat) (ahead : Bytes) : Except Fault (Nat × Bytes) :=
  if !ahead.isEmpty then .ok (offset, ahead)
  else
    match disk.node? path with
    | some (.file content) =>
      let block := (content.drop offset).take World.blockSize
      .ok (offset + block.length, block)
    | _ => .error (.io DiskError.isADirectory.message)

/-- Takes bytes up to and with a line feed, block by block; `fuel` bounds the blocks. -/
def takeLine (disk : Disk) (path : Path) : Nat → Nat → Bytes → Except Fault (Bytes × Nat × Bytes)
  | 0, offset, ahead => .ok ([], offset, ahead)
  | fuel + 1, offset, ahead => do
    let (offset, ahead) ← fill disk path offset ahead
    let line := ahead.takeWhile (· != 0x0A)
    match ahead.dropWhile (· != 0x0A) with
    | feed :: rest => return (line ++ [feed], offset, rest)
    | [] =>
      if line.isEmpty then return ([], offset, [])
      else
        let (more, offset, ahead) ← takeLine disk path fuel offset []
        return (line ++ more, offset, ahead)

/-- The reading state of a file, or why it has none. -/
def inputState (function : String) (f : OpenFile) : Except Fault (Nat × Bytes) :=
  match f.state with
  | .input offset ahead => .ok (offset, ahead)
  | .output _ _ => .error (rejected function "file is open for output")
  | .closed => .error .fileNotOpen

/-- The next line of a file without its ending.  A line that is no text is used up all the same. -/
def nextLine (function : String) (v : Value) (w : World) : Except Fault String × World :=
  match (do
    let (id, f) ← stateOf v w
    let (offset, ahead) ← inputState function f
    let (line, offset, ahead) ← takeLine w.disk f.path ((w.disk.content f.path).length + 2) offset ahead
    return (id, line, offset, ahead) : Except Fault (FileId × Bytes × Nat × Bytes)) with
  | .error e => (.error e, w)
  | .ok (id, line, offset, ahead) =>
    let w := w.setFile id (.input offset ahead)
    if line.isEmpty then (.error (.io (function ++ ": unexpected end of file")), w)
    else
      match Utf8.text? line with
      | none => (.error (.io DiskError.invalidText.message), w)
      | some s => (.ok (trimLineEnd s), w)

def readValue (function : String) (understand : String → Option Value) (args : List Value) (w : World) :
    Except Fault Value × World :=
  match one function args with
  | .error e => (.error e, w)
  | .ok file =>
    match nextLine function file w with
    | (.error e, w) => (.error e, w)
    | (.ok line, w) =>
      match understand line with
      | some v => (.ok v, w)
      | none => (.error (rejected function ("invalid input " ++ escapedText line)), w)

def integerLine? (s : String) : Option Value := (Numeral.readInt s.toList).toOption.map .int

def realLine? (s : String) : Option Value := (RealText.read s.toList).toOption.map .real

def stringLine? (s : String) : Option Value := (Quoted.read Quoted.stringDelim (bytesOf s)).map .str

def characterLine? (s : String) : Option Value :=
  match Quoted.read Quoted.charDelim (bytesOf s) with
  | some [c] => some (.char c)
  | _ => none

def booleanLine? (s : String) : Option Value := (truth? s).map .bool

def eof (args : List Value) (w : World) : Except Fault (Value × World) := do
  let (id, f) ← stateOf (← one "eof" args) w
  let (offset, ahead) ← inputState "eof" f
  let (offset, ahead) ← fill w.disk f.path offset ahead
  return (.bool ahead.isEmpty, w.setFile id (.input offset ahead))

end Library

end PseudoVm
