import Autofix.Cli.Run
import Autofix.Cli.Usage
import Autofix.Outline.Parser
import Std.Time.DateTime.Timestamp

/-! The command line. The files that a run may touch are taken from the file system into a `Disk`,
`Cli.run` works on it, and what has changed is written back. -/
namespace Autofix.Cli

/-- The place of an absolute path that has no `.` and `..` in it. -/
def placeOf (path : String) : Place := (Path.segments path).filter fun s => s != []

def addDirectories (d : Disk) (path : String) : Disk := (d.makeDirectories path).2

/-- The disk with all that stands below a directory of the file system. Links are not followed, and
what cannot be read is left out. -/
partial def loadTree (path : String) (d : Disk) : IO Disk := do
  let mut d := addDirectories d path
  for entry in ← (← IO.FS.realPath path).readDir do
    let child := Path.join path entry.fileName
    let status ← entry.path.symlinkMetadata
    match status.type with
    | .dir => d ← loadTree child d
    | .file =>
        let modified : FileTime := ⟨.ofInt status.modified.sec, Fin.ofNat _ status.modified.nsec.toNat⟩
        let bytes ← (IO.FS.readBinFile child).toBaseIO
        if let .ok bytes := bytes then
          d := d.put (placeOf child) (.file ⟨bytes, 0o644, modified⟩)
    | _ => pure ()
  return d

def loadBelow (path : String) (d : Disk) : IO Disk := do
  let real ← (IO.FS.realPath path).toBaseIO
  match real with
  | .error _ => return d
  | .ok real => if ← real.isDir then loadTree real.toString d else return d

def parentOf (path : String) : String :=
  match (Path.segments path).dropLast with
  | [] => "."
  | segments => String.ofList (Text.join ['/'] segments) ++ "/"

/-- The part of the file system that a command may touch. -/
def loadDisk (invocation : Invocation) : IO Disk := do
  let here := (← IO.currentDir).toString
  let mut d := addDirectories { here := placeOf here } here
  d ← loadBelow invocation.workspace d
  if let .fix a := invocation.command then d ← loadBelow (parentOf a.issues) d
  if let .ok root := d.canonical invocation.workspace then
    if let .ok config := Config.load root d then d ← loadBelow (Config.backupDir root config.fix) d
  return d

def rightsOf (mode : Nat) : IO.FileRight :=
  let access (bits : Nat) : IO.AccessRight :=
    { read := bits / 4 % 2 == 1, write := bits / 2 % 2 == 1, execution := bits % 2 == 1 }
  { user := access (mode / 64), group := access (mode / 8), other := access mode }

/-- What differs from the disk before, written back. -/
def storeDisk (before after : Disk) : IO Unit := do
  for (place, node) in after.nodes do
    let path := Disk.pathOf place
    match node, before.node? place with
    | .directory, none => IO.FS.createDirAll path
    | .file f, some (.file g) =>
        if f.content != g.content || f.modified != g.modified then IO.FS.writeBinFile path f.content
        if f.mode != g.mode then IO.setAccessRights path (rightsOf f.mode)
    | .file f, _ => IO.FS.writeBinFile path f.content
    | _, _ => pure ()

def freshId : IO String := do
  return Transaction.randomId (← IO.getRandomBytes 16).toList

def currentTime : IO Timestamp := do
  let nanos := (← Std.Time.Timestamp.now).toNanosecondsSinceUnixEpoch.toInt
  return ⟨nanos / Timestamp.nanosPerSecond, (nanos % Timestamp.nanosPerSecond).toNat⟩

/-- A run whose questions are asked one after another: each answer is typed in, and the run starts again
with one line more of input. -/
partial def interact (s : Surroundings) (invocation : Invocation) (d : Disk) (answers : Nat) : IO Finished := do
  let f := run s invocation d
  match f.prompts[answers]? with
  | none => return f
  | some question =>
      (← IO.getStderr).putStr question
      let line ← (← IO.getStdin).getLine
      let line := if line.endsWith "\n" then line else line ++ "\n"
      interact { s with input := s.input ++ line } invocation d (answers + 1)

def perform (invocation : Invocation) : IO UInt32 := do
  let d ← loadDisk invocation
  let timestamp ← currentTime
  let s : Surroundings :=
    { parser := Outline.parser, id := ← freshId, timestamp
      now := .ofParts (.ofInt timestamp.seconds) timestamp.nanos }
  let stderr ← IO.getStderr
  (run s invocation d).warnings.forM stderr.putStr
  let f ← interact s invocation d 0
  storeDisk d f.disk
  (← IO.getStdout).putStr f.output
  stderr.putStr f.failure
  return f.exitCode.toUInt32

end Autofix.Cli

def main (arguments : List String) : IO UInt32 := do
  match Autofix.Cli.parse (Autofix.Cli.dropLeadingEscape arguments) with
  | .ok invocation => Autofix.Cli.perform invocation
  | .error fault =>
      (← IO.getStdout).putStr fault.output
      (← IO.getStderr).putStr fault.errors
      return fault.exitCode.toUInt32
