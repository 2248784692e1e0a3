import Autofix.Apply.Files

/-! Disks: directories and files by place. A path leads to a place step by step, and each step starts
from a directory. -/
namespace Autofix

/-- The time of a file's last change: seconds from the start of 1970, in 64 bits with a sign, and
nanoseconds. -/
structure FileTime where
  seconds : Int64
  nanos : Fin 1000000000
deriving DecidableEq, Repr

/-- The time with the nanoseconds that do not fill a second. -/
def FileTime.ofParts (seconds : Int64) (nanos : Nat) : FileTime :=
  ⟨seconds, nanos % 1000000000, Nat.mod_lt _ (by decide)⟩

structure FileEntry where
  content : ByteArray
  permissions : Fin 0o10000
  modified : FileTime

instance : DecidableEq FileEntry := fun a b =>
  decidable_of_iff (a.content.data = b.content.data ∧ a.permissions = b.permissions ∧ a.modified = b.modified) (by
    cases a
    cases b
    simp [ByteArray.ext_iff])

/-- The mode of a file: the mark of a regular file and the permission bits. -/
def FileEntry.mode (e : FileEntry) : Nat := 0o100000 + e.permissions

inductive Node
  | file (entry : FileEntry)
  | directory
deriving DecidableEq

/-- The names on the way from the root. -/
abbrev Place := List Text

structure Disk where
  nodes : Assoc Place Node := []
  /-- Where relative paths start. -/
  here : Place := []

namespace Disk

def permissionsOf (mode : Nat) : Fin 0o10000 := Fin.ofNat _ mode

/-- What stands at a place; the root is always there. -/
def node? (d : Disk) (p : Place) : Option Node :=
  if p = [] then some .directory else Assoc.get? p d.nodes

def put (d : Disk) (p : Place) (n : Node) : Disk := { d with nodes := Assoc.insert p n d.nodes }

/-- The place that a segment of a path leads to from a directory. The parent of the root is the root. -/
def step (d : Disk) (p : Place) (segment : Text) : Except IoError Place :=
  match d.node? p with
  | none => .error .noSuchFile
  | some (.file _) => .error .notADirectory
  | some .directory =>
      if segment = [] ∨ segment = ['.'] then .ok p
      else if segment = ['.', '.'] then .ok p.dropLast
      else if 255 < Text.byteSize segment then .error .nameTooLong
      else .ok (p ++ [segment])

def walk (d : Disk) (p : Place) : List Text → Except IoError Place
  | [] => .ok p
  | segment :: rest =>
      match d.step p segment with
      | .ok next => walk d next rest
      | .error e => .error e

/-- What is wrong with a path whatever is on the disk. -/
def pathFault? (path : String) : Option IoError :=
  if path.toList.contains '\x00' then some .nulInPath
  else if path.isEmpty then some .noSuchFile
  else if 4096 ≤ Text.byteSize path.toList then some .nameTooLong
  else none

def startOf (d : Disk) (path : String) : Place := if Path.isAbsolute path then [] else d.here

/-- The place that a path leads to; all but its last name must be there. -/
def locate (d : Disk) (path : String) : Except IoError Place :=
  match pathFault? path with
  | some e => .error e
  | none => d.walk (d.startOf path) (Path.segments path)

def status (d : Disk) (path : String) : Except IoError (Place × Node) := do
  let p ← d.locate path
  match d.node? p with
  | some n => .ok (p, n)
  | none => .error .noSuchFile

def pathExists (d : Disk) (path : String) : Bool := (d.status path).toBool

def isFile (d : Disk) (path : String) : Bool :=
  match d.status path with
  | .ok (_, .file _) => true
  | _ => false

def entry (d : Disk) (path : String) : Except IoError (Place × FileEntry) :=
  match d.status path with
  | .ok (p, .file f) => .ok (p, f)
  | .ok (_, .directory) => .error .isADirectory
  | .error e => .error e

def readBytes (d : Disk) (path : String) : Except IoError ByteArray :=
  (d.entry path).map fun e => e.2.content

def readText (d : Disk) (path : String) : Except IoError Text :=
  match d.readBytes path with
  | .ok bytes => decodeText bytes
  | .error e => .error e

/-- The place that a path leads to if something may be written there: a path that ends with a slash names a
directory. If the path without the slash leads nowhere, that error wins. -/
def target (d : Disk) (path : String) : Except IoError Place :=
  let bare := String.ofList (Text.trimEndWhile (· == '/') path.toList)
  if bare = path then d.locate path
  else
    match d.locate bare with
    | .ok _ => .error .isADirectory
    | .error e => .error e

/-- Bytes written to a file, which is made if it is not there; a file that is there keeps its mode. -/
def write (d : Disk) (now : FileTime) (path : String) (bytes : ByteArray) : Except IoError Unit × Disk :=
  match d.target path with
  | .error e => (.error e, d)
  | .ok p =>
      match d.node? p with
      | some .directory => (.error .isADirectory, d)
      | some (.file f) => (.ok (), d.put p (.file { f with content := bytes, modified := now }))
      | none => (.ok (), d.put p (.file ⟨bytes, 0o644, now⟩))

/-- A file made where nothing stands yet. -/
def create (d : Disk) (now : FileTime) (path : String) (bytes : ByteArray) : Except IoError Unit × Disk :=
  match d.target path with
  | .error e => (.error e, d)
  | .ok p =>
      match d.node? p with
      | some _ => (.error .fileExists, d)
      | none => (.ok (), d.put p (.file ⟨bytes, 0o644, now⟩))

/-- The directories along some segments, made where nothing stands yet. A file in the way has an error of its
own only where the last directory was to be made. -/
def makeAlong (d : Disk) (p : Place) : List Text → Except IoError Unit × Disk
  | [] => (.ok (), d)
  | segment :: rest =>
      match d.step p segment with
      | .error e => (.error e, d)
      | .ok next =>
          match d.node? next with
          | some .directory => makeAlong d next rest
          | some (.file _) => (.error (if rest = [] then .fileExists else .notADirectory), d)
          | none => makeAlong (d.put next .directory) next rest

/-- A directory made with all directories above it; those made before a failure stay. Empty and `.` segments are
dropped first, so that the last segment left names a directory. -/
def makeDirectories (d : Disk) (path : String) : Except IoError Unit × Disk :=
  match pathFault? path with
  | some e => (.error e, d)
  | none => d.makeAlong (d.startOf path) ((Path.segments path).filter fun s => s != [] && s != ['.'])

def modify (d : Disk) (path : String) (f : FileEntry → FileEntry) : Except IoError Unit × Disk :=
  match d.entry path with
  | .ok (p, e) => (.ok (), d.put p (.file (f e)))
  | .error e => (.error e, d)

def children (d : Disk) (p : Place) : List (Text × Node) :=
  d.nodes.filterMap fun (q, n) =>
    match q.getLast? with
    | some name => if q.dropLast = p then some (name, n) else none
    | none => none

def list (d : Disk) (path : String) : Except IoError (List (Text × Node)) :=
  match d.status path with
  | .ok (p, .directory) => .ok (d.children p)
  | .ok (_, .file _) => .error .notADirectory
  | .error e => .error e

/-- The disk without what stands where a path leads to, and below it. -/
def remove (d : Disk) (path : String) : Disk :=
  match d.locate path with
  | .ok p => { d with nodes := Assoc.eraseIf p.isPrefixOf d.nodes }
  | .error _ => d

def pathOf (p : Place) : String := String.ofList (if p = [] then ['/'] else p.flatMap ('/' :: ·))

def canonical (d : Disk) (path : String) : Except IoError String :=
  (d.status path).map fun s => pathOf s.1

def files (now : FileTime) : Files Disk where
  read path d := (d.readText path, d)
  write path t d := d.write now path (encodeText t)

theorem node?_put_self (d : Disk) {p : Place} (h : p ≠ []) (n : Node) : (d.put p n).node? p = some n := by
  simp [node?, put, h]

theorem node?_put_of_ne (d : Disk) {p q : Place} (h : q ≠ p) (n : Node) :
    (d.put p n).node? q = d.node? q := by
  simp [node?, put, Assoc.get?_insert_of_ne h]

end Disk
end Autofix
