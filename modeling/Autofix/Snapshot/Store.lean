import Autofix.Snapshot.Error
import Autofix.Snapshot.Manifest

/-! The store of backups: below its directory, each transaction has a directory with one file for each
backup, written once, and a manifest, written again with each backup. -/
namespace Autofix

/-- What has been brought back, and what not. -/
structure RestoreReport where
  restored : List String := []
  /-- Paths and the wording of what went wrong. -/
  failed : List (String × String) := []
deriving DecidableEq, Repr

namespace RestoreReport

def isComplete (r : RestoreReport) : Bool := r.failed.isEmpty

def add (r : RestoreReport) (path : String) : Except IoError Unit → RestoreReport
  | .ok () => { r with restored := r.restored ++ [path] }
  | .error e => { r with failed := r.failed ++ [(path, e.text)] }

end RestoreReport

structure SnapshotStore where
  directory : String
deriving DecidableEq, Repr

namespace SnapshotStore

def transactionDir (s : SnapshotStore) (id : String) : String := Path.join s.directory id

def manifestPath (s : SnapshotStore) (id : String) : String := Path.join (s.transactionDir id) "manifest.json"

/-- A file made under a name, or under the name with the first number from `suffix` on that is free;
`fuel` bounds the number of further names. -/
def createFree (d : Disk) (now : FileTime) (dir name : String) (bytes : ByteArray) :
    Nat → Nat → String → Except (String × IoError) String × Disk
  | 0, _, candidate => (.error (candidate, .fileExists), d)
  | fuel + 1, suffix, candidate =>
      match d.create now candidate bytes with
      | (.ok (), d) => (.ok candidate, d)
      | (.error e, d') =>
          if e.kind = .alreadyExists then
            createFree d now dir name bytes fuel (suffix + 1) (Path.join dir s!"{name}.{suffix}")
          else (.error (candidate, e), d')

/-- A new file in a directory, which is made if it is not there. One more name than there are things on
the disk is enough to find a free one. -/
def persist (d : Disk) (now : FileTime) (dir name : String) (bytes : ByteArray) :
    Except (String × IoError) String × Disk :=
  match d.makeDirectories dir with
  | (.error e, d) => (.error (dir, e), d)
  | (.ok (), d) => createFree d now dir name bytes (d.nodes.length + 1) 1 (Path.join dir name)

def backupName (t : Transaction) (filePath : String) : String :=
  t.timestamp.fileText ++ "_" ++ Path.flatten filePath

def writeManifest (s : SnapshotStore) (d : Disk) (now : FileTime) (t : Transaction) :
    Except SnapshotError Unit × Disk :=
  match d.write now (s.manifestPath t.id) (encodeText (Manifest.ofTransaction t).toJson.pretty.toList) with
  | (.ok (), d) => (.ok (), d)
  | (.error e, d) => (.error (.io e), d)

/-- A file backed up, once for each transaction; the answer says whether it is new. Once the copy is made it
belongs to the transaction, even if the manifest does not get to name it. -/
def backup (s : SnapshotStore) (d : Disk) (now : FileTime) (t : Transaction) (filePath resolvedPath : String) :
    Except SnapshotError Bool × Transaction × Disk :=
  if (t.backupFor? resolvedPath).isSome then (.ok false, t, d)
  else
    match d.entry resolvedPath with
    | .error e => (.error (.read filePath e), t, d)
    | .ok (_, entry) =>
        match persist d now (s.transactionDir t.id) (backupName t filePath) entry.content with
        | (.error (backupFile, e), d) => (.error (.persist filePath backupFile e), t, d)
        | (.ok backupFile, d) =>
            let t := { t with backups := t.backups ++ [⟨filePath, resolvedPath, entry, backupFile⟩] }
            match s.writeManifest d now t with
            | (.ok (), d) => (.ok true, t, d)
            | (.error e, d) => (.error e, t, d)

/-- A file brought back: its bytes, then its time, then its permissions. -/
def restoreFile (d : Disk) (now : FileTime) (path : String) (content : ByteArray) (time : FileTime)
    (mode : Nat) : Except IoError Unit × Disk :=
  match d.write now path content with
  | (.error e, d) => (.error e, d)
  | (.ok (), d) =>
      match d.modify path fun f => { f with modified := time } with
      | (.error e, d) => (.error e, d)
      | (.ok (), d) => d.modify path fun f => { f with permissions := Disk.permissionsOf mode }

/-- Backups brought back, whatever becomes of each. -/
def restoreBackups (now : FileTime) : List Backup → RestoreReport → Disk → RestoreReport × Disk
  | [], report, d => (report, d)
  | b :: rest, report, d =>
      let (result, d) := restoreFile d now b.resolvedPath b.entry.content b.entry.modified b.entry.mode
      restoreBackups now rest (report.add b.filePath result) d

def rollback (d : Disk) (now : FileTime) (t : Transaction) : RestoreReport × Transaction × Disk :=
  let (report, d) := restoreBackups now t.backups {} d
  (report, { t with status := .rolledBack }, d)

def isTransactionId (id : String) : Bool :=
  !id.isEmpty && id.toList.all fun c => c.isAlphanum || c == '-' || c == '_'

def load (s : SnapshotStore) (d : Disk) (id : String) : Except SnapshotError Manifest :=
  if !isTransactionId id then .error (.invalidTransactionId id)
  else
    match d.readText (s.manifestPath id) with
    | .error e => .error (if e.kind = .notFound then .unknownTransaction id else .io e)
    | .ok text =>
        match Manifest.parse text with
        | .ok m => .ok m
        | .error _ => .error .manifest

inductive RestoreError
  | snapshot (source : SnapshotError)
  /-- The manifest gives a time that no file can have. -/
  | timeOutOfRange (entry : ManifestEntry)
deriving DecidableEq, Repr

/-- The files of some entries brought back up to one with an impossible time. A copy that cannot be read is
reported like a file that cannot be written, and the rest goes on. -/
def restoreEntries (now : FileTime) (dir : String) :
    List ManifestEntry → RestoreReport → Disk → Except RestoreError RestoreReport × Disk
  | [], report, d => (.ok report, d)
  | e :: rest, report, d =>
      match e.time? with
      | none => (.error (.timeOutOfRange e), d)
      | some time =>
          let (result, d) := match d.readBytes (Path.join dir e.backupFile) with
            | .error e => (.error e, d)
            | .ok content => restoreFile d now e.resolvedPath content time e.mode
          restoreEntries now dir rest (report.add e.filePath result) d

/-- The files of a transaction brought back from what the store holds. -/
def restore (s : SnapshotStore) (d : Disk) (now : FileTime) (id : String) :
    Except RestoreError RestoreReport × Disk :=
  match s.load d id with
  | .error e => (.error (.snapshot e), d)
  | .ok m => restoreEntries now (s.transactionDir id) m.entries {} d

/-- The manifests that can be read among those of some transactions, in order. -/
def collect (s : SnapshotStore) (d : Disk) (ids : List String) : List Manifest :=
  (ids.filterMap fun id => (s.load d id).toOption).mergeSort Manifest.le

def directoryNames (children : List (Text × Node)) : List String :=
  children.filterMap fun (name, node) =>
    match node with
    | .directory => some (String.ofList name)
    | .file _ => none

/-- The manifests of all transactions, oldest first. -/
def list (s : SnapshotStore) (d : Disk) : Except SnapshotError (List Manifest) :=
  match d.list s.directory with
  | .ok children => .ok (s.collect d (directoryNames children))
  | .error e => if e.kind = .notFound then .ok [] else .error (.io e)

end SnapshotStore
end Autofix
