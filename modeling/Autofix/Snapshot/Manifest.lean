import Autofix.Json.Codec
import Autofix.Transaction

/-! Manifests: what a store of backups writes down about a transaction. -/
namespace Autofix

structure ManifestEntry where
  filePath : String
  resolvedPath : String
  /-- The name of the file that holds the bytes. -/
  backupFile : String
  mode : Nat
  seconds : Nat
  nanos : Nat
deriving DecidableEq, Repr

structure Manifest where
  transactionId : String
  timestamp : Timestamp
  entries : List ManifestEntry
deriving DecidableEq, Repr

namespace ManifestEntry

/-- What is written down about a backup. There is no word for a time before 1970. -/
def ofBackup (b : Backup) : ManifestEntry :=
  let time : FileTime := if b.entry.modified.seconds < 0 then ⟨0, 0⟩ else b.entry.modified
  { filePath := b.filePath, resolvedPath := b.resolvedPath
    backupFile := String.ofList ((Path.fileName? b.backupFile).getD [])
    mode := b.entry.mode, seconds := time.seconds.toNatClampNeg, nanos := time.nanos }

/-- The time of the file's last change, if the seconds do not exceed 64 bits with a sign. -/
def time? (e : ManifestEntry) : Option FileTime :=
  let seconds := e.seconds + e.nanos / Timestamp.nanosPerSecond
  if seconds ≤ Int64.maxValue.toInt then some (.ofParts (.ofNat seconds) e.nanos) else none

structure Draft where
  filePath : Option String := none
  resolvedPath : Option String := none
  backupFile : Option String := none
  mode : Option Nat := none
  seconds : Option Nat := none
  nanos : Option Nat := none

def slots : List (Json.Slot Draft) :=
  [.of ["file_path"] Draft.filePath (fun d v => { d with filePath := v }) true .string,
    .of ["resolved_path"] Draft.resolvedPath (fun d v => { d with resolvedPath := v }) true .string,
    .of ["backup_file"] Draft.backupFile (fun d v => { d with backupFile := v }) true .string,
    .of ["mode"] Draft.mode (fun d v => { d with mode := v }) true (.natural Json.maxHalfWord),
    .of ["mtime_secs"] Draft.seconds (fun d v => { d with seconds := v }) true (.natural Json.maxWord),
    .of ["mtime_nanos"] Draft.nanos (fun d v => { d with nanos := v }) true (.natural Json.maxHalfWord)]

def Draft.finish? (d : Draft) : Option ManifestEntry := do
  return ⟨← d.filePath, ← d.resolvedPath, ← d.backupFile, ← d.mode, ← d.seconds, ← d.nanos⟩

def codec : Json.Codec ManifestEntry := .record slots {} Draft.finish?

def toJson (e : ManifestEntry) : Json :=
  .object [("file_path", .string e.filePath), ("resolved_path", .string e.resolvedPath),
    ("backup_file", .string e.backupFile), ("mode", .natural e.mode), ("mtime_secs", .natural e.seconds),
    ("mtime_nanos", .natural e.nanos)]

end ManifestEntry

namespace Manifest

def ofTransaction (t : Transaction) : Manifest :=
  ⟨t.id, t.timestamp, t.backups.map ManifestEntry.ofBackup⟩

structure Draft where
  transactionId : Option String := none
  timestamp : Option Timestamp := none
  entries : Option (List ManifestEntry) := none

def slots : List (Json.Slot Draft) :=
  [.of ["transaction_id"] Draft.transactionId (fun d v => { d with transactionId := v }) true .string,
    .of ["timestamp"] Draft.timestamp (fun d v => { d with timestamp := v }) true
      (Json.Codec.string.filterMap Timestamp.parse?),
    .of ["entries"] Draft.entries (fun d v => { d with entries := v }) true (.list ManifestEntry.codec)]

def Draft.finish? (d : Draft) : Option Manifest := do
  return ⟨← d.transactionId, ← d.timestamp, ← d.entries⟩

def codec : Json.Codec Manifest := .record slots {} Draft.finish?

def parse (text : Text) : Except Json.Fault Manifest := Json.readAll codec.read text

def toJson (m : Manifest) : Json :=
  .object [("transaction_id", .string m.transactionId), ("timestamp", .string m.timestamp.text),
    ("entries", .array (m.entries.map ManifestEntry.toJson))]

/-- Does the first manifest come before the second in a listing, or are they of equal rank? -/
def le (a b : Manifest) : Bool :=
  a.timestamp.lt b.timestamp || (a.timestamp == b.timestamp && !(b.transactionId < a.transactionId))

end Manifest
end Autofix
