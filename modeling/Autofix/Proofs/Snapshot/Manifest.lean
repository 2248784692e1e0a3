import Autofix.Proofs.Json.Reading
import Autofix.Proofs.Path
import Autofix.Proofs.Time.Timestamp
import Autofix.Snapshot.Manifest
import Mathlib.Data.List.Forall2

/-! Manifests are read as they were written, and the entry of a backup can be brought back: it keeps the
permissions of the file and, from 1970 on, the time of its last change. -/
namespace Autofix
open Json

/-- The backup with the time that a manifest can give: not before 1970. -/
def Backup.sinceEpoch (b : Backup) : Backup :=
  { b with entry := { b.entry with modified := if b.entry.modified.seconds < 0 then .ofParts 0 0 else b.entry.modified } }

/-- The transaction with the times that its manifest can give. -/
def Transaction.sinceEpoch (t : Transaction) : Transaction :=
  { t with backups := t.backups.map Backup.sinceEpoch }

lemma FileTime.ofParts_toNatClampNeg (time : FileTime) (h : ¬ time.seconds < 0) :
    FileTime.ofParts (.ofNat time.seconds.toNatClampNeg) time.nanos = time := by
  obtain ⟨seconds, nanos⟩ := time
  have hnonneg : 0 ≤ seconds.toInt := by
    rw [Int64.lt_iff_toInt_lt] at h
    exact not_lt.1 h
  have hseconds : Int64.ofNat seconds.toNatClampNeg = seconds := by
    rw [Int64.toNatClampNeg, ← Int64.ofInt_eq_ofNat, Int.toNat_of_nonneg hnonneg, Int64.ofInt_toInt]
  have hnanos : (⟨nanos.val % 1000000000, Nat.mod_lt _ (by decide)⟩ : Fin 1000000000) = nanos :=
    Fin.ext (Nat.mod_eq_of_lt nanos.isLt)
  rw [FileTime.ofParts, hseconds, hnanos]

namespace ManifestEntry

/-- The numbers of an entry fit into their fields. -/
structure Readable (e : ManifestEntry) : Prop where
  mode : e.mode ≤ maxHalfWord
  seconds : e.seconds ≤ maxWord
  nanos : e.nanos ≤ maxHalfWord

/-- The numbers of an entry are those of a file. -/
structure Fits (e : ManifestEntry) : Prop where
  mode : e.mode ≤ maxHalfWord
  seconds : e.seconds < 2 ^ 63
  nanos : e.nanos < Timestamp.nanosPerSecond

lemma Fits.readable {e : ManifestEntry} (h : e.Fits) : e.Readable := by
  obtain ⟨hmode, hseconds, hnanos⟩ := h
  have hword : maxWord = 2 ^ 64 - 1 := rfl
  have hhalf : maxHalfWord = 2 ^ 32 - 1 := rfl
  have hsecond : Timestamp.nanosPerSecond = 10 ^ 9 := rfl
  exact ⟨hmode, by omega, by omega⟩

lemma fills_toJson {e : ManifestEntry} (h : e.Readable) :
    Fills slots [("file_path", .string e.filePath), ("resolved_path", .string e.resolvedPath),
      ("backup_file", .string e.backupFile), ("mode", .natural e.mode), ("mtime_secs", .natural e.seconds),
      ("mtime_nanos", .natural e.nanos)] {}
      ⟨e.filePath, e.resolvedPath, e.backupFile, e.mode, e.seconds, e.nanos⟩ := by
  obtain ⟨hmode, hseconds, hnanos⟩ := h
  have hword : maxWord = 2 ^ 64 - 1 := rfl
  have hhalf : maxHalfWord = 2 ^ 32 - 1 := rfl
  refine .cons _ rfl rfl (reads_slot (Codec.reads_string _) _ _ _ _) ?_
  refine .cons _ rfl rfl (reads_slot (Codec.reads_string _) _ _ _ _) ?_
  refine .cons _ rfl rfl (reads_slot (Codec.reads_string _) _ _ _ _) ?_
  refine .cons _ rfl rfl (reads_slot (Codec.reads_natural (by omega) hmode) _ _ _ _) ?_
  refine .cons _ rfl rfl (reads_slot (Codec.reads_natural (by omega) hseconds) _ _ _ _) ?_
  refine .cons _ rfl rfl (reads_slot (Codec.reads_natural (by omega) hnanos) _ _ _ _) ?_
  exact .nil _

theorem reads_toJson {e : ManifestEntry} (h : e.Readable) : codec.Reads e.toJson e :=
  Codec.reads_record (by simp) (fills_toJson h) rfl

lemma mode_lt (f : FileEntry) : f.mode < 2 ^ 16 := by
  have := f.permissions.isLt
  rw [FileEntry.mode]
  omega

lemma fits_ofBackup (b : Backup) : (ofBackup b).Fits := by
  have hmode := mode_lt b.entry
  have hhalf : maxHalfWord = 2 ^ 32 - 1 := rfl
  refine ⟨?_, ?_, ?_⟩
  · simp only [ofBackup]
    omega
  · have hlt := Int64.toInt_lt (if b.entry.modified.seconds < 0 then (⟨0, 0⟩ : FileTime) else b.entry.modified).seconds
    simp only [ofBackup, Int64.toNatClampNeg]
    omega
  · exact Fin.isLt _

theorem Fits.time?_eq {e : ManifestEntry} (h : e.Fits) : e.time? = some (.ofParts (.ofNat e.seconds) e.nanos) := by
  have hzero : e.nanos / Timestamp.nanosPerSecond = 0 := Nat.div_eq_of_lt h.nanos
  have hseconds := h.seconds
  have hmax : Int64.maxValue.toInt = 2 ^ 63 - 1 := by decide
  rw [time?, hzero, Nat.add_zero, if_pos (by omega)]

/-- An entry gives the time of its file, or the start of 1970 for an earlier one. -/
theorem time?_ofBackup (b : Backup) : (ofBackup b).time? = some b.sinceEpoch.entry.modified := by
  rw [(fits_ofBackup b).time?_eq]
  by_cases hb : b.entry.modified.seconds < 0
  · simp only [ofBackup, Backup.sinceEpoch, hb, if_true]
    rfl
  · simp only [ofBackup, Backup.sinceEpoch, hb, if_false]
    rw [FileTime.ofParts_toNatClampNeg b.entry.modified hb]

theorem permissionsOf_mode (f : FileEntry) : Disk.permissionsOf f.mode = f.permissions := by
  have := f.permissions.isLt
  rw [Disk.permissionsOf, FileEntry.mode, Fin.ext_iff, Fin.val_ofNat]
  omega

end ManifestEntry

namespace Manifest

lemma fills_toJson {m : Manifest} (ht : m.timestamp.IsValid) (he : ∀ e ∈ m.entries, e.Readable) :
    Fills slots [("transaction_id", .string m.transactionId), ("timestamp", .string m.timestamp.text),
      ("entries", .array (m.entries.map ManifestEntry.toJson))] {}
      ⟨m.transactionId, m.timestamp, m.entries⟩ := by
  have hentries : List.Forall₂ ManifestEntry.codec.Reads (m.entries.map ManifestEntry.toJson) m.entries := by
    rw [List.forall₂_map_left_iff, List.forall₂_same]
    exact fun e h => ManifestEntry.reads_toJson (he e h)
  have htime := (Codec.reads_string m.timestamp.text).filterMap (Timestamp.parse?_text ht)
  refine .cons _ rfl rfl (reads_slot (Codec.reads_string _) _ _ _ _) ?_
  refine .cons _ rfl rfl (reads_slot htime _ _ _ _) ?_
  refine .cons _ rfl rfl (reads_slot (Codec.reads_list hentries) _ _ _ _) ?_
  exact .nil _

theorem parse_pretty {m : Manifest} (ht : m.timestamp.IsValid) (he : ∀ e ∈ m.entries, e.Readable) :
    parse m.toJson.pretty.toList = .ok m := by
  have hreads : codec.Reads m.toJson m := Codec.reads_record (by simp) (fills_toJson ht he) rfl
  rw [parse, pretty, String.toList_ofList]
  exact hreads.readAll _

end Manifest
end Autofix
