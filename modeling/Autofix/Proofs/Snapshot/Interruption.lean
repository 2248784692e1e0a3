import Autofix.Proofs.Snapshot.Restore

/-! Where bringing files back ends. The entries of a manifest are tried one after another, each on the disk that those
before it leave, and the report says of each what became of it. Only an entry with a time that no file can have ends the
work before its time, with the files of the entries before it brought back and those after it left as they are. -/
namespace Autofix
open Autofix.Path

/-- Some file can have the time that the entry gives: the seconds, with those that the nanoseconds fill, are fewer than
64 bits with a sign can hold. -/
def ManifestEntry.IsTimely (e : ManifestEntry) : Prop := e.seconds + e.nanos / 1000000000 < 2 ^ 63

lemma ManifestEntry.time?_eq_none {e : ManifestEntry} : e.time? = none ↔ ¬ e.IsTimely := by
  have hmax : Int64.maxValue.toInt = 2 ^ 63 - 1 := by decide
  have hsecond : Timestamp.nanosPerSecond = 1000000000 := rfl
  simp only [time?, ite_eq_right_iff, reduceCtorEq, imp_false, IsTimely, hmax, hsecond]
  omega

lemma ManifestEntry.IsTimely.exists_time {e : ManifestEntry} (h : e.IsTimely) : ∃ time, e.time? = some time :=
  Option.ne_none_iff_exists'.1 fun hnone => ManifestEntry.time?_eq_none.1 hnone h

namespace RestoreReport

/-- The report names each of some paths once, as restored or as failed, in their order in each of its lists. -/
inductive Deals : RestoreReport → List String → Prop
  | nil : Deals {} []
  | restored (path : String) {report : RestoreReport} {paths : List String} (h : Deals report paths) :
      Deals ⟨path :: report.restored, report.failed⟩ (path :: paths)
  | failed (path text : String) {report : RestoreReport} {paths : List String} (h : Deals report paths) :
      Deals ⟨report.restored, (path, text) :: report.failed⟩ (path :: paths)

variable {report : RestoreReport} {paths : List String}

lemma Deals.add (h : report.Deals paths) (path : String) (result : Except IoError Unit) :
    (report.add path result).Deals (paths ++ [path]) := by
  induction h with
  | nil =>
    cases result with
    | ok => exact .restored path .nil
    | error e => exact .failed path e.text .nil
  | restored first _ ih =>
    cases result with
    | ok => exact .restored first ih
    | error e => exact .restored first ih
  | failed first text _ ih =>
    cases result with
    | ok => exact .failed first text ih
    | error e => exact .failed first text ih

def addTries (report : RestoreReport) (tries : List (ManifestEntry × Except IoError Unit)) : RestoreReport :=
  tries.foldl (fun report tried => report.add tried.1.filePath tried.2) report

lemma Deals.addTries (h : report.Deals paths) (tries : List (ManifestEntry × Except IoError Unit)) :
    (report.addTries tries).Deals (paths ++ tries.map fun tried => tried.1.filePath) := by
  induction tries generalizing report paths with
  | nil => rwa [List.map_nil, List.append_nil]
  | cons tried tries ih =>
    rw [List.map_cons, List.append_cons]
    exact ih (h.add tried.1.filePath tried.2)

end RestoreReport

namespace SnapshotStore
variable {now : FileTime} {dir : String} {d : Disk}

/-- The file of one entry brought back from its copy. -/
def restoreEntry (d : Disk) (now : FileTime) (dir : String) (e : ManifestEntry) (time : FileTime) :
    Except IoError Unit × Disk :=
  match d.readBytes (join dir e.backupFile) with
  | .error e => (.error e, d)
  | .ok content => restoreFile d now e.resolvedPath content time e.mode

/-- Entries tried one after another, whatever becomes of each: the disk before, the entries with what became of them,
and the disk after. -/
inductive Tries (now : FileTime) (dir : String) :
    Disk → List (ManifestEntry × Except IoError Unit) → Disk → Prop
  | nil (d : Disk) : Tries now dir d [] d
  | cons {e : ManifestEntry} {time : FileTime} {d d' : Disk} {tries : List (ManifestEntry × Except IoError Unit)}
      (htime : e.time? = some time) (h : Tries now dir (restoreEntry d now dir e time).2 tries d') :
      Tries now dir d ((e, (restoreEntry d now dir e time).1) :: tries) d'

/-- Entries with possible times are all tried, before anything that follows them. -/
theorem restoreEntries_append {entries : List ManifestEntry} (h : ∀ e ∈ entries, e.IsTimely) (d : Disk) :
    ∃ tries d', Tries now dir d tries d' ∧ tries.map Prod.fst = entries ∧ ∀ rest report,
      restoreEntries now dir (entries ++ rest) report d = restoreEntries now dir rest (report.addTries tries) d' := by
  induction entries generalizing d with
  | nil => exact ⟨[], d, .nil d, rfl, fun _ _ => rfl⟩
  | cons e entries ih =>
    rw [List.forall_mem_cons] at h
    obtain ⟨time, htime⟩ := h.1.exists_time
    obtain ⟨tries, d', htries, hentries, hall⟩ := ih h.2 (restoreEntry d now dir e time).2
    refine ⟨_, d', .cons htime htries, congrArg (e :: ·) hentries, fun rest report => ?_⟩
    rw [List.cons_append, restoreEntries, htime]
    exact hall rest _

/-- What becomes of a transaction whose manifest can be read. If each entry has a possible time, all entries are tried
in their order, whatever becomes of those before, and the report names each of them once. Otherwise the entries before
the first one with an impossible time are tried, and there is no report. -/
theorem restore_reports_or_stops (s : SnapshotStore) (d : Disk) (now : FileTime) (id : String) (m : Manifest)
    (h : s.load d id = .ok m) :
    ((∀ e ∈ m.entries, e.IsTimely) → ∃ tries d', Tries now (s.transactionDir id) d tries d' ∧
      tries.map Prod.fst = m.entries ∧ s.restore d now id = (.ok (RestoreReport.addTries {} tries), d') ∧
        (RestoreReport.addTries {} tries).Deals (m.entries.map ManifestEntry.filePath)) ∧
    ∀ before e after, m.entries = before ++ e :: after → (∀ x ∈ before, x.IsTimely) → ¬ e.IsTimely →
      ∃ tries d', Tries now (s.transactionDir id) d tries d' ∧ tries.map Prod.fst = before ∧
        s.restore d now id = (.error (.timeOutOfRange e), d') := by
  have hrestore : s.restore d now id = restoreEntries now (s.transactionDir id) m.entries {} d := by
    rw [restore, h]
  refine ⟨fun htimely => ?_, fun before e after hentries htimely hnever => ?_⟩
  · obtain ⟨tries, d', htries, hfst, hall⟩ := restoreEntries_append htimely d
    refine ⟨tries, d', htries, hfst, ?_, ?_⟩
    · rw [hrestore, ← List.append_nil m.entries, hall]
      rfl
    · have hdeals := RestoreReport.Deals.nil.addTries tries
      rwa [List.nil_append, ← Function.comp_def ManifestEntry.filePath, ← List.map_map, hfst] at hdeals
  · obtain ⟨tries, d', htries, hfst, hall⟩ := restoreEntries_append htimely d
    refine ⟨tries, d', htries, hfst, ?_⟩
    rw [hrestore, hentries, hall, restoreEntries, ManifestEntry.time?_eq_none.2 hnever]

namespace Specimen

def entryOf (name : String) (seconds : Nat) : ManifestEntry := ⟨name, "/ws/" ++ name, name, 0o100644, seconds, 0⟩

/-- Three entries, the second one with some time. -/
def manifestOf (seconds : Nat) : Manifest :=
  ⟨"t1", ⟨1700000000, 0⟩, [entryOf "a.ts" 5, entryOf "b.ts" seconds, entryOf "c.ts" 5]⟩

def place : Place := ["ws".toList, "backups".toList, "t1".toList]

def fileOf (t : Text) : FileEntry := ⟨encodeText t, Disk.permissionsOf 0o600, .ofParts 0 0⟩

/-- A workspace with copies of two files. -/
def copies : Disk :=
  { nodes := [(["ws".toList], .directory), (["ws".toList, "a.ts".toList], .file (fileOf "x".toList)),
      (["ws".toList, "c.ts".toList], .file (fileOf "x".toList)), (["ws".toList, "backups".toList], .directory),
      (place, .directory), (place ++ ["a.ts".toList], .file (fileOf "a".toList)),
      (place ++ ["c.ts".toList], .file (fileOf "c".toList))] }

/-- The workspace with the manifest; there is no copy for the second entry. -/
def keeping (seconds : Nat) : Disk :=
  copies.put (place ++ ["manifest.json".toList]) (.file (fileOf (manifestOf seconds).toJson.pretty.toList))

lemma entry_manifest (seconds : Nat) : (keeping seconds).entry ((SnapshotStore.mk "/ws/backups").manifestPath "t1") =
    .ok (place ++ ["manifest.json".toList], fileOf (manifestOf seconds).toJson.pretty.toList) := by
  have hfree : copies.node? (place ++ ["manifest.json".toList]) ≠ some .directory := by decide +kernel
  have hplace : copies.locate ((SnapshotStore.mk "/ws/backups").manifestPath "t1") =
      .ok (place ++ ["manifest.json".toList]) := by decide +kernel
  exact (Disk.put_sets hfree _).entry hplace

lemma readable_manifest {seconds : Nat} (h : seconds ≤ Json.maxWord) :
    ∀ e ∈ (manifestOf seconds).entries, e.Readable := by
  have hreadable : ∀ name n, n ≤ Json.maxWord → (entryOf name n).Readable := fun name n hn =>
    ⟨show 0o100644 ≤ Json.maxHalfWord by decide, hn, Nat.zero_le _⟩
  simp only [manifestOf, List.forall_mem_cons, List.not_mem_nil, false_imp_iff, implies_true, and_true]
  exact ⟨hreadable _ _ (by decide), hreadable _ _ h, hreadable _ _ (by decide)⟩

lemma load_keeping (seconds : Nat) (h : seconds ≤ Json.maxWord) :
    (SnapshotStore.mk "/ws/backups").load (keeping seconds) "t1" = .ok (manifestOf seconds) := by
  have hcontent : ∀ t, (fileOf t).content = encodeText t := fun _ => rfl
  have htime : (⟨1700000000, 0⟩ : Timestamp).IsValid := ⟨by decide, by decide⟩
  exact load_of_entry (by decide) (entry_manifest seconds) (hcontent _) htime (readable_manifest h)

end Specimen

theorem restore_reports_or_stops_without_copy :
    (∀ e ∈ (Specimen.manifestOf 5).entries, e.IsTimely) ∧
    ∃ report d', (SnapshotStore.mk "/ws/backups").restore (Specimen.keeping 5) (.ofParts 9 0) "t1" = (.ok report, d') ∧
      report.Deals ["a.ts", "b.ts", "c.ts"] ∧ report.restored = ["a.ts", "c.ts"] := by
  have htimely : ∀ e ∈ (Specimen.manifestOf 5).entries, e.IsTimely := by
    simp [Specimen.manifestOf, Specimen.entryOf, ManifestEntry.IsTimely]
  have hload := Specimen.load_keeping 5 (by decide)
  obtain ⟨tries, d', _, _, hrestore, hdeals⟩ :=
    (restore_reports_or_stops ⟨"/ws/backups"⟩ (Specimen.keeping 5) (.ofParts 9 0) "t1" _ hload).1 htimely
  have hrestored : ((SnapshotStore.mk "/ws/backups").restore (Specimen.keeping 5) (.ofParts 9 0) "t1").1.toOption.map
      RestoreReport.restored = some ["a.ts", "c.ts"] := by
    rw [restore, hload]
    decide +kernel
  rw [hrestore] at hrestored
  exact ⟨htimely, _, d', hrestore, hdeals, Option.some.inj hrestored⟩

/-- An impossible time in the second of three entries: the first file has been overwritten, the last one has not, and
there is no report. -/
theorem impossible_time_stops_restore :
    (SnapshotStore.mk "/ws/backups").load (Specimen.keeping Json.maxWord) "t1" = .ok (Specimen.manifestOf Json.maxWord) ∧
    ((SnapshotStore.mk "/ws/backups").restore (Specimen.keeping Json.maxWord) (.ofParts 9 0) "t1").1 =
      .error (.timeOutOfRange (Specimen.entryOf "b.ts" Json.maxWord)) ∧
    let d' := ((SnapshotStore.mk "/ws/backups").restore (Specimen.keeping Json.maxWord) (.ofParts 9 0) "t1").2
    (d'.readText "/ws/a.ts").toOption = some ['a'] ∧ (d'.readText "/ws/c.ts").toOption = some ['x'] := by
  have hload := Specimen.load_keeping Json.maxWord (Nat.le_refl _)
  refine ⟨hload, ?_⟩
  rw [restore, hload]
  decide +kernel

end SnapshotStore
end Autofix
