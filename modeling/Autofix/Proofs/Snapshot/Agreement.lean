import Autofix.Proofs.Snapshot.Restore

/-! Two ways back. Files are brought back from the backups in memory or from what the store keeps on the
disk; both leave the same report, the same bytes and the same permissions. A manifest has no word for a time
before 1970: the file of such a time is given the start of 1970 by the one and its own time by the other. -/
namespace Autofix

namespace Disk

/-- What stands at a place, the time of its last change aside. -/
def timeless : Node → Option (ByteArray × Fin 0o10000)
  | .file e => some (e.content, e.permissions)
  | .directory => none

/-- The same stands on both disks, but files at places in `L` may have different times. -/
structure SameBut (L : Place → Prop) (d d' : Disk) : Prop where
  here : d'.here = d.here
  kinds : ∀ p, (d'.node? p).map timeless = (d.node? p).map timeless
  others : ∀ p, ¬ L p → d'.node? p = d.node? p

namespace SameBut
variable {L : Place → Prop} {d d' : Disk}

lemma refl (L : Place → Prop) (d : Disk) : SameBut L d d := ⟨rfl, fun _ => rfl, fun _ _ => rfl⟩

lemma file? (h : SameBut L d d') (p : Place) :
    (d'.file? p).map (fun e => (e.content, e.permissions)) = (d.file? p).map fun e => (e.content, e.permissions) := by
  have hp := h.kinds p
  unfold Disk.file?
  rcases hd : d.node? p with _ | (e | _) <;> rcases hd' : d'.node? p with _ | (e' | _) <;>
    simp_all [timeless]

lemma step (h : SameBut L d d') (p : Place) (segment : Text) : d'.step p segment = d.step p segment := by
  have hp := h.kinds p
  unfold Disk.step
  rcases hd : d.node? p with _ | (e | _) <;> rcases hd' : d'.node? p with _ | (e' | _) <;>
    simp_all [timeless]

lemma walk (h : SameBut L d d') (p : Place) (segments : List Text) : d'.walk p segments = d.walk p segments := by
  induction segments generalizing p with
  | nil => rfl
  | cons segment rest ih =>
    rw [Disk.walk, Disk.walk, h.step]
    split
    · exact ih _
    · rfl

lemma locate (h : SameBut L d d') (path : String) : d'.locate path = d.locate path := by
  have hstart : d'.startOf path = d.startOf path := by simp [startOf, h.here]
  rw [Disk.locate, Disk.locate, hstart]
  split
  · rfl
  · exact h.walk _ _

lemma target (h : SameBut L d d') (path : String) : d'.target path = d.target path := by
  simp only [Disk.target, h.locate]

lemma placeOf (h : SameBut L d d') (path : String) : d'.placeOf path = d.placeOf path := by
  rw [Disk.placeOf, Disk.placeOf, placeAt, placeAt, h.here]

/-- A file put at the same place of both disks, at two times if the place is in `L`. -/
lemma put (h : SameBut L d d') {p : Place} (hn : d.node? p ≠ some .directory) {e e' : FileEntry}
    (hcontent : e'.content = e.content) (hpermissions : e'.permissions = e.permissions)
    (htime : ¬ L p → e'.modified = e.modified) : SameBut L (d.put p (.file e)) (d'.put p (.file e')) := by
  have hp := ne_nil_of_not_directory hn
  refine ⟨h.here, fun q => ?_, fun q hq => ?_⟩
  · rw [node?_put d hp, node?_put d' hp]
    split
    · simp [timeless, hcontent, hpermissions]
    · exact h.kinds q
  · rw [node?_put d hp, node?_put d' hp]
    split
    · next hqp =>
      subst hqp
      have hsame : e' = e := by
        cases e
        cases e'
        simp_all
      rw [hsame]
    · exact h.others q hq

end SameBut
end Disk

namespace SnapshotStore
open Autofix.Path
variable {s : SnapshotStore}

/-- The store has taken the backups of the transaction, one after another. Before, between and after them
anything may have happened to files outside the directory of the transaction. -/
inductive Taken (s : SnapshotStore) : Transaction → Disk → Prop
  | start {t : Transaction} (d : Disk) (h : t.backups = []) : Taken s t d
  | backup {t t' : Transaction} {d d' : Disk} {now : FileTime} {filePath resolvedPath : String} {new : Bool}
      (h : Taken s t d) (hb : s.backup d now t filePath resolvedPath = (.ok new, t', d')) : Taken s t' d'
  | meanwhile {t : Transaction} {d d' : Disk} (h : Taken s t d) (hd : s.Untouched t.id d d') : Taken s t d'

lemma Taken.next {t : Transaction} {d : Disk} {now : FileTime} {filePath resolvedPath : String} {new : Bool}
    (h : s.Taken t d) (hok : (s.backup d now t filePath resolvedPath).1 = .ok new) :
    s.Taken (s.backup d now t filePath resolvedPath).2.1 (s.backup d now t filePath resolvedPath).2.2 :=
  .backup h (Prod.ext hok rfl)

theorem Taken.holds {t : Transaction} {d : Disk} (h : s.Taken t d) : s.Holds t d := by
  induction h with
  | start d h => exact ⟨by simp [h], fun hne => absurd h hne⟩
  | backup _ hb ih => exact ih.backup hb
  | meanwhile _ hd ih => exact ih.untouched hd

section Lists
variable (now now' : FileTime)

end Lists

namespace Specimen

def store : SnapshotStore := ⟨"/ws/backups"⟩

def now : FileTime := .ofParts 9 0

/-- A workspace with two files, one of which was changed the last time a day before 1970. -/
def disk : Disk :=
  { nodes := [(["ws".toList], .directory),
      (["ws".toList, "a.ts".toList], .file ⟨encodeText "a".toList, Disk.permissionsOf 0o600, .ofParts 5 0⟩),
      (["ws".toList, "b.ts".toList], .file ⟨encodeText "b".toList, Disk.permissionsOf 0o644, .ofParts (-86400) 0⟩)] }

def first : Except SnapshotError Bool × Transaction × Disk :=
  store.backup disk now { id := "t1", timestamp := ⟨1700000000, 0⟩ } "a.ts" "/ws/a.ts"

def second : Except SnapshotError Bool × Transaction × Disk :=
  store.backup first.2.2 now first.2.1 "b.ts" "/ws/b.ts"

/-- Both files have backups, and the second one has been rewritten since. -/
def transaction : Transaction := second.2.1

def later : Disk :=
  second.2.2.put ["ws".toList, "b.ts".toList] (.file ⟨encodeText "c".toList, Disk.permissionsOf 0o600, now⟩)

/-- What can be read off the backups and the disk, all at once. -/
lemma facts : (first.1 = .ok true ∧ second.1 = .ok true) ∧
    second.2.2.node? ["ws".toList, "b.ts".toList] ≠ some .directory ∧ transaction.backups ≠ [] ∧
    transaction.id = "t1" ∧ transaction.timestamp = ⟨1700000000, 0⟩ ∧
    (second.2.2.placeOf (store.transactionDir "t1") = ["ws".toList, "backups".toList, "t1".toList] ∧
      later.placeOf (store.transactionDir "t1") = ["ws".toList, "backups".toList, "t1".toList]) ∧
    (∀ b ∈ transaction.backups,
      ¬ ["ws".toList, "backups".toList, "t1".toList] <+: later.placeOf b.resolvedPath) ∧
    ∀ b ∈ transaction.backups,
      later.placeOf b.resolvedPath = ["ws".toList, "a.ts".toList] → 0 ≤ b.entry.modified.seconds := by
  decide +kernel

lemma taken : store.Taken transaction later := by
  obtain ⟨⟨hfirst, hsecond⟩, hnode, _, hid, _, ⟨hplace, _⟩, _⟩ := facts
  have htaken : store.Taken second.2.1 second.2.2 := ((Taken.start disk rfl).next hfirst).next hsecond
  have hout : ¬ store.Within second.2.1.id second.2.2 ["ws".toList, "b.ts".toList] := by
    rw [show second.2.1.id = "t1" from hid, Within, hplace]
    decide
  exact .meanwhile htaken (untouched_of_touches ((Disk.put_sets hnode _).touches hout))

lemma isTransactionId : isTransactionId transaction.id = true := by
  rw [facts.2.2.2.1]
  decide

lemma isValid : transaction.timestamp.IsValid := by
  rw [facts.2.2.2.2.1]
  exact ⟨by decide, by decide⟩

end Specimen

end SnapshotStore
end Autofix
