import Autofix.Proofs.Snapshot.Agreement
import Mathlib.Data.List.Nodup

/-! A store only ever grows. Whatever transactions take backups in it, in turns and with their files changing
in between, every backup keeps a file of its own with the bytes that were read for it, and every manifest
lists the backups of its transaction. -/
namespace Autofix.SnapshotStore
open Autofix.Path

/-- A call for a backup, with the disk that it found. -/
structure Call where
  id : String
  filePath : String
  resolvedPath : String
  disk : Disk

/-- The file that the call was about, as it was then. -/
def Call.found (call : Call) : Except IoError FileEntry := (call.disk.entry call.resolvedPath).map Prod.snd

/-- The calls of a transaction, of those for one file only the first. -/
def firstCalls (id : String) (calls : List Call) : List Call :=
  (calls.filter fun call => call.id == id).eraseDupsBy fun a b => Path.same a.resolvedPath b.resolvedPath

/-- Transactions have begun, each with a name and a date of its own, and have taken backups in some order.
In between anything may have happened outside their directories. -/
inductive Session (s : SnapshotStore) : List Call → List Transaction → Disk → Prop
  | start (d : Disk) : Session s [] [] d
  | begin {calls : List Call} {ts : List Transaction} {d : Disk} {t : Transaction} (h : Session s calls ts d)
      (empty : t.backups = []) (name : IsName t.id) (date : t.timestamp.IsValid)
      (other : t.id ∉ ts.map Transaction.id) : Session s calls (ts ++ [t]) d
  | backup {calls : List Call} {before after : List Transaction} {t t' : Transaction} {d d' : Disk} {now : FileTime}
      {filePath resolvedPath : String} {new : Bool} (h : Session s calls (before ++ t :: after) d)
      (hb : s.backup d now t filePath resolvedPath = (.ok new, t', d')) :
      Session s (calls ++ [⟨t.id, filePath, resolvedPath, d⟩]) (before ++ t' :: after) d'
  | meanwhile {calls : List Call} {ts : List Transaction} {d d' : Disk} (h : Session s calls ts d)
      (hd : ∀ t ∈ ts, s.Untouched t.id d d') : Session s calls ts d'

section Places
variable (s : SnapshotStore) (d : Disk)

lemma placeOf_file {id n : String} (hid : IsName id) (hn : IsName n) :
    d.placeOf (join (s.transactionDir id) n) = d.placeOf s.directory ++ [id.toList, n.toList] := by
  rw [Disk.placeOf_join_name d _ hn, transactionDir, Disk.placeOf_join_name d _ hid, List.append_assoc]
  rfl

lemma placeOf_file_inj {id id' n n' : String} (hid : IsName id) (hn : IsName n) (hid' : IsName id') (hn' : IsName n')
    (h : d.placeOf (join (s.transactionDir id) n) = d.placeOf (join (s.transactionDir id') n')) :
    id = id' ∧ n = n' := by
  rw [placeOf_file s d hid hn, placeOf_file s d hid' hn', List.append_cancel_left_eq, List.cons.injEq,
    List.cons.injEq, String.toList_inj, String.toList_inj] at h
  exact ⟨h.1, h.2.1⟩

end Places

section OneTransaction
variable {s : SnapshotStore} {t t' : Transaction} {d d' : Disk} {now : FileTime} {filePath resolvedPath : String}
  {new : Bool}

lemma not_same_of_backupFor? (h : t.backupFor? resolvedPath = none) :
    ∀ b ∈ t.backups, Path.same b.resolvedPath resolvedPath = false := by
  simpa [Transaction.backupFor?] using h

/-- A transaction has at most one backup of a file. -/
theorem Taken.distinct_paths (h : s.Taken t d) :
    t.backups.Pairwise fun a b => Path.same a.resolvedPath b.resolvedPath = false := by
  induction h with
  | start d h => simp [h]
  | backup _ hb ih =>
    obtain ⟨_, _, rfl, _⟩ | ⟨_, hnone, p, entry, file, d₁, _, _, rfl, _, _⟩ := backup_ok hb
    · exact ih
    · refine List.pairwise_append.2 ⟨ih, List.pairwise_singleton _ _, fun a ha b hb => ?_⟩
      rw [List.mem_singleton.1 hb]
      exact not_same_of_backupFor? hnone a ha
  | meanwhile _ _ ih => exact ih

/-- A new backup is put where no file stands, so never where one of the others is kept. -/
theorem Taken.distinct_files (h : s.Taken t d) : t.backups.Pairwise fun a b => a.backupFile ≠ b.backupFile := by
  induction h with
  | start d h => simp [h]
  | backup htaken hb ih =>
    obtain ⟨_, _, rfl, _⟩ | ⟨_, _, p, entry, file, d₁, _, hadded, rfl, _, _⟩ := backup_ok hb
    · exact ih
    · refine List.pairwise_append.2 ⟨ih, List.pairwise_singleton _ _, fun a ha b hb => ?_⟩
      rw [List.mem_singleton.1 hb]
      rintro rfl
      obtain ⟨_, q, e, _, _, _, he⟩ := htaken.holds.copy a ha
      have hfree := hadded.free
      rw [← Disk.entry_placeOf he, (Disk.entry_eq_ok.1 he).2] at hfree
      cases hfree
  | meanwhile _ _ ih => exact ih

lemma Taken.name (h : s.Taken t d) {b : Backup} (hb : b ∈ t.backups) :
    ∃ n, IsBackupName n ∧ b.backupFile = join (s.transactionDir t.id) n := by
  obtain ⟨n, _, _, hn, hfile, _⟩ := h.holds.copy b hb
  exact ⟨n, hn, hfile⟩

lemma Taken.nodup_places (h : s.Taken t d) (hid : IsName t.id) (d' : Disk) :
    (t.backups.map fun b => d'.placeOf b.backupFile).Nodup := by
  refine List.pairwise_map.2 (h.distinct_files.imp_of_mem fun ha hb hne heq => hne ?_)
  obtain ⟨n, hn, hfile⟩ := h.name ha
  obtain ⟨m, hm, hfile'⟩ := h.name hb
  rw [hfile, hfile'] at heq ⊢
  rw [(placeOf_file_inj s d' hid hn.isName hid hm.isName heq).2]

lemma Taken.placeOf_ne_manifestPath (h : s.Taken t d) (hid : IsName t.id) {b : Backup} (hb : b ∈ t.backups)
    {id : String} (hid' : IsName id) (d' : Disk) : d'.placeOf b.backupFile ≠ d'.placeOf (s.manifestPath id) := by
  obtain ⟨n, hn, hfile⟩ := h.name hb
  rw [hfile, manifestPath]
  intro heq
  have hname := (placeOf_file_inj s d' hid hn.isName hid' isName_manifest heq).2
  exact hn.ne_manifest (congrArg String.toList hname)

/-- What a manifest says about the backups of its transaction. -/
theorem Taken.manifest (h : s.Taken t d) (hne : t.backups ≠ []) (hdate : t.timestamp.IsValid) :
    ∃ text m, d.readText (s.manifestPath t.id) = .ok text ∧ Manifest.parse text = .ok m ∧ m.transactionId = t.id ∧
      m.timestamp = t.timestamp ∧
      m.entries.map (fun e =>
          (e.filePath, e.resolvedPath, join (s.transactionDir t.id) e.backupFile, e.mode, e.time?)) =
        t.backups.map fun b =>
          (b.filePath, b.resolvedPath, b.backupFile, b.entry.mode, some b.sinceEpoch.entry.modified) := by
  obtain ⟨e, hcontent, he⟩ := h.holds.manifest hne
  have hfits : ∀ m ∈ (Manifest.ofTransaction t).entries, m.Readable := by
    intro m hm
    obtain ⟨b, _, rfl⟩ := List.mem_map.1 hm
    exact (ManifestEntry.fits_ofBackup b).readable
  refine ⟨_, _, ?_, Manifest.parse_pretty hdate hfits, rfl, rfl, ?_⟩
  · rw [Disk.readText_of_entry he, hcontent, decodeText_encodeText]
  · rw [Manifest.ofTransaction, List.map_map]
    refine List.map_congr_left fun b hb => ?_
    obtain ⟨n, hn, hfile⟩ := h.name hb
    have htime := ManifestEntry.time?_ofBackup b
    simp only [Function.comp_apply, htime]
    simp [ManifestEntry.ofBackup, hfile, fileName?_join hn.isName]

/-- A backup leaves the directories of other transactions alone. -/
theorem untouched_of_backup (hid : IsName t.id) {id : String} (hid' : IsName id) (hne : id ≠ t.id)
    (h : s.backup d now t filePath resolvedPath = (.ok new, t', d')) : s.Untouched id d d' := by
  intro n p e hn he
  obtain ⟨_, _, _, rfl⟩ | ⟨_, _, q, entry, file, d₁, _, hadded, _, _, hwritten⟩ := backup_ok h
  · exact he
  · have he₁ := hadded.entry he
    refine hwritten.entry he₁ fun hp => hne ?_
    rw [Disk.entry_placeOf he₁, manifestPath] at hp
    exact (placeOf_file_inj s d₁ hid' hn hid isName_manifest hp).1

end OneTransaction

section FirstCalls

lemma eraseDupsBy_concat {α : Type} (r : α → α → Bool) (l : List α) (a : α) :
    (l ++ [a]).eraseDupsBy r =
      if (l.eraseDupsBy r).any (r a) then l.eraseDupsBy r else l.eraseDupsBy r ++ [a] := by
  have hloop : ∀ seen : List α, List.eraseDupsBy.loop r (l ++ [a]) seen =
      if (List.eraseDupsBy.loop r l seen).any (r a) then List.eraseDupsBy.loop r l seen
      else List.eraseDupsBy.loop r l seen ++ [a] := by
    induction l with
    | nil =>
      intro seen
      cases h : seen.any (r a) <;> simp [List.eraseDupsBy.loop, h]
    | cons x l ih =>
      intro seen
      cases h : seen.any (r x) <;> simp [List.eraseDupsBy.loop, h, ih]
  exact hloop []

lemma firstCalls_concat_of_ne {id : String} {call : Call} (h : call.id ≠ id) (calls : List Call) :
    firstCalls id (calls ++ [call]) = firstCalls id calls := by
  simp [firstCalls, h]

lemma firstCalls_concat (calls : List Call) (call : Call) :
    firstCalls call.id (calls ++ [call]) =
      if (firstCalls call.id calls).any (fun c => Path.same call.resolvedPath c.resolvedPath) then
        firstCalls call.id calls
      else firstCalls call.id calls ++ [call] := by
  have hlast : [call].filter (fun c => c.id == call.id) = [call] := by simp
  rw [firstCalls, List.filter_append, hlast, eraseDupsBy_concat]
  rfl

lemma firstCalls_eq_nil {id : String} {calls : List Call} (h : ∀ call ∈ calls, call.id ≠ id) :
    firstCalls id calls = [] := by
  have hnone : calls.filter (fun call => call.id == id) = [] := by simpa using h
  rw [firstCalls, hnone]
  rfl

end FirstCalls

/-- The backups of a transaction are what its first calls found. -/
def Captures (calls : List Call) (t : Transaction) : Prop :=
  t.backups.map (fun b => (b.filePath, b.resolvedPath, (.ok b.entry : Except IoError FileEntry))) =
    (firstCalls t.id calls).map fun call => (call.filePath, call.resolvedPath, call.found)

section Captures
variable {s : SnapshotStore} {calls : List Call} {t t' : Transaction} {d d' : Disk} {now : FileTime}
  {filePath resolvedPath : String} {new : Bool}

lemma Captures.any_same (h : Captures calls t) (path : String) :
    (firstCalls t.id calls).any (fun call => Path.same path call.resolvedPath) = (t.backupFor? path).isSome := by
  have hpaths : (firstCalls t.id calls).map Call.resolvedPath = t.backups.map Backup.resolvedPath := by
    have := congrArg (List.map fun x : String × String × Except IoError FileEntry => x.2.1) h
    rw [List.map_map, List.map_map] at this
    exact this.symm
  have hcalls : (firstCalls t.id calls).any (fun call => Path.same path call.resolvedPath) =
      ((firstCalls t.id calls).map Call.resolvedPath).any (Path.same path) := by
    rw [List.any_map]
    rfl
  have hsymm : ∀ p q : String, Path.same p q = Path.same q p := fun p q => Bool.beq_comm
  rw [hcalls, hpaths, List.any_map, Bool.eq_iff_iff, List.any_eq_true, Transaction.backupFor?, List.find?_isSome]
  simp only [Function.comp_apply, hsymm path]

theorem Captures.backup (h : Captures calls t) (hb : s.backup d now t filePath resolvedPath = (.ok new, t', d')) :
    Captures (calls ++ [⟨t.id, filePath, resolvedPath, d⟩]) t' := by
  have hany := h.any_same resolvedPath
  have hcalls := firstCalls_concat calls ⟨t.id, filePath, resolvedPath, d⟩
  obtain ⟨_, hsome, rfl, _⟩ | ⟨_, hnone, p, entry, file, d₁, hentry, _, rfl, _, _⟩ := backup_ok hb
  · rw [hsome] at hany
    rw [if_pos hany] at hcalls
    rw [Captures, hcalls]
    exact h
  · rw [hnone] at hany
    rw [if_neg (by simp [hany])] at hcalls
    rw [Captures, hcalls, List.map_append, List.map_append, h]
    simp [Call.found, hentry, Except.map]

end Captures

/-- What holds after every step of a session. -/
structure Consistent (s : SnapshotStore) (calls : List Call) (ts : List Transaction) (d : Disk) : Prop where
  ids : (ts.map Transaction.id).Nodup
  names : ∀ t ∈ ts, IsName t.id
  dates : ∀ t ∈ ts, t.timestamp.IsValid
  known : ∀ call ∈ calls, call.id ∈ ts.map Transaction.id
  taken : ∀ t ∈ ts, s.Taken t d
  captures : ∀ t ∈ ts, Captures calls t

section Steps
variable {s : SnapshotStore} {calls : List Call} {ts before after : List Transaction} {t t' : Transaction}
  {d d' : Disk} {now : FileTime} {filePath resolvedPath : String} {new : Bool}

lemma Consistent.start (d : Disk) : s.Consistent [] [] d := by constructor <;> simp

lemma Consistent.begin (h : s.Consistent calls ts d) (empty : t.backups = []) (name : IsName t.id)
    (date : t.timestamp.IsValid) (other : t.id ∉ ts.map Transaction.id) : s.Consistent calls (ts ++ [t]) d := by
  have hnone : firstCalls t.id calls = [] := by
    refine firstCalls_eq_nil fun call hcall heq => other ?_
    rw [← heq]
    exact h.known call hcall
  refine ⟨?_, ?_, ?_, ?_, ?_, ?_⟩
  · rw [List.map_append, List.map_singleton]
    exact h.ids.append (List.nodup_singleton _) (List.disjoint_singleton.2 other)
  · exact List.forall_mem_append.2 ⟨h.names, by simpa using name⟩
  · exact List.forall_mem_append.2 ⟨h.dates, by simpa using date⟩
  · intro call hcall
    rw [List.map_append]
    exact List.mem_append_left _ (h.known call hcall)
  · exact List.forall_mem_append.2 ⟨h.taken, by simpa using .start d empty⟩
  · exact List.forall_mem_append.2 ⟨h.captures, by simp [Captures, hnone, empty]⟩

lemma Consistent.meanwhile (h : s.Consistent calls ts d) (hd : ∀ t ∈ ts, s.Untouched t.id d d') :
    s.Consistent calls ts d' :=
  ⟨h.ids, h.names, h.dates, h.known, fun t ht => .meanwhile (h.taken t ht) (hd t ht), h.captures⟩

/-- A backup concerns one transaction; the others have other ids. -/
lemma Consistent.others (h : s.Consistent calls (before ++ t :: after) d) {u : Transaction}
    (hu : u ∈ before ++ t' :: after) : u = t' ∨ u ∈ before ++ t :: after ∧ u.id ≠ t.id := by
  have hids := h.ids
  rw [List.map_append, List.map_cons, List.nodup_middle, List.nodup_cons, ← List.map_append] at hids
  have hother : u ∈ before ++ after → u.id ≠ t.id := fun hu heq => hids.1 (heq ▸ List.mem_map_of_mem hu)
  rw [List.mem_append, List.mem_cons] at hu
  rcases hu with hu | rfl | hu
  · exact .inr ⟨List.mem_append_left _ hu, hother (List.mem_append_left _ hu)⟩
  · exact .inl rfl
  · exact .inr ⟨List.mem_append_right _ (List.mem_cons_of_mem _ hu), hother (List.mem_append_right _ hu)⟩

/-- A session stays consistent under a backup, which changes one transaction and adds files to the directory of
this one alone. -/
theorem Consistent.backup (h : s.Consistent calls (before ++ t :: after) d)
    (hb : s.backup d now t filePath resolvedPath = (.ok new, t', d')) :
    s.Consistent (calls ++ [⟨t.id, filePath, resolvedPath, d⟩]) (before ++ t' :: after) d' := by
  have ht : t ∈ before ++ t :: after := by simp
  obtain ⟨hid, hdate⟩ : t'.id = t.id ∧ t'.timestamp = t.timestamp := by
    obtain ⟨bs, hbs, _⟩ := backup_transaction s d now t filePath resolvedPath
    rw [hb] at hbs
    dsimp only at hbs
    simp [hbs]
  have hids : (before ++ t' :: after).map Transaction.id = (before ++ t :: after).map Transaction.id := by
    simp [hid]
  refine ⟨by rw [hids]; exact h.ids, fun u hu => ?_, fun u hu => ?_, fun call hcall => ?_, fun u hu => ?_,
    fun u hu => ?_⟩
  · obtain rfl | ⟨hu, _⟩ := h.others hu
    · rw [hid]
      exact h.names t ht
    · exact h.names u hu
  · obtain rfl | ⟨hu, _⟩ := h.others hu
    · rw [hdate]
      exact h.dates t ht
    · exact h.dates u hu
  · rw [hids]
    rcases List.mem_append.1 hcall with hcall | hcall
    · exact h.known call hcall
    · rw [List.mem_singleton.1 hcall]
      exact List.mem_map_of_mem ht
  · obtain rfl | ⟨hu, hne⟩ := h.others hu
    · exact .backup (h.taken t ht) hb
    · exact .meanwhile (h.taken u hu) (untouched_of_backup (h.names t ht) (h.names u hu) hne hb)
  · obtain rfl | ⟨hu, hne⟩ := h.others hu
    · exact (h.captures t ht).backup hb
    · rw [Captures, firstCalls_concat_of_ne fun heq => hne heq.symm]
      exact h.captures u hu

theorem Session.consistent (h : s.Session calls ts d) : s.Consistent calls ts d := by
  induction h with
  | start d => exact .start d
  | begin _ empty name date other ih => exact ih.begin empty name date other
  | backup _ hb ih => exact ih.backup hb
  | meanwhile _ hd ih => exact ih.meanwhile hd

lemma Consistent.nodup_places (h : s.Consistent calls ts d) :
    ((ts.flatMap Transaction.backups).map fun b => d.placeOf b.backupFile).Nodup := by
  rw [List.map_flatMap, List.nodup_flatMap]
  refine ⟨fun t ht => (h.taken t ht).nodup_places (h.names t ht) d, ?_⟩
  refine (List.pairwise_map.1 h.ids).imp_of_mem fun {t u} ht hu hne p hp hq => hne ?_
  obtain ⟨a, ha, rfl⟩ := List.mem_map.1 hp
  obtain ⟨b, hb, heq⟩ := List.mem_map.1 hq
  obtain ⟨n, hn, hfile⟩ := (h.taken t ht).name ha
  obtain ⟨m, hm, hfile'⟩ := (h.taken u hu).name hb
  rw [hfile, hfile'] at heq
  exact (placeOf_file_inj s d (h.names u hu) hm.isName (h.names t ht) hn.isName heq).1.symm

end Steps

/-- After any backups by any transactions each backup has a file of its own that holds the bytes that were
read for it, at a place where neither another backup nor a manifest is kept. The backups of a transaction are
what the first call for each file found, and its manifest lists them in that order, with times since 1970. -/
theorem session_appends (s : SnapshotStore) (calls : List Call) (ts : List Transaction) (d : Disk)
    (h : s.Session calls ts d) :
    (∀ t ∈ ts, ∀ b ∈ t.backups, d.readBytes b.backupFile = .ok b.entry.content) ∧
    ((ts.flatMap Transaction.backups).map fun b => d.placeOf b.backupFile).Nodup ∧
    (∀ t ∈ ts, ∀ b ∈ t.backups, ∀ u ∈ ts, d.placeOf b.backupFile ≠ d.placeOf (s.manifestPath u.id)) ∧
    (∀ t ∈ ts, t.backups.Pairwise fun a b => Path.same a.resolvedPath b.resolvedPath = false) ∧
    (∀ t ∈ ts, Captures calls t) ∧
    ∀ t ∈ ts, t.backups ≠ [] →
      ∃ text m, d.readText (s.manifestPath t.id) = .ok text ∧ Manifest.parse text = .ok m ∧ m.transactionId = t.id ∧
        m.timestamp = t.timestamp ∧
        m.entries.map (fun e =>
            (e.filePath, e.resolvedPath, join (s.transactionDir t.id) e.backupFile, e.mode, e.time?)) =
          t.backups.map fun b =>
            (b.filePath, b.resolvedPath, b.backupFile, b.entry.mode, some b.sinceEpoch.entry.modified) := by
  have hc := h.consistent
  refine ⟨fun t ht b hb => ?_, hc.nodup_places, fun t ht b hb u hu => ?_, fun t ht => (hc.taken t ht).distinct_paths,
    hc.captures, fun t ht hne => (hc.taken t ht).manifest hne (hc.dates t ht)⟩
  · obtain ⟨_, _, e, _, _, hcontent, he⟩ := (hc.taken t ht).holds.copy b hb
    rw [Disk.readBytes_of_entry he, hcontent]
  · exact (hc.taken t ht).placeOf_ne_manifestPath (hc.names t ht) hb (hc.names u hu) d

namespace Specimen

/-- Three files whose names in a store are alike. -/
def alike : Disk :=
  { nodes := [(["ws".toList], .directory), (["ws".toList, "a".toList], .directory),
      (["ws".toList, "a".toList, "b".toList], .file ⟨encodeText "1".toList, Disk.permissionsOf 0o644, now⟩),
      (["ws".toList, "a_b".toList], .file ⟨encodeText "2".toList, Disk.permissionsOf 0o644, now⟩),
      (["ws".toList, "a_b.1".toList], .file ⟨encodeText "3".toList, Disk.permissionsOf 0o644, now⟩)] }

def one : Transaction := { id := "t1", timestamp := ⟨1700000000, 0⟩ }

def two : Transaction := { one with id := "t2" }

def taking (d : Disk) (t : Transaction) (path : String) : Except SnapshotError Bool × Transaction × Disk :=
  store.backup d now t path (join "/ws" path)

def call (d : Disk) (id path : String) : Call := ⟨id, path, join "/ws" path, d⟩

def step₁ : Except SnapshotError Bool × Transaction × Disk := taking alike one "a/b"

def step₂ : Except SnapshotError Bool × Transaction × Disk := taking step₁.2.2 step₁.2.1 "a_b"

def step₃ : Except SnapshotError Bool × Transaction × Disk := taking step₂.2.2 two "a/b"

/-- One of the files has been rewritten since its backups were taken. -/
def rewritten : Disk :=
  step₃.2.2.put ["ws".toList, "a".toList, "b".toList] (.file ⟨encodeText "4".toList, Disk.permissionsOf 0o644, now⟩)

def step₄ : Except SnapshotError Bool × Transaction × Disk := taking rewritten step₂.2.1 "a_b.1"

def step₅ : Except SnapshotError Bool × Transaction × Disk := taking step₄.2.2 step₄.2.1 "a//b"

def calls : List Call :=
  [call alike "t1" "a/b", call step₁.2.2 "t1" "a_b", call step₂.2.2 "t2" "a/b", call rewritten "t1" "a_b.1",
    call step₄.2.2 "t1" "a//b"]

/-- The files of the first transaction's backups. -/
def kept : List (String × Array UInt8) :=
  [("/ws/backups/t1/2023-11-14T22-13-20.000Z_a_b", #[49]), ("/ws/backups/t1/2023-11-14T22-13-20.000Z_a_b.1", #[50]),
    ("/ws/backups/t1/2023-11-14T22-13-20.000Z_a_b.1.1", #[51])]

/-- What can be read off the steps, all at once. -/
lemma outcomes :
    (step₁.1 = .ok true ∧ step₂.1 = .ok true ∧ step₃.1 = .ok true ∧ step₄.1 = .ok true ∧ step₅.1 = .ok false) ∧
    (step₁.2.1.id = "t1" ∧ step₂.2.1.id = "t1" ∧ step₄.2.1.id = "t1") ∧
    step₃.2.2.node? ["ws".toList, "a".toList, "b".toList] ≠ some .directory ∧ step₃.2.2.here = [] ∧
    step₅.2.1.backups.map (fun b => (b.backupFile, b.entry.content.data)) = kept := by
  decide +kernel

lemma begun : store.Session [] [one, two] alike := by
  have hdate : one.timestamp.IsValid := ⟨by decide, by decide⟩
  have hone : store.Session [] [one] alike :=
    .begin (.start alike) rfl (isName_of_isTransactionId (by decide)) hdate (by simp)
  exact .begin hone rfl (isName_of_isTransactionId (by decide)) hdate (by decide)

lemma untouched_rewritten {id : String} (hid : IsName id) : store.Untouched id step₃.2.2 rewritten := by
  obtain ⟨_, _, hnode, hhere, _⟩ := outcomes
  refine untouched_of_touches ((Disk.put_sets hnode _).touches fun hwithin => ?_)
  have hstore : step₃.2.2.placeOf store.directory = ["ws".toList, "backups".toList] := by
    rw [Disk.placeOf, Disk.placeAt, hhere]
    decide
  rw [Within, transactionDir, Disk.placeOf_join_name _ _ hid, hstore] at hwithin
  exact absurd ((List.prefix_append _ _).trans hwithin) (by decide)

lemma take {r : Except SnapshotError Bool × Transaction × Disk} {d : Disk} {t : Transaction} {path : String}
    (hr : taking d t path = r) {calls : List Call} (before : List Transaction) {after : List Transaction}
    (h : store.Session calls (before ++ t :: after) d) {id : String} (hid : t.id = id) {new : Bool}
    (hok : r.1 = .ok new) :
    store.Session (calls ++ [call d id path]) (before ++ r.2.1 :: after) r.2.2 := by
  subst hid hr
  exact .backup h (Prod.ext hok rfl)

lemma session : store.Session calls [step₅.2.1, step₃.2.1] step₅.2.2 := by
  obtain ⟨⟨h₁, h₂, h₃, h₄, h₅⟩, ⟨hid₁, hid₂, hid₄⟩, _⟩ := outcomes
  have s₁ := take (r := step₁) rfl [] begun rfl h₁
  have s₂ : store.Session _ [step₂.2.1, two] _ := take (r := step₂) rfl [] s₁ hid₁ h₂
  have s₃ : store.Session _ [step₂.2.1, step₃.2.1] _ := take (r := step₃) rfl [step₂.2.1] s₂ rfl h₃
  have s₃' : store.Session _ _ rewritten :=
    .meanwhile s₃ fun t ht => untouched_rewritten (s₃.consistent.names t ht)
  have s₄ := take (r := step₄) rfl [] s₃' hid₂ h₄
  exact take (r := step₅) rfl [] s₄ hid₄ h₅

end Specimen

/-- Two transactions take turns; the first one has backups of three files whose names in the store are alike,
and asks again for one that has been rewritten. -/
theorem session_appends_alike :
    Specimen.store.Session Specimen.calls [Specimen.step₅.2.1, Specimen.step₃.2.1] Specimen.step₅.2.2 ∧
    Specimen.step₅.2.1.backups.map (fun b => (b.backupFile, b.entry.content.data)) = Specimen.kept ∧
    (∀ b ∈ Specimen.step₅.2.1.backups, Specimen.step₅.2.2.readBytes b.backupFile = .ok b.entry.content) ∧
    Captures Specimen.calls Specimen.step₅.2.1 := by
  obtain ⟨hbytes, _, _, _, hcaptures, _⟩ := session_appends _ _ _ _ Specimen.session
  exact ⟨Specimen.session, Specimen.outcomes.2.2.2.2, hbytes _ (by simp), hcaptures _ (by simp)⟩

end Autofix.SnapshotStore
