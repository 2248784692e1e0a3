import Autofix.Proofs.Disk.Frame
import Autofix.Proofs.Snapshot.Manifest
import Autofix.Snapshot.Store

/-! Taking backups. A transaction writes below a directory of its own alone; there each backup has a file
that nothing overwrites later, and the manifest lists them all. -/
namespace Autofix

namespace SnapshotStore
open Autofix.Path

/-- A name that a backup may have in the directory of its transaction. -/
structure IsBackupName (n : String) : Prop where
  no_slash : '/' ∉ n.toList
  underscore : '_' ∈ n.toList

lemma IsBackupName.isName {n : String} (h : IsBackupName n) : IsName n :=
  isName_of_underscore h.no_slash h.underscore

lemma isName_manifest : IsName "manifest.json" := ⟨by decide, by decide⟩

lemma IsBackupName.ne_manifest {n : String} (h : IsBackupName n) : n.toList ≠ "manifest.json".toList := by
  intro he
  have hu := h.underscore
  rw [he] at hu
  exact absurd hu (by decide)

lemma slash_notMem_flatten (path : String) : '/' ∉ (flatten path).toList := by
  intro h
  simp only [flatten, String.toList_ofList, Text.replaceChars, List.mem_map] at h
  obtain ⟨c, _, heq⟩ := h
  split at heq
  · exact absurd heq (by decide)
  · next hc =>
    subst heq
    exact hc (by decide)

lemma isBackupName_backupName (t : Transaction) (filePath : String) : IsBackupName (backupName t filePath) := by
  refine ⟨?_, by simp [backupName]⟩
  simp only [backupName, String.toList_append, List.mem_append, not_or]
  exact ⟨⟨Timestamp.slash_notMem_fileText _, by decide⟩, slash_notMem_flatten _⟩

lemma IsBackupName.numbered {n : String} (h : IsBackupName n) (suffix : Nat) : IsBackupName s!"{n}.{suffix}" := by
  have hdigits : '/' ∉ Nat.toDigits 10 suffix := fun hd => absurd (isDigit_of_mem_digitsOf hd) (by decide)
  have htext : (s!"{n}.{suffix}").toList = n.toList ++ '.' :: Nat.toDigits 10 suffix := by
    change (n ++ "." ++ Nat.repr suffix).toList = _
    simp [String.toList_append]
  refine ⟨?_, ?_⟩
  · rw [htext]
    simp [h.no_slash, hdigits]
  · rw [htext]
    simp [h.underscore]

/-- The id of a transaction names its directory. -/
theorem isName_of_isTransactionId {id : String} (h : isTransactionId id = true) : IsName id := by
  simp only [isTransactionId, Bool.and_eq_true, List.all_eq_true] at h
  obtain ⟨hne, hall⟩ := h
  have hslash : '/' ∉ id.toList := fun hs => absurd (hall _ hs) (by decide)
  have hdot : '.' ∉ id.toList := fun hs => absurd (hall _ hs) (by decide)
  refine ⟨hslash, ?_⟩
  have h0 : id.toList ≠ [] := by
    intro he
    simp [String.toList_eq_nil_iff.1 he] at hne
  have h1 : id.toList ≠ ['.'] := by rintro he; simp [he] at hdot
  have h2 : id.toList ≠ ['.', '.'] := by rintro he; simp [he] at hdot
  simp [Component.ofSegment?, h0, h1, h2]

lemma isAlphanum_hexDigit (n : Nat) : (Json.hexDigit n).isAlphanum = true := by
  by_cases h : n < 16
  · interval_cases n <;> decide
  · simp only [Json.hexDigit, List.getD_eq_getElem?_getD]
    rw [List.getElem?_eq_none (by simpa using h)]
    decide

/-- Random ids may be the ids of transactions. -/
theorem isTransactionId_randomId (bytes : List UInt8) : isTransactionId (Transaction.randomId bytes) = true := by
  have hdigits : ∀ bytes : List UInt8, ∀ c ∈ Fix.hexadecimal bytes, c.isAlphanum = true := by
    intro bytes c hc
    obtain ⟨b, _, hc⟩ := List.mem_flatMap.1 hc
    rcases List.mem_pair.1 hc with rfl | rfl <;> exact isAlphanum_hexDigit _
  have hgroup : ∀ start size, ∀ c ∈ ((Fix.hexadecimal ((bytes.modify 6 fun b => b % 16 + 0x40).modify 8
      fun b => b % 64 + 0x80)).drop start).take size, c.isAlphanum = true :=
    fun start size c hc => hdigits _ c (List.mem_of_mem_drop (List.mem_of_mem_take hc))
  have hchars : ∀ c ∈ (Transaction.randomId bytes).toList, c.isAlphanum = true ∨ c = '-' := by
    intro c hc
    simp only [Transaction.randomId, String.toList_ofList, Text.join, List.mem_append, List.mem_singleton] at hc
    grind
  have hne : (Transaction.randomId bytes).toList ≠ [] := by simp [Transaction.randomId, Text.join]
  simp only [isTransactionId, Bool.and_eq_true, List.all_eq_true, Bool.or_eq_true, beq_iff_eq]
  refine ⟨?_, fun c hc => .inl (hchars c hc)⟩
  simpa using hne

section Persist
variable {d d' : Disk} {now : FileTime} {dir name : String} {bytes : ByteArray}

/-- A new file with some bytes stands in a directory under a name for backups. -/
structure Added (dir : String) (bytes : ByteArray) (file : String) (d d' : Disk) : Prop where
  name : ∃ n, IsBackupName n ∧ file = join dir n
  free : d.file? (d.placeOf file) = none
  sets : ∃ e, e.content = bytes ∧ d'.entry file = .ok (d.placeOf file, e) ∧ Disk.Sets (d.placeOf file) e d d'

/-- The first free name is given to a new file; the induction is on the number of names that are tried. -/
lemma createFree_ok (hname : IsBackupName name) {fuel suffix : Nat} {n file : String} (hn : IsBackupName n)
    (h : createFree d now dir name bytes fuel suffix (join dir n) = (.ok file, d')) : Added dir bytes file d d' := by
  induction fuel generalizing suffix n with
  | zero => cases h
  | succ fuel ih =>
    rw [createFree] at h
    split at h
    · next hc =>
      cases h
      obtain ⟨p, e, hl, hfree, he, hset⟩ := Disk.create_ok hc
      obtain rfl := Disk.locate_eq_placeOf hl
      exact ⟨⟨n, hn, rfl⟩, Disk.file?_eq_none_of_none hfree, e, he, hset.entry hl, hset⟩
    · split at h
      · exact ih (hname.numbered suffix) h
      · cases h

lemma createFree_error {fuel suffix : Nat} {candidate : String} {e : String × IoError}
    (h : createFree d now dir name bytes fuel suffix candidate = (.error e, d')) : d' = d := by
  induction fuel generalizing suffix candidate with
  | zero => cases h; rfl
  | succ fuel ih =>
    rw [createFree] at h
    split at h
    · cases h
    · next hc =>
      split at h
      · exact ih h
      · cases h
        exact Disk.create_error hc

/-- A file that is kept is new in its directory. -/
theorem persist_ok (hname : IsBackupName name) {file : String}
    (h : persist d now dir name bytes = (.ok file, d')) : Added dir bytes file d d' := by
  unfold persist at h
  split at h
  · cases h
  · next hdirs =>
    have hd := Disk.makeDirectories_touches hdirs
    obtain ⟨hn, hfree, e, he, hentry, hset⟩ := createFree_ok hname hname h
    rw [hd.evolves.placeOf] at hfree hentry hset
    rw [hd.others _ id] at hfree
    exact ⟨hn, hfree, e, he, hentry, (hd.mono fun _ hp => hp.elim).trans hset.toTouches, hset.file⟩

/-- A file that could not be kept leaves all files as they were. -/
theorem persist_error {e : String × IoError} (h : persist d now dir name bytes = (.error e, d')) :
    Disk.Touches (fun _ => False) d d' := by
  unfold persist at h
  split at h
  · next hdirs =>
    cases h
    exact Disk.makeDirectories_touches hdirs
  · next hdirs =>
    rw [createFree_error h]
    exact Disk.makeDirectories_touches hdirs

end Persist

section Manifests
variable {s : SnapshotStore} {d d' : Disk} {now : FileTime} {t : Transaction}

/-- The manifest of a transaction stands on the disk. -/
def HasManifest (s : SnapshotStore) (t : Transaction) (d : Disk) : Prop :=
  ∃ e, e.content = encodeText (Manifest.ofTransaction t).toJson.pretty.toList ∧
    d.entry (s.manifestPath t.id) = .ok (d.placeOf (s.manifestPath t.id), e)

lemma writeManifest_ok (h : s.writeManifest d now t = (.ok (), d')) :
    s.HasManifest t d' ∧ Disk.Touches (· = d.placeOf (s.manifestPath t.id)) d d' := by
  unfold writeManifest at h
  split at h
  · next hw =>
    cases h
    obtain ⟨p, e, hl, he, hset⟩ := Disk.write_ok hw
    obtain rfl := Disk.locate_eq_placeOf hl
    refine ⟨⟨e, he, ?_⟩, hset.toTouches⟩
    rw [hset.evolves.placeOf]
    exact hset.entry hl
  · cases h

lemma writeManifest_error {e : SnapshotError} (h : s.writeManifest d now t = (.error e, d')) : d' = d := by
  unfold writeManifest at h
  split at h
  · cases h
  · next hw =>
    cases h
    exact Disk.write_error hw

end Manifests

/-- Is the place in the directory of a transaction, or below it? -/
def Within (s : SnapshotStore) (id : String) (d : Disk) (p : Place) : Prop := d.placeOf (s.transactionDir id) <+: p

lemma within_join (s : SnapshotStore) (id : String) (d : Disk) {n : String} (h : IsName n) :
    s.Within id d (d.placeOf (join (s.transactionDir id) n)) := by
  rw [Within, Disk.placeOf_join_name d _ h]
  exact List.prefix_append _ _

/-- The directory of a transaction stands in the directory of the store. -/
theorem Within.directory {s : SnapshotStore} {id : String} {d : Disk} {p : Place} (h : s.Within id d p)
    (hid : isTransactionId id = true) : d.placeOf s.directory <+: p := by
  refine (List.prefix_append _ [id.toList]).trans ?_
  rw [← Disk.placeOf_join_name d s.directory (isName_of_isTransactionId hid)]
  exact h

section Untouched
variable {s : SnapshotStore} {t : Transaction} {d d' : Disk}

/-- Files that the directory of a transaction holds on the first disk it also holds on the second. -/
def Untouched (s : SnapshotStore) (id : String) (d d' : Disk) : Prop :=
  ∀ n p e, IsName n → d.entry (join (s.transactionDir id) n) = .ok (p, e) →
    d'.entry (join (s.transactionDir id) n) = .ok (p, e)

lemma untouched_of_touches {id : String} (h : Disk.Touches (fun p => ¬ s.Within id d p) d d') :
    s.Untouched id d d' := by
  intro n p e hn he
  refine h.entry he fun hp => hp ?_
  rw [Disk.entry_placeOf he]
  exact within_join s id d hn

/-- The store holds a copy of each backup and the manifest of them all. -/
structure Holds (s : SnapshotStore) (t : Transaction) (d : Disk) : Prop where
  copy : ∀ b ∈ t.backups, ∃ n p e, IsBackupName n ∧ b.backupFile = join (s.transactionDir t.id) n ∧
    e.content = b.entry.content ∧ d.entry b.backupFile = .ok (p, e)
  manifest : t.backups ≠ [] → s.HasManifest t d

lemma HasManifest.untouched (h : s.HasManifest t d) (hd : s.Untouched t.id d d') :
    s.HasManifest t d' := by
  obtain ⟨e, hcontent, he⟩ := h
  have he' := hd _ _ _ isName_manifest he
  refine ⟨e, hcontent, ?_⟩
  rw [manifestPath, ← Disk.entry_placeOf he']
  exact he'

lemma Holds.untouched (h : s.Holds t d) (hd : s.Untouched t.id d d') :
    s.Holds t d' := by
  refine ⟨fun b hb => ?_, fun hne => (h.manifest hne).untouched hd⟩
  obtain ⟨n, p, e, hn, hfile, hcontent, he⟩ := h.copy b hb
  rw [hfile] at he ⊢
  exact ⟨n, p, e, hn, rfl, hcontent, hd n p e hn.isName he⟩

end Untouched

/-- What a store keeps of a transaction that began on the disk `start`. -/
structure Kept (s : SnapshotStore) (start : Disk) (t : Transaction) (d : Disk) : Prop where
  touches : Disk.Touches (s.Within t.id start) start d
  original : ∀ b ∈ t.backups, ∃ p e, start.entry b.resolvedPath = .ok (p, e) ∧
    (¬ s.Within t.id start p → b.entry = e)
  copy : ∀ b ∈ t.backups, ∃ n e, IsBackupName n ∧ b.backupFile = join (s.transactionDir t.id) n ∧
    e.content = b.entry.content ∧ d.entry b.backupFile = .ok (start.placeOf b.backupFile, e)
  manifest : t.backups ≠ [] → s.HasManifest t d

section Backup
variable {s : SnapshotStore} {start d d' : Disk} {now : FileTime} {t t' : Transaction}
  {filePath resolvedPath : String}

lemma kept_nil (s : SnapshotStore) (d : Disk) {t : Transaction} (h : t.backups = []) : s.Kept d t d :=
  ⟨.refl _ d, by simp [h], by simp [h], fun hne => absurd h hne⟩

lemma Added.touches {bytes : ByteArray} {file : String} (h : Added (s.transactionDir t.id) bytes file d d')
    (hs : start.Evolves d) : Disk.Touches (s.Within t.id start) d d' := by
  obtain ⟨n, hn, rfl⟩ := h.name
  obtain ⟨e, _, _, hset⟩ := h.sets
  rw [hs.placeOf] at hset
  exact hset.touches (within_join s t.id start hn.isName)

/-- The file of a backup survives the next one. -/
lemma Added.entry {bytes : ByteArray} {file path : String} (h : Added (s.transactionDir t.id) bytes file d d')
    {p : Place} {e : FileEntry} (he : d.entry path = .ok (p, e)) : d'.entry path = .ok (p, e) := by
  obtain ⟨_, _, _, hset⟩ := h.sets
  refine hset.toTouches.entry he fun hp => ?_
  have hfree := h.free
  rw [← hp, (Disk.entry_eq_ok.1 he).2] at hfree
  cases hfree

lemma IsBackupName.placeOf_ne_manifestPath {n : String} (h : IsBackupName n) (d : Disk) (id : String) :
    d.placeOf (join (s.transactionDir id) n) ≠ d.placeOf (s.manifestPath id) := by
  rw [manifestPath, Disk.placeOf_join_name d _ h.isName, Disk.placeOf_join_name d _ isName_manifest]
  intro he
  exact h.ne_manifest (List.singleton_inj.1 (List.append_cancel_left he))

/-- All that a backup that succeeds can have done: nothing, if the transaction has a backup of the file;
otherwise it has put the bytes into a new file and written the manifest. -/
theorem backup_ok {new : Bool} (h : s.backup d now t filePath resolvedPath = (.ok new, t', d')) :
    (new = false ∧ (t.backupFor? resolvedPath).isSome ∧ t' = t ∧ d' = d) ∨
    (new = true ∧ t.backupFor? resolvedPath = none ∧ ∃ p entry file d1, d.entry resolvedPath = .ok (p, entry) ∧
      Added (s.transactionDir t.id) entry.content file d d1 ∧
      t' = { t with backups := t.backups ++ [⟨filePath, resolvedPath, entry, file⟩] } ∧
      s.HasManifest t' d' ∧ Disk.Touches (· = d1.placeOf (s.manifestPath t.id)) d1 d') := by
  unfold SnapshotStore.backup at h
  split at h
  · next hb =>
    cases h
    exact .inl ⟨rfl, hb, rfl, rfl⟩
  · next hb =>
    split at h
    · cases h
    · next p entry hentry =>
      split at h
      · cases h
      · next file d1 hp =>
        dsimp only at h
        split at h
        · next d2 hw =>
          cases h
          obtain ⟨hmanifest, hwritten⟩ := writeManifest_ok hw
          exact .inr ⟨rfl, by simpa using hb, p, entry, file, d1, hentry,
            persist_ok (isBackupName_backupName t filePath) hp, rfl, hmanifest, hwritten⟩
        · cases h

lemma Holds.add (h : s.Holds t d) {entry : FileEntry} {file : String} {d1 : Disk}
    (hadded : Added (s.transactionDir t.id) entry.content file d d1)
    (hmanifest : s.HasManifest { t with backups := t.backups ++ [⟨filePath, resolvedPath, entry, file⟩] } d')
    (hwritten : Disk.Touches (· = d1.placeOf (s.manifestPath t.id)) d1 d') :
    s.Holds { t with backups := t.backups ++ [⟨filePath, resolvedPath, entry, file⟩] } d' := by
  have hkeep : ∀ n p e, IsBackupName n → d1.entry (join (s.transactionDir t.id) n) = .ok (p, e) →
      d'.entry (join (s.transactionDir t.id) n) = .ok (p, e) := by
    intro n p e hn he
    refine hwritten.entry he ?_
    rw [Disk.entry_placeOf he]
    exact hn.placeOf_ne_manifestPath d1 t.id
  refine ⟨fun b hb => ?_, fun _ => hmanifest⟩
  rcases List.mem_append.1 hb with hb | hb
  · obtain ⟨n, p, e, hn, hfile, hcontent, he⟩ := h.copy b hb
    rw [hfile] at he ⊢
    exact ⟨n, p, e, hn, rfl, hcontent, hkeep n p e hn (hadded.entry he)⟩
  · obtain ⟨n, hn, hfile⟩ := hadded.name
    obtain ⟨e, hcontent, he, _⟩ := hadded.sets
    rw [List.mem_singleton.1 hb]
    rw [hfile] at he
    exact ⟨n, _, e, hn, hfile, hcontent, hfile ▸ hkeep n _ e hn he⟩

lemma Holds.backup {new : Bool} (h : s.Holds t d) (hb : s.backup d now t filePath resolvedPath = (.ok new, t', d')) :
    s.Holds t' d' := by
  obtain ⟨_, _, rfl, rfl⟩ | ⟨_, _, p, entry, file, d1, _, hadded, rfl, hmanifest, hwritten⟩ := backup_ok hb
  · exact h
  · exact h.add hadded hmanifest hwritten

lemma Kept.holds (hk : s.Kept start t d) : s.Holds t d := by
  refine ⟨fun b hb => ?_, hk.manifest⟩
  obtain ⟨n, e, hn, hfile, hcontent, he⟩ := hk.copy b hb
  exact ⟨n, _, e, hn, hfile, hcontent, he⟩

lemma Kept.original_eq (hk : s.Kept start t d) (hfile : start.isFile resolvedPath = true) {p : Place}
    {entry : FileEntry} (hentry : d.entry resolvedPath = .ok (p, entry)) :
    ∃ q e, start.entry resolvedPath = .ok (q, e) ∧ (¬ s.Within t.id start q → entry = e) := by
  obtain ⟨q, e, he⟩ := Disk.isFile_iff.1 hfile
  refine ⟨q, e, he, fun hq => ?_⟩
  have hsame := hk.touches.entry he hq
  rw [hentry] at hsame
  exact (Prod.mk.inj (Except.ok.inj hsame)).2

lemma Kept.add (hk : s.Kept start t d) (hfile : start.isFile resolvedPath = true) {p : Place} {entry : FileEntry}
    (hentry : d.entry resolvedPath = .ok (p, entry)) {file : String} {d1 : Disk}
    (hadded : Added (s.transactionDir t.id) entry.content file d d1)
    (hmanifest : s.HasManifest { t with backups := t.backups ++ [⟨filePath, resolvedPath, entry, file⟩] } d')
    (hwritten : Disk.Touches (· = d1.placeOf (s.manifestPath t.id)) d1 d') :
    s.Kept start { t with backups := t.backups ++ [⟨filePath, resolvedPath, entry, file⟩] } d' := by
  have hevolves := hk.touches.evolves
  have h1 := hadded.touches hevolves
  have h2 : Disk.Touches (s.Within t.id start) d1 d' := by
    refine hwritten.mono fun _ hq => ?_
    rw [hq, (hevolves.trans h1.evolves).placeOf]
    exact within_join s t.id start isName_manifest
  have htouches := (hk.touches.trans h1).trans h2
  refine ⟨htouches, fun b hb => ?_, fun b hb => ?_, fun _ => hmanifest⟩
  · rcases List.mem_append.1 hb with hb | hb
    · exact hk.original b hb
    · rw [List.mem_singleton.1 hb]
      exact hk.original_eq hfile hentry
  · obtain ⟨n, p, e, hn, hpath, hcontent, he⟩ := (hk.holds.add hadded hmanifest hwritten).copy b hb
    refine ⟨n, e, hn, hpath, hcontent, ?_⟩
    rw [← htouches.evolves.placeOf, ← Disk.entry_placeOf he]
    exact he

/-- A backup that succeeds keeps the file, and all that was kept before. -/
theorem Kept.backup (hk : s.Kept start t d) (hfile : start.isFile resolvedPath = true) {new : Bool}
    (h : s.backup d now t filePath resolvedPath = (.ok new, t', d')) :
    s.Kept start t' d' ∧ (∃ bs, t' = { t with backups := t.backups ++ bs }) ∧
      (t'.backupFor? resolvedPath).isSome := by
  obtain ⟨_, hb, rfl, rfl⟩ | ⟨_, _, p, entry, file, d1, hentry, hadded, rfl, hmanifest, hwritten⟩ := backup_ok h
  · exact ⟨hk, ⟨[], by simp⟩, hb⟩
  · refine ⟨hk.add hfile hentry hadded hmanifest hwritten, ⟨_, rfl⟩, ?_⟩
    simp [Transaction.backupFor?, Path.same]

/-- A backup that fails touches nothing outside the directory of its transaction. -/
theorem Kept.backup_error (hk : s.Kept start t d) {e : SnapshotError}
    (h : s.backup d now t filePath resolvedPath = (.error e, t', d')) :
    Disk.Touches (s.Within t.id start) start d' := by
  unfold SnapshotStore.backup at h
  split at h
  · cases h
  · split at h
    · cases h
      exact hk.touches
    · next p entry hentry =>
      split at h
      · next hp =>
        cases h
        exact hk.touches.trans ((persist_error hp).mono fun _ hf => hf.elim)
      · next file d1 hp =>
        have hadded := persist_ok (isBackupName_backupName t filePath) hp
        dsimp only at h
        split at h
        · cases h
        · next hw =>
          cases h
          rw [writeManifest_error hw]
          exact hk.touches.trans (hadded.touches hk.touches.evolves)

/-- A backup adds at most the file it is asked for to its transaction, whether it succeeds or not. -/
theorem backup_transaction (s : SnapshotStore) (d : Disk) (now : FileTime) (t : Transaction)
    (filePath resolvedPath : String) :
    ∃ bs, (s.backup d now t filePath resolvedPath).2.1 = { t with backups := t.backups ++ bs } ∧
      ∀ b ∈ bs, b.resolvedPath = resolvedPath := by
  unfold SnapshotStore.backup
  split
  · exact ⟨[], by simp⟩
  · split
    · exact ⟨[], by simp⟩
    · split
      · exact ⟨[], by simp⟩
      · dsimp only
        split
        · exact ⟨_, rfl, by simp⟩
        · exact ⟨_, rfl, by simp⟩

end Backup

end SnapshotStore
end Autofix
