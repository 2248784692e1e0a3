import Autofix.Proofs.Snapshot.Backups

/-! Bringing files back. Whatever has been written to the files of a transaction since its backups were
taken, both the backups in memory and those on the disk are enough to undo it. -/
namespace Autofix

/-- Is there a file at the place that the transaction has a backup of? -/
def Transaction.Targets (t : Transaction) (d : Disk) (p : Place) : Prop :=
  ∃ b ∈ t.backups, d.placeOf b.resolvedPath = p

/-- The report on backups that were all brought back. -/
def RestoreReport.addAll (report : RestoreReport) (bs : List Backup) : RestoreReport :=
  { report with restored := report.restored ++ bs.map Backup.filePath }

lemma RestoreReport.addAll_cons (report : RestoreReport) (b : Backup) (bs : List Backup) :
    report.addAll (b :: bs) = (report.add b.filePath (.ok ())).addAll bs := by
  simp [addAll, add]

namespace SnapshotStore
open Autofix.Path

/-- A file that is brought back has the given bytes, time and permissions. -/
theorem restoreFile_of_entry {d : Disk} {path : String} {p : Place} {e : FileEntry} (h : d.entry path = .ok (p, e))
    (now : FileTime) (content : ByteArray) (time : FileTime) (mode : Nat) :
    ∃ d', restoreFile d now path content time mode = (.ok (), d') ∧
      Disk.Sets p ⟨content, Disk.permissionsOf mode, time⟩ d d' := by
  have hl := (Disk.entry_eq_ok.1 h).1
  obtain ⟨d1, hw, h1⟩ := Disk.write_of_entry h now content
  obtain ⟨d2, hm, h2⟩ := Disk.modify_of_entry (h1.entry hl) fun f => { f with modified := time }
  have h12 := h1.again h2
  obtain ⟨d3, hp, h3⟩ := Disk.modify_of_entry (h12.entry hl) fun f => { f with permissions := Disk.permissionsOf mode }
  exact ⟨d3, by simp [restoreFile, hw, hm, hp], h12.again h3⟩

/-- Bringing a file back fails as writing to it does, and then changes nothing; otherwise the file stands
where its path leads, as it was. The time of the write itself is overwritten. -/
theorem restoreFile_eq (d : Disk) (now : FileTime) (path : String) (content : ByteArray) (time : FileTime)
    (mode : Nat) : restoreFile d now path content time mode =
      match d.target path with
      | .error e => (.error e, d)
      | .ok p =>
          if d.node? p = some .directory then (.error .isADirectory, d)
          else (.ok (), d.put p (.file ⟨content, Disk.permissionsOf mode, time⟩)) := by
  unfold restoreFile Disk.write
  cases ht : d.target path with
  | error e => rfl
  | ok p =>
    have hl := Disk.locate_of_target ht
    dsimp only
    cases hn : d.node? p with
    | none => simp [Disk.modify_put hl (by simp [hn])]
    | some n =>
      cases n with
      | directory => simp
      | file f => simp [Disk.modify_put hl (by simp [hn])]

/-- Bringing a file back touches no other file. -/
theorem restoreFile_touches (d : Disk) (now : FileTime) (path : String) (content : ByteArray) (time : FileTime)
    (mode : Nat) : Disk.Touches (· = d.placeOf path) d (restoreFile d now path content time mode).2 := by
  rw [restoreFile_eq]
  split
  · exact .refl _ d
  · next p ht =>
    split
    · exact .refl _ d
    · next hn =>
      rw [← Disk.locate_eq_placeOf (Disk.locate_of_target ht)]
      exact (Disk.put_sets hn _).toTouches

section Lists
variable {d : Disk} {bs : List Backup} (now : FileTime) (report : RestoreReport)

lemma entries_after {d' : Disk} (h : ∀ b ∈ bs, ∃ p e, d.entry b.resolvedPath = .ok (p, e)) (hd : d.Evolves d') :
    ∀ b ∈ bs, ∃ p e, d'.entry b.resolvedPath = .ok (p, e) := by
  intro b hb
  obtain ⟨p, e, he⟩ := h b hb
  obtain ⟨e', he'⟩ := hd.entry he
  exact ⟨p, e', he'⟩

/-- Backups of files that are still there are all brought back. -/
theorem restoreBackups_eq (h : ∀ b ∈ bs, ∃ p e, d.entry b.resolvedPath = .ok (p, e)) :
    ∃ d', restoreBackups now bs report d = (report.addAll bs, d') ∧
      Disk.SetsAll (bs.map fun b => (d.placeOf b.resolvedPath, b.entry)) d d' := by
  induction bs generalizing d report with
  | nil => exact ⟨d, by simp [restoreBackups, RestoreReport.addAll], .nil d⟩
  | cons b bs ih =>
    rw [List.forall_mem_cons] at h
    obtain ⟨⟨p, e, he⟩, hbs⟩ := h
    obtain ⟨d1, hr, h1⟩ := restoreFile_of_entry he now b.entry.content b.entry.modified b.entry.mode
    rw [ManifestEntry.permissionsOf_mode] at h1
    obtain ⟨d2, hr2, h2⟩ := ih (report.add b.filePath (.ok ())) (entries_after hbs h1.evolves)
    simp only [h1.evolves.placeOf] at h2
    obtain rfl := Disk.entry_placeOf he
    refine ⟨d2, ?_, .cons h1 h2⟩
    rw [restoreBackups, hr, RestoreReport.addAll_cons]
    exact hr2

end Lists

/-- Entries are brought back like the backups that they were written for, if each has its copy at a place
where nothing is brought back to. -/
theorem restoreEntries_eq_restoreBackups {d : Disk} {dir : String} {bs : List Backup} (now now' : FileTime)
    (report : RestoreReport)
    (hcopy : ∀ b ∈ bs, ∃ p e, d.entry (join dir (ManifestEntry.ofBackup b).backupFile) = .ok (p, e) ∧
      e.content = b.entry.content ∧ ∀ c ∈ bs, p ≠ d.placeOf c.resolvedPath) :
    restoreEntries now dir (bs.map ManifestEntry.ofBackup) report d =
      (.ok (restoreBackups now' (bs.map Backup.sinceEpoch) report d).1,
        (restoreBackups now' (bs.map Backup.sinceEpoch) report d).2) := by
  induction bs generalizing d report with
  | nil => rfl
  | cons b bs ih =>
    rw [List.forall_mem_cons] at hcopy
    obtain ⟨⟨p, e, he, hcontent, _⟩, hcopies⟩ := hcopy
    have hfile : restoreFile d now (ManifestEntry.ofBackup b).resolvedPath e.content
        b.sinceEpoch.entry.modified (ManifestEntry.ofBackup b).mode = restoreFile d now'
          b.sinceEpoch.resolvedPath b.sinceEpoch.entry.content b.sinceEpoch.entry.modified b.sinceEpoch.entry.mode := by
      rw [restoreFile_eq, restoreFile_eq, hcontent]
      rfl
    have htouches := restoreFile_touches d now' b.resolvedPath b.sinceEpoch.entry.content
      b.sinceEpoch.entry.modified b.sinceEpoch.entry.mode
    rw [List.map_cons, List.map_cons, restoreEntries, restoreBackups]
    simp only [ManifestEntry.time?_ofBackup, Disk.readBytes_of_entry he, hfile]
    refine ih _ fun c hc => ?_
    obtain ⟨q, f, hf, hfc, hq⟩ := hcopies c hc
    rw [List.forall_mem_cons] at hq
    refine ⟨q, f, htouches.entry hf hq.1, hfc, fun x hx heq => ?_⟩
    exact hq.2 x hx (heq.trans (htouches.evolves.placeOf x.resolvedPath))

section Undo
variable {s : SnapshotStore} {start d d1 d' : Disk} {t : Transaction}

lemma Kept.paths (hk : s.Kept start t d1) (hd : Disk.Touches (t.Targets start) d1 d) :
    ∀ b ∈ t.backups, ∃ p e, d.entry b.resolvedPath = .ok (p, e) := by
  refine entries_after (d := start) (fun b hb => ?_) (hk.touches.evolves.trans hd.evolves)
  obtain ⟨p, e, he, _⟩ := hk.original b hb
  exact ⟨p, e, he⟩

/-- Files put back at all targets of a transaction undo what was written there, and all other files are
as they were when it began. -/
theorem Kept.undo (hk : s.Kept start t d1) (hd : Disk.Touches (t.Targets start) d1 d) {f : Backup → FileEntry}
    (hset : Disk.SetsAll (t.backups.map fun b => (d.placeOf b.resolvedPath, f b)) d d') {p : Place}
    (hp : ¬ s.Within t.id start p) :
    d'.file? p = start.file? p ∨ ∃ b ∈ t.backups, start.file? p = some b.entry ∧ d'.file? p = some (f b) := by
  simp only [(hk.touches.evolves.trans hd.evolves).placeOf] at hset
  by_cases ht : t.Targets start p
  · obtain ⟨b, hb, hbp⟩ := ht
    obtain ⟨e, he, hfile⟩ := hset.file (p := p) (e := f b) (List.mem_map.2 ⟨b, hb, by rw [hbp]⟩)
    obtain ⟨c, hc, hce⟩ := List.mem_map.1 he
    obtain ⟨hcp, rfl⟩ := Prod.mk.inj hce
    obtain ⟨q, e, hentry, horiginal⟩ := hk.original c hc
    obtain rfl : q = p := (Disk.entry_placeOf hentry).trans hcp
    refine .inr ⟨c, hc, ?_, hfile⟩
    rw [horiginal hp]
    exact (Disk.entry_eq_ok.1 hentry).2
  · refine .inl ?_
    have hout : ¬ ∃ e, (p, e) ∈ t.backups.map fun b => (start.placeOf b.resolvedPath, f b) := by
      rintro ⟨e, he⟩
      obtain ⟨b, hb, hbe⟩ := List.mem_map.1 he
      exact ht ⟨b, hb, (Prod.mk.inj hbe).1⟩
    rw [hset.touches.others p hout, hd.others p ht, hk.touches.others p hp]

theorem Kept.rollback (hk : s.Kept start t d1) (hd : Disk.Touches (t.Targets start) d1 d) (now : FileTime) :
    ∃ report d', SnapshotStore.rollback d now t = (report, { t with status := .rolledBack }, d') ∧
      report.isComplete = true ∧ ∀ p, ¬ s.Within t.id start p → d'.file? p = start.file? p := by
  obtain ⟨d', hr, hset⟩ := restoreBackups_eq now {} (hk.paths hd)
  refine ⟨_, d', by rw [SnapshotStore.rollback, hr], rfl, fun p hp => ?_⟩
  rcases hk.undo hd hset hp with h | ⟨b, _, hs, hf⟩
  · exact h
  · rw [hs, hf]

lemma load_of_entry {id : String} {m : Manifest} {p : Place} {e : FileEntry} (hid : isTransactionId id = true)
    (he : d.entry (s.manifestPath id) = .ok (p, e)) (hcontent : e.content = encodeText m.toJson.pretty.toList)
    (htime : m.timestamp.IsValid) (hreadable : ∀ x ∈ m.entries, x.Readable) : s.load d id = .ok m := by
  have hparse := Manifest.parse_pretty htime hreadable
  simp only [SnapshotStore.load, hid, Disk.readText_of_entry he, hcontent, decodeText_encodeText, hparse]
  rfl

lemma HasManifest.load (h : s.HasManifest t d) (hid : isTransactionId t.id = true) (htime : t.timestamp.IsValid) :
    s.load d t.id = .ok (Manifest.ofTransaction t) := by
  obtain ⟨e, hcontent, he⟩ := h
  refine load_of_entry hid he hcontent htime fun m hm => ?_
  obtain ⟨b, _, rfl⟩ := List.mem_map.1 hm
  exact (ManifestEntry.fits_ofBackup b).readable

/-- What the store holds of a transaction brings back the files as the backups in memory do, with the times
that the manifest can give. -/
lemma Holds.restore (h : s.Holds t d) (hne : t.backups ≠ []) (hid : isTransactionId t.id = true)
    (htime : t.timestamp.IsValid)
    (hout : ∀ b ∈ t.backups, ¬ s.Within t.id d (d.placeOf b.resolvedPath)) (now now' : FileTime) :
    s.restore d now t.id = (.ok (SnapshotStore.rollback d now' t.sinceEpoch).1,
      (SnapshotStore.rollback d now' t.sinceEpoch).2.2) := by
  have hcopy : ∀ b ∈ t.backups, ∃ p e,
      d.entry (join (s.transactionDir t.id) (ManifestEntry.ofBackup b).backupFile) = .ok (p, e) ∧
        e.content = b.entry.content ∧ ∀ c ∈ t.backups, p ≠ d.placeOf c.resolvedPath := by
    intro b hb
    obtain ⟨n, p, e, hn, hfile, hcontent, he⟩ := h.copy b hb
    have hname : (ManifestEntry.ofBackup b).backupFile = n := by
      simp [ManifestEntry.ofBackup, hfile, fileName?_join hn.isName]
    rw [hfile] at he
    rw [hname]
    refine ⟨p, e, he, hcontent, fun c hc heq => hout c hc ?_⟩
    rw [← heq, Disk.entry_placeOf he]
    exact within_join s t.id d hn.isName
  rw [SnapshotStore.restore, (h.manifest hne).load hid htime]
  exact restoreEntries_eq_restoreBackups now now' {} hcopy

/-- A transaction is undone from what the store keeps on the disk, if it wrote to no file of the store. -/
theorem Kept.restore (hk : s.Kept start t d1) (hd : Disk.Touches (t.Targets start) d1 d)
    (hout : ∀ b ∈ t.backups, ¬ s.Within t.id start (start.placeOf b.resolvedPath)) (hne : t.backups ≠ [])
    (hid : isTransactionId t.id = true) (htime : t.timestamp.IsValid) (now : FileTime) :
    ∃ report d', s.restore d now t.id = (.ok report, d') ∧ report.isComplete = true ∧
      ∀ p, ¬ s.Within t.id start p → (d'.file? p).map (fun e => (e.content, e.permissions)) =
        (start.file? p).map fun e => (e.content, e.permissions) := by
  have hplace : ∀ path, d.placeOf path = start.placeOf path := (hk.touches.evolves.trans hd.evolves).placeOf
  have hapart : ∀ p, s.Within t.id start p → ¬ t.Targets start p := by
    rintro _ hw ⟨b, hb, rfl⟩
    exact hout b hb hw
  have hholds : s.Holds t d := by
    refine hk.holds.untouched (untouched_of_touches (hd.mono fun p hp hw => hapart p ?_ hp))
    rwa [Within, hk.touches.evolves.placeOf] at hw
  have hrestore := hholds.restore hne hid htime (fun b hb hw => hout b hb ?_) now now
  · have hpaths : ∀ b ∈ t.sinceEpoch.backups, ∃ p e, d.entry b.resolvedPath = .ok (p, e) :=
      List.forall_mem_map.2 (hk.paths hd)
    obtain ⟨d', hr, hset⟩ := restoreBackups_eq now {} hpaths
    rw [SnapshotStore.rollback, hr] at hrestore
    rw [Transaction.sinceEpoch, List.map_map] at hset
    refine ⟨_, d', hrestore, rfl, fun p hp => ?_⟩
    rcases hk.undo hd hset hp with h | ⟨b, _, hs, hf⟩
    · rw [h]
    · rw [hs, hf]
      rfl
  · rwa [Within, hplace, hplace] at hw

end Undo
end SnapshotStore
end Autofix
