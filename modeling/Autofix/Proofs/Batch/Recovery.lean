import Autofix.Proofs.Batch.Call

/-! Recovery: a batch that is given up leaves every file outside the backup directory as it was. -/
namespace Autofix.Coordinator
variable {c : Coordinator} {env : Circumstances} {options : Options} {fixes : List Fix}

/-- The call that was given up has left all files outside the directory of its transaction as they were on
the disk `start`, and all files with backups were brought back. -/
structure Undone (c : Coordinator) (id : String) (start : Disk) (a : Applied) : Prop where
  files : ∀ p, ¬ c.store.Within id start p → a.world.2.file? p = start.file? p
  report : ∀ report, a.rollback = some report → report.isComplete = true

lemma Covered.abort {start d : Disk} {t : Transaction} (h : c.Covered fixes start t d) (hne : t.backups ≠ [])
    {p : Progress World} (hp : Disk.Touches (t.Targets start) d p.state.2) (source : ApplyError) :
    (c.abort env t source p).result = .error (.rolledBack t.id p.written source) ∧
      c.Undone t.id start (c.abort env t source p) := by
  obtain ⟨report, d', hr, hcomplete, hfiles⟩ := h.kept.rollback hp env.now
  have habort : c.abort env t source p =
      { result := .error (.rolledBack t.id p.written source), world := (p.state.1, d')
        coordinator := c.record { t with status := .rolledBack } p.asked, rollback := some report } := by
    simp [Coordinator.abort, hne, hr]
  rw [habort]
  refine ⟨rfl, hfiles, ?_⟩
  rintro _ ⟨⟩
  exact hcomplete

/-- A batch that was run with backups of all its files is given up only after they were brought back. -/
theorem Covered.execute {start d : Disk} {t : Transaction} (h : c.Covered fixes start t d)
    (hdry : options.dryRun = false) (log : List Access) {e : BatchError}
    (he : (c.execute env options (c.checked start fixes) t (log, d)).result = .error e) :
    (∃ count source, e = .rolledBack t.id count source) ∧
      c.Undone t.id start (c.execute env options (c.checked start fixes) t (log, d)) := by
  have hp := h.perform env options log
  have hexec := c.execute_executes env options (c.checked start fixes) t (log, d)
  generalize c.execute env options (c.checked start fixes) t (log, d) = a at he hexec ⊢
  cases hexec with
  | rehearsed hreal =>
    rw [hdry] at hreal
    cases hreal
  | completed => cases he
  | @aborted source p _ hrun =>
    rw [hrun] at hp
    have hne : t.backups ≠ [] := by
      intro ht
      have hok := (Batch.run_of_all_rejected (c.batch env options (files env)) (h.not_mem_checked ht)
        (c.outset env (c.checked start fixes) (log, d))).1
      rw [Coordinator.perform] at hrun
      rw [hrun] at hok
      cases hok
    obtain ⟨hresult, hundone⟩ := h.abort hne hp source
    rw [hresult] at he
    exact ⟨⟨_, _, (Except.error.inj he).symm⟩, hundone⟩

/-- With backups, a call that is given up has undone what it did. -/
theorem apply_undone {w : World} (hbackup : options.createBackup = true) (hdry : options.dryRun = false)
    {e : BatchError} (he : (c.apply env options fixes w).result = .error e) :
    (∀ id count source, e ≠ .unrecovered id count source) ∧
      c.Undone env.id w.2 (c.apply env options fixes w) := by
  have happly := c.apply_applies env options fixes w
  generalize c.apply env options fixes w = a at he happly ⊢
  cases happly with
  | bare h => simp [hbackup, hdry] at h
  | saved _ _ hrun =>
    obtain ⟨hcovered, _⟩ := covered_of_takeBackups rfl hrun
    obtain ⟨⟨count, source, rfl⟩, hundone⟩ := hcovered.execute hdry w.1 he
    exact ⟨nofun, hundone⟩
  | unsaved _ _ hrun =>
    have htouches := takeBackups_error (c.store.kept_nil w.2 rfl) (fun path => isFile_of_mem_touchedPaths) hrun
    obtain rfl := Except.error.inj he
    exact ⟨nofun, htouches.others, nofun⟩

/-- A call that is given up leaves every file outside the backup directory as it was, its bytes, its
permissions and its time, and no file there that was not there before; with backups, no call ends with
files that could not be brought back. -/
theorem apply_all_or_nothing (c : Coordinator) (env : Circumstances) (options : Options) (fixes : List Fix) (w : World)
    (hid : SnapshotStore.isTransactionId env.id = true) (hbackup : options.createBackup = true) :
    (options.dryRun = false → ∀ e, (c.apply env options fixes w).result = .error e →
      (∀ p, ¬ w.2.placeOf c.store.directory <+: p →
        (c.apply env options fixes w).world.2.file? p = w.2.file? p) ∧
      ∀ report, (c.apply env options fixes w).rollback = some report → report.isComplete = true) ∧
    ∀ id count source, (c.apply env options fixes w).result ≠ .error (.unrecovered id count source) := by
  cases hdry : options.dryRun with
  | true =>
    refine ⟨fun h => (Bool.noConfusion h : False).elim, fun id count source => ?_⟩
    rw [apply_of_dryRun c env fixes w hdry, execute_of_dryRun hdry]
    exact nofun
  | false =>
    refine ⟨fun _ e he => ?_, fun id count source he => ?_⟩
    · obtain ⟨_, hfiles, hreport⟩ := apply_undone hbackup hdry he
      exact ⟨fun p hp => hfiles p fun hw => hp (hw.directory hid), hreport⟩
    · exact (apply_undone hbackup hdry he).1 id count source rfl

namespace Specimen

def world : World :=
  ([], { nodes := [(["ws".toList], .directory),
    (["ws".toList, "a.ts".toList], .file ⟨encodeText "let a = 1;\n".toList, ⟨0o600, by decide⟩, .ofParts 5 0⟩)] })

def coordinator : Coordinator := { root := "/ws", store := ⟨"/ws/backups"⟩ }

/-- The disk is full when the second change is written, and a part of the text is left behind. -/
def fullDisk : Circumstances :=
  { id := Transaction.randomId (List.replicate 16 7), timestamp := ⟨1700000000, 0⟩, now := .ofParts 9 0
    plan := fun past _ =>
      if past.length = 3 then some ⟨.ofKind .storageFull, some (encodeText "let".toList)⟩ else none }

/-- Two fixes of the same file under two spellings of its path. -/
def renames : List Fix :=
  [⟨"1", "i", "", [.replace "a.ts" "let" "const"], .hundredths 90, .low, "naming"⟩,
    ⟨"2", "i", "", [.replace "./a.ts" "1" "2"], .hundredths 90, .low, "naming"⟩]

lemma placeOf_transactionDir : world.2.placeOf (coordinator.store.transactionDir fullDisk.id) =
    ["ws".toList, "backups".toList, fullDisk.id.toList] := by decide +kernel

/-- The directory of the transaction is new. -/
lemma fresh (p : Place) (h : world.2.placeOf (coordinator.store.transactionDir fullDisk.id) <+: p) :
    world.2.node? p = none := by
  rw [placeOf_transactionDir] at h
  obtain ⟨q, rfl⟩ := h
  simp [Disk.node?, world, Assoc.get?]

end Specimen

theorem apply_all_or_nothing_full_disk :
    (Specimen.coordinator.apply Specimen.fullDisk {} Specimen.renames Specimen.world).result =
      .error (.rolledBack Specimen.fullDisk.id 1 (.write "./a.ts" (.ofKind .storageFull))) ∧
    ∀ p, ¬ Specimen.world.2.placeOf Specimen.coordinator.store.directory <+: p →
      (Specimen.coordinator.apply Specimen.fullDisk {} Specimen.renames Specimen.world).world.2.file? p =
        Specimen.world.2.file? p := by
  have hresult : (Specimen.coordinator.apply Specimen.fullDisk {} Specimen.renames Specimen.world).result =
      .error (.rolledBack Specimen.fullDisk.id 1 (.write "./a.ts" (.ofKind .storageFull))) := by decide +kernel
  have hid := SnapshotStore.isTransactionId_randomId (List.replicate 16 7)
  have hall := apply_all_or_nothing Specimen.coordinator Specimen.fullDisk {} Specimen.renames Specimen.world hid rfl
  exact ⟨hresult, (hall.1 rfl _ hresult).1⟩

/-- The states through which a run on the disk passes: where it starts, and after each access to a file. -/
def passed (c : Coordinator) (env : Circumstances) (options : Options)
    (checked : List (Fix × Option ValidationError)) (w : World) : List World :=
  ((c.batch env options (files env).recorded).run checked (c.outset env checked ([w], w))).2.state.1

/-- The states through which a call passes from the end of its backups to the end of its run. -/
def states (c : Coordinator) (env : Circumstances) (options : Options) (fixes : List Fix) (w : World) : List World :=
  let checked := c.checked w.2 fixes
  match c.takeBackups env.now (touchedPaths checked) { id := env.id, timestamp := env.timestamp, fixes } w.2 with
  | (.ok (), _, d) => c.passed env options checked (w.1, d)
  | (.error _, _, _) => []

lemma perform_mem_passed (checked : List (Fix × Option ValidationError)) (w : World) :
    (c.perform env options checked w).2.state ∈ c.passed env options checked w := by
  have hsim : (c.batch env options (files env).recorded).files.Simulates (c.batch env options (files env)).files
      (fun _ => True) fun s u => s.2 = u ∧ u ∈ s.1 := (files env).recorded_simulates _
  have hstays : Stays (c.batch env options (files env).recorded).root (fun _ => True) checked :=
    fun _ _ _ _ => trivial
  have htwins : (c.batch env options (files env).recorded).Twins (c.batch env options (files env)) :=
    ⟨rfl, rfl, rfl, rfl, rfl⟩
  have hstart : Progress.Matches (fun (s : List World × World) u => s.2 = u ∧ u ∈ s.1)
      (c.outset env checked ([w], w)) (c.outset env checked w) :=
    ⟨⟨rfl, List.mem_cons_self⟩, rfl, rfl, rfl, _, rfl⟩
  exact (Batch.run_simulates htwins hsim (fun _ _ _ _ _ _ _ _ => rfl) hstays hstart).2.state.2

lemma Covered.passed {start d : Disk} {t : Transaction} (h : c.Covered fixes start t d) (log : List Access) :
    ∀ s ∈ c.passed env options (c.checked start fixes) (log, d), Disk.Touches (t.Targets start) d s.2 := by
  have hfiles : (c.batch env options (files env).recorded).files.Preserves _ _ :=
    (files_preserves env d (t.Targets start)).recorded
  have hrun := Batch.run_preserves hfiles h.stays
    (p := c.outset env (c.checked start fixes) ([(log, d)], (log, d)))
    ⟨.refl _ d, by simp [outset, Disk.Touches.refl]⟩
  exact hrun.2

lemma Covered.backups_ne_nil {start d : Disk} {t : Transaction} (h : c.Covered fixes start t d)
    (env : Circumstances) (options : Options) (log : List Access)
    (hlog : (c.perform env options (c.checked start fixes) (log, d)).2.state.1 ≠ log) : t.backups ≠ [] := by
  intro ht
  have hstate := (Batch.run_of_all_rejected (c.batch env options (files env)) (h.not_mem_checked ht)
    (c.outset env (c.checked start fixes) (log, d))).2
  exact hlog (congrArg Prod.fst hstate)

lemma execute_world (c : Coordinator) (env : Circumstances) (hdry : options.dryRun = false)
    (checked : List (Fix × Option ValidationError)) (t : Transaction) (w : World) :
    (c.execute env options checked t w).world.1 = (c.perform env options checked w).2.state.1 ∧
      ∀ r, (c.execute env options checked t w).result = .ok r →
        (c.execute env options checked t w).world = (c.perform env options checked w).2.state := by
  have hexec := c.execute_executes env options checked t w
  generalize c.execute env options checked t w = a at hexec ⊢
  cases hexec with
  | rehearsed hreal =>
    rw [hdry] at hreal
    cases hreal
  | completed _ hp =>
    rw [hp]
    exact ⟨rfl, fun _ _ => rfl⟩
  | aborted _ hp =>
    rw [hp, Coordinator.abort]
    split
    · exact ⟨rfl, nofun⟩
    · exact ⟨rfl, nofun⟩

/-- What the store keeps of a run that wrote to a file brings every file outside the directory of the
transaction back. -/
lemma Covered.restore {start d : Disk} {t : Transaction} (h : c.Covered fixes start t d)
    (hid : SnapshotStore.isTransactionId t.id = true) (htime : t.timestamp.IsValid)
    (hfresh : ∀ p, c.store.Within t.id start p → start.node? p = none) (hne : t.backups ≠ []) {d' : Disk}
    (hd : Disk.Touches (t.Targets start) d d') (now : FileTime) :
    ∃ report d'', c.store.restore d' now t.id = (.ok report, d'') ∧ report.isComplete = true ∧
      ∀ p, ¬ c.store.Within t.id start p → (d''.file? p).map (fun e => (e.content, e.permissions)) =
        (start.file? p).map fun e => (e.content, e.permissions) := by
  refine h.kept.restore hd (fun b hb hw => ?_) hne hid htime now
  obtain ⟨p, e, he, _⟩ := h.kept.original b hb
  rw [← Disk.entry_placeOf he] at hw
  exact Disk.not_of_file? hfresh (Disk.entry_eq_ok.1 he).2 hw

/-- Backups come before writes. If a call writes to a file at all, then in every state from the end of its
backups to the end of its run, a regular end included, what the store keeps on the disk is enough to bring
every file outside the backup directory back to its bytes and its mode before the call. The plan is
arbitrary, so a state may also be one that a write has left half done. -/
theorem restore_from_every_state (c : Coordinator) (env : Circumstances) (options : Options) (fixes : List Fix)
    (w : World) (hid : SnapshotStore.isTransactionId env.id = true) (htime : env.timestamp.IsValid)
    (hfresh : ∀ p, w.2.placeOf (c.store.transactionDir env.id) <+: p → w.2.node? p = none)
    (hbackup : options.createBackup = true) (hdry : options.dryRun = false)
    (hwrites : ∃ path, .write path ∈ (c.apply env options fixes w).world.1.drop w.1.length) :
    ((∃ r, (c.apply env options fixes w).result = .ok r) →
      (c.apply env options fixes w).world ∈ c.states env options fixes w) ∧
    ∀ s ∈ c.states env options fixes w, ∀ now, ∃ report d,
      c.store.restore s.2 now env.id = (.ok report, d) ∧ report.isComplete = true ∧
      ∀ p, ¬ w.2.placeOf c.store.directory <+: p →
        (d.file? p).map (fun e => (e.content, e.mode)) = (w.2.file? p).map fun e => (e.content, e.mode) := by
  obtain ⟨path, hwrites⟩ := hwrites
  simp only [apply, states, hbackup, hdry, Bool.not_false, Bool.and_self, if_true] at hwrites ⊢
  rcases hrun : c.takeBackups env.now (touchedPaths (c.checked w.2 fixes))
    { id := env.id, timestamp := env.timestamp, fixes } w.2 with ⟨r, t, d⟩
  rw [hrun] at hwrites
  cases r with
  | error source => exact ⟨nofun, by simp⟩
  | ok _ =>
    obtain ⟨hcovered, bs, rfl⟩ := covered_of_takeBackups rfl hrun
    dsimp only at hwrites ⊢
    obtain ⟨hlog, hworld⟩ := execute_world c env hdry (c.checked w.2 fixes)
      { id := env.id, timestamp := env.timestamp, fixes, backups := bs } (w.1, d)
    have hne : bs ≠ [] := by
      refine hcovered.backups_ne_nil env options w.1 fun heq => ?_
      rw [hlog, heq] at hwrites
      simp at hwrites
    refine ⟨fun ⟨r, hr⟩ => ?_, fun s hs now => ?_⟩
    · rw [hworld r hr]
      exact perform_mem_passed _ _
    · obtain ⟨report, d'', hrestore, hcomplete, hfiles⟩ :=
        hcovered.restore hid htime hfresh hne (hcovered.passed w.1 s hs) now
      refine ⟨report, d'', hrestore, hcomplete, fun p hp => ?_⟩
      have hsame := congrArg (Option.map fun e : ByteArray × Fin 0o10000 => (e.1, 0o100000 + e.2.val))
        (hfiles p fun hw => hp (hw.directory hid))
      rw [Option.map_map, Option.map_map] at hsame
      exact hsame

theorem restore_from_every_state_full_disk :
    ∃ s ∈ Specimen.coordinator.states Specimen.fullDisk {} Specimen.renames Specimen.world,
      s.2.readBytes "/ws/a.ts" = .ok (encodeText "let".toList) ∧
      ∀ now, ∃ report d, Specimen.coordinator.store.restore s.2 now Specimen.fullDisk.id = (.ok report, d) ∧
        report.isComplete = true ∧ ∀ p, ¬ Specimen.world.2.placeOf Specimen.coordinator.store.directory <+: p →
          (d.file? p).map (fun e => (e.content, e.mode)) =
            (Specimen.world.2.file? p).map fun e => (e.content, e.mode) := by
  have hid := SnapshotStore.isTransactionId_randomId (List.replicate 16 7)
  have htime : Specimen.fullDisk.timestamp.IsValid := ⟨by decide, by decide⟩
  have hwrites : .write "/ws/a.ts" ∈
      (Specimen.coordinator.apply Specimen.fullDisk {} Specimen.renames Specimen.world).world.1.drop
        Specimen.world.1.length := by decide +kernel
  have htorn : ∃ s ∈ Specimen.coordinator.states Specimen.fullDisk {} Specimen.renames Specimen.world,
      s.2.readBytes "/ws/a.ts" = .ok (encodeText "let".toList) := by decide +kernel
  obtain ⟨s, hs, hbytes⟩ := htorn
  have hall := restore_from_every_state Specimen.coordinator Specimen.fullDisk {} Specimen.renames Specimen.world hid htime
    Specimen.fresh rfl rfl ⟨_, hwrites⟩
  exact ⟨s, hs, hbytes, hall.2 s hs⟩

end Autofix.Coordinator
