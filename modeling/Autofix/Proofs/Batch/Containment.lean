import Autofix.Proofs.Batch.Recovery

/-! Containment: whatever paths the fixes give, a call reads and writes files below the root of its
workspace alone, the directory of its own backups aside. -/
namespace Autofix

namespace Disk

lemma placeOf_of_below (d : Disk) {root path : String} (h : Path.Below root path) :
    d.placeOf root <+: d.placeOf path := by
  obtain ⟨lead, names, hparts, hlead⟩ := h
  have hstay : lead.foldl Path.Component.follow (d.placeOf root) = d.placeOf root := by
    rcases hlead with rfl | ⟨_, rfl⟩
    · rfl
    · rfl
  have hplace : d.placeOf path = d.placeOf root ++ names := by
    rw [placeOf, hparts, placeAt, List.foldl_append, List.foldl_append, foldl_follow_names]
    exact congrArg (· ++ names) hstay
  rw [hplace]
  exact List.prefix_append _ _

end Disk

/-- Reading through an overlay keeps what reading keeps, and writing to it touches nothing else. -/
lemma Files.Preserves.layered {σ : Type} {files : Files σ} {S : String → Prop} {I : σ → Prop}
    (h : files.Preserves S I) : files.layered.Preserves S fun s => I s.2 := by
  refine ⟨fun path s hpath hs => ?_, fun path t s _ hs => hs⟩
  simp only [Files.layered]
  split
  · exact hs
  · exact h.read path s.2 hpath hs

namespace SnapshotStore

lemma restoreBackups_touches (now : FileTime) (bs : List Backup) (report : RestoreReport) (d : Disk) :
    Disk.Touches (fun p => ∃ b ∈ bs, d.placeOf b.resolvedPath = p) d (restoreBackups now bs report d).2 := by
  induction bs generalizing report d with
  | nil => exact .refl _ d
  | cons b bs ih =>
    have hone := restoreFile_touches d now b.resolvedPath b.entry.content b.entry.modified b.entry.mode
    rw [restoreBackups]
    refine (hone.mono fun p hp => ⟨b, List.mem_cons_self, hp.symm⟩).trans ((ih _ _).mono ?_)
    rintro p ⟨x, hx, rfl⟩
    exact ⟨x, List.mem_cons_of_mem _ hx, (hone.evolves.placeOf _).symm⟩

end SnapshotStore

namespace Coordinator
variable {c : Coordinator} {env : Circumstances} {options : Options} {fixes : List Fix}

/-- Since the log and the disk of `w`, only paths below the root were accessed and only files there touched. -/
structure Contained (c : Coordinator) (w w' : World) : Prop where
  log : ∃ new, w'.1 = w.1 ++ new ∧ ∀ access ∈ new, Path.Below c.root access.path
  disk : Disk.Touches (fun p => w.2.placeOf c.root <+: p) w.2 w'.2

namespace Contained

lemma refl (c : Coordinator) (w : World) : c.Contained w w := ⟨⟨[], by simp⟩, .refl _ _⟩

lemma access {w w' : World} (h : c.Contained w w') (a : Access) (ha : Path.Below c.root a.path) {d : Disk}
    (hd : Disk.Touches (fun p => w.2.placeOf c.root <+: p) w'.2 d) : c.Contained w (w'.1 ++ [a], d) := by
  obtain ⟨new, hlog, hnew⟩ := h.log
  refine ⟨⟨new ++ [a], by rw [hlog, List.append_assoc], ?_⟩, h.disk.trans hd⟩
  exact List.forall_mem_append.2 ⟨hnew, by simpa using ha⟩

end Contained

/-- A path below the root that leads to a file. -/
def IsInside (c : Coordinator) (d : Disk) (path : String) : Prop :=
  Path.Below c.root path ∧ ∃ p e, d.entry path = .ok (p, e)

lemma isInside_checked (c : Coordinator) (start : Disk) (fixes : List Fix) {d : Disk} (hd : start.Evolves d) :
    Stays c.root (c.IsInside d) (c.checked start fixes) := by
  intro f hf ch hch
  obtain ⟨hrelative, hfile⟩ := (mem_checked hf).2 ch hch
  obtain ⟨p, e, he⟩ := Disk.isFile_iff.1 hfile
  obtain ⟨e', he'⟩ := hd.entry he
  exact ⟨Path.below_join c.root hrelative, p, e', he'⟩

/-- Access that fails as planned stays below the root if its paths do. -/
theorem files_contained (c : Coordinator) (env : Circumstances) (w : World) :
    (files env).Preserves (c.IsInside w.2) (c.Contained w) := by
  refine ⟨fun path w' hpath hw => ?_, fun path t w' hpath hw => ?_⟩
  · rw [files_read_world]
    exact hw.access (.read path) hpath.1 (.refl _ _)
  · obtain ⟨hbelow, p, e, he⟩ := hpath
    obtain ⟨e', he'⟩ := hw.disk.evolves.entry he
    obtain ⟨d₁, hd₁, hleft⟩ := files_write_world env path t w'
    rw [hd₁]
    refine hw.access (.write path) hbelow ?_
    rcases hleft with rfl | ⟨bytes, rfl⟩
    · exact .refl _ _
    · obtain ⟨d', hd', hset⟩ := Disk.write_of_entry he' env.now bytes
      rw [hd']
      refine hset.touches ?_
      rw [Disk.entry_placeOf he]
      exact w.2.placeOf_of_below hbelow

section Execute
variable {start : Disk} {t : Transaction} {w : World}

lemma perform_contained (c : Coordinator) (env : Circumstances) (options : Options) (fixes : List Fix)
    (hd : start.Evolves w.2) : c.Contained w (c.perform env options (c.checked start fixes) w).2.state := by
  have hfiles : (c.batch env options (files env)).files.Preserves _ _ := c.files_contained env w
  exact Batch.run_preserves hfiles (c.isInside_checked start fixes hd)
    (p := c.outset env _ w) (.refl c w)

lemma rehearse_contained (c : Coordinator) (env : Circumstances) (options : Options) (fixes : List Fix)
    (hd : start.Evolves w.2) : c.Contained w (c.rehearse env options (c.checked start fixes) w).2.state.2 := by
  have hfiles : (c.batch env options (files env).layered).files.Preserves _ _ := (c.files_contained env w).layered
  exact Batch.run_preserves hfiles (c.isInside_checked start fixes hd)
    (p := c.outset env _ ([], w)) (.refl c w)

lemma Contained.abort {p : Progress World} (h : c.Contained w p.state)
    (ht : ∀ b ∈ t.backups, Path.Below c.root b.resolvedPath) (e : ApplyError) :
    c.Contained w (c.abort env t e p).world := by
  unfold Coordinator.abort
  split
  · exact h
  · refine ⟨h.log, h.disk.trans ?_⟩
    refine (SnapshotStore.restoreBackups_touches env.now t.backups {} p.state.2).mono ?_
    rintro _ ⟨b, hb, rfl⟩
    rw [h.disk.evolves.placeOf]
    exact w.2.placeOf_of_below (ht b hb)

lemma execute_contained (hd : start.Evolves w.2) (ht : ∀ b ∈ t.backups, Path.Below c.root b.resolvedPath) :
    c.Contained w (c.execute env options (c.checked start fixes) t w).world := by
  have hperform := c.perform_contained env options fixes hd
  have hexec := c.execute_executes env options (c.checked start fixes) t w
  generalize c.execute env options (c.checked start fixes) t w = a at hexec ⊢
  cases hexec with
  | rehearsed => exact c.rehearse_contained env options fixes hd
  | completed _ hp =>
    rw [hp] at hperform
    exact hperform
  | aborted _ hp =>
    rw [hp] at hperform
    exact hperform.abort ht _

lemma execute_history (c : Coordinator) (env : Circumstances) (options : Options)
    (checked : List (Fix × Option ValidationError)) (t : Transaction) (w : World) :
    ∃ status, (c.execute env options checked t w).coordinator.history = c.history ++ [{ t with status }] := by
  have hexec := c.execute_executes env options checked t w
  generalize c.execute env options checked t w = a at hexec ⊢
  cases hexec with
  | rehearsed => exact ⟨_, rfl⟩
  | completed => exact ⟨_, rfl⟩
  | aborted =>
    unfold abort
    split
    · exact ⟨_, rfl⟩
    · exact ⟨_, rfl⟩

end Execute

/-- A call touches first the directory of its backups alone, and then only what is below the root. -/
lemma apply_stages (c : Coordinator) (env : Circumstances) (options : Options) (fixes : List Fix) (w : World) :
    ∃ d t, Disk.Touches (c.store.Within env.id w.2) w.2 d ∧
      c.Contained (w.1, d) (c.apply env options fixes w).world ∧
      (c.apply env options fixes w).coordinator.history = c.history ++ [t] ∧
      ∀ b ∈ t.backups, Path.Below c.root b.resolvedPath := by
  have hbelow : ∀ {r bs d}, c.takeBackups env.now (touchedPaths (c.checked w.2 fixes)) (transaction env fixes []) w.2 =
      (r, transaction env fixes bs, d) → ∀ b ∈ bs, Path.Below c.root b.resolvedPath := by
    intro r bs d hrun b hb
    obtain ⟨bs', hbs, hpaths⟩ :=
      c.takeBackups_transaction env.now (touchedPaths (c.checked w.2 fixes)) (transaction env fixes []) w.2
    rw [hrun] at hbs
    obtain rfl : bs = bs' := congrArg Transaction.backups hbs
    obtain ⟨path, _, hr⟩ := hpaths b hb
    obtain ⟨hrelative, hresolved⟩ := resolve_eq_ok.1 hr
    rw [hresolved]
    exact Path.below_join c.root hrelative
  have happly := c.apply_applies env options fixes w
  generalize c.apply env options fixes w = a at happly ⊢
  cases happly with
  | bare =>
    obtain ⟨status, hhistory⟩ := c.execute_history env options (c.checked w.2 fixes) _ w
    exact ⟨w.2, _, .refl _ _, execute_contained (.refl _) nofun, hhistory, nofun⟩
  | @saved bs d _ _ hrun =>
    obtain ⟨hcovered, _⟩ := covered_of_takeBackups rfl hrun
    have hd := hcovered.kept.touches
    obtain ⟨status, hhistory⟩ := c.execute_history env options (c.checked w.2 fixes) _ (w.1, d)
    exact ⟨d, _, hd, execute_contained hd.evolves (hbelow hrun), hhistory, hbelow hrun⟩
  | @unsaved bs d e _ _ hrun =>
    have hd := takeBackups_error (c.store.kept_nil w.2 rfl) (fun path => isFile_of_mem_touchedPaths) hrun
    exact ⟨d, _, hd, .refl c _, rfl, hbelow hrun⟩

/-- A workspace contains all that is done to it. A path is accepted exactly if it is not empty, starts with no
slash or backslash and has no parent segment between slashes and backslashes; what it resolves to has the
components of the root followed by names alone. So, whatever the fixes, the options, the disk and the
failures, all files that a call reads or writes for its fixes, and all that it has backups of and may bring
back, are below the root, and outside the root and the directory of its backups every file stays as it was. -/
theorem apply_contained (c : Coordinator) (env : Circumstances) (options : Options) (fixes : List Fix) (w : World) :
    (∀ path, (∃ resolved, resolve c.root path = .ok resolved) ↔ path ≠ "" ∧
      (path.toList.head? ≠ some '/' ∧ path.toList.head? ≠ some '\\') ∧
      ['.', '.'] ∉ Text.splitAt (fun ch => ch == '/' || ch == '\\') path.toList) ∧
    (∀ path resolved, resolve c.root path = .ok resolved → Path.Below c.root resolved) ∧
    (∃ new, (c.apply env options fixes w).world.1 = w.1 ++ new ∧ ∀ access ∈ new, Path.Below c.root access.path) ∧
    (∃ t, (c.apply env options fixes w).coordinator.history = c.history ++ [t] ∧
      ∀ b ∈ t.backups, Path.Below c.root b.resolvedPath) ∧
    ∀ p, ¬ w.2.placeOf c.root <+: p → ¬ w.2.placeOf (c.store.transactionDir env.id) <+: p →
      (c.apply env options fixes w).world.2.file? p = w.2.file? p := by
  obtain ⟨d, t, hd, hcontained, hhistory, hbackups⟩ := c.apply_stages env options fixes w
  refine ⟨fun path => ?_, fun path resolved h => ?_, hcontained.log, ⟨t, hhistory, hbackups⟩, fun p hroot hdir => ?_⟩
  · have hhead : (∀ ch, path.toList.head? = some ch → Path.isSlash ch = false) ↔
        path.toList.head? ≠ some '/' ∧ path.toList.head? ≠ some '\\' := by
      cases path.toList.head? with
      | none => simp
      | some ch => simp [Path.isSlash]
    have haccepts : (∃ resolved, resolve c.root path = .ok resolved) ↔ Path.isWorkspaceRelative path = true := by
      simp [resolve_eq_ok]
    rw [haccepts, Path.isWorkspaceRelative_iff, hhead]
    rfl
  · obtain ⟨hrelative, rfl⟩ := resolve_eq_ok.1 h
    exact Path.below_join c.root hrelative
  · rw [← hd.others p hdir]
    refine hcontained.disk.others p fun h => hroot ?_
    rwa [hd.evolves.placeOf] at h

theorem apply_contained_full_disk :
    ((¬ ∃ resolved, resolve "/ws" "a\\..\\..\\b" = .ok resolved) ∧
      resolve "/ws" "./a.ts" = .ok "/ws/./a.ts" ∧ Path.Below "/ws" "/ws/./a.ts") ∧
    (∃ new, (Specimen.coordinator.apply Specimen.fullDisk {} Specimen.renames Specimen.world).world.1 = new ∧
      .write "/ws/a.ts" ∈ new ∧ .write "/ws/./a.ts" ∈ new ∧ ∀ access ∈ new, Path.Below "/ws" access.path) ∧
    (Specimen.coordinator.apply Specimen.fullDisk {} Specimen.renames Specimen.world).world.2.file?
      ["etc".toList, "passwd".toList] = Specimen.world.2.file? ["etc".toList, "passwd".toList] := by
  obtain ⟨haccepts, hbelow, ⟨new, hlog, hnew⟩, _, hfiles⟩ :=
    apply_contained Specimen.coordinator Specimen.fullDisk {} Specimen.renames Specimen.world
  have hresolve : resolve "/ws" "./a.ts" = .ok "/ws/./a.ts" := resolve_eq_ok.2 ⟨by decide, by decide⟩
  have hwrites : .write "/ws/a.ts" ∈
        (Specimen.coordinator.apply Specimen.fullDisk {} Specimen.renames Specimen.world).world.1 ∧
      .write "/ws/./a.ts" ∈
        (Specimen.coordinator.apply Specimen.fullDisk {} Specimen.renames Specimen.world).world.1 := by
    decide +kernel
  refine ⟨⟨fun h => ?_, hresolve, hbelow _ _ hresolve⟩, ⟨_, rfl, hwrites.1, hwrites.2, ?_⟩, hfiles _ ?_ ?_⟩
  · exact ((haccepts _).1 h).2.2 (by decide)
  · rw [hlog]
    exact hnew
  · decide
  · rw [Specimen.placeOf_transactionDir]
    simp

end Coordinator
end Autofix
