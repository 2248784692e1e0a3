import Autofix.Batch.Coordinator
import Autofix.Proofs.Batch.Run
import Autofix.Proofs.Snapshot.Restore

/-! Coverage: the backups that are taken before a run cover every file that the run may write to. -/
namespace Autofix

namespace Validation
variable {root : String} {d : Disk}

lemma changeDefect?_eq_none {c : Change} (h : changeDefect? root d c = none) :
    Path.isWorkspaceRelative c.filePath = true ∧ d.isFile (Path.join root c.filePath) = true := by
  unfold changeDefect? at h
  split at h
  · cases h
  · split at h
    · cases h
    · next hr =>
      split at h
      · cases h
      · next hf => exact ⟨by simpa using hr, by simpa using hf⟩

lemma changesDefect?_eq_none {index : Nat} {changes : List Change} (h : changesDefect? root d index changes = none) :
    ∀ c ∈ changes, changeDefect? root d c = none := by
  induction changes generalizing index with
  | nil => simp
  | cons c changes ih =>
    rw [changesDefect?] at h
    split at h
    · cases h
    · next hc => exact List.forall_mem_cons.2 ⟨hc, ih h⟩

/-- A fix with nothing wrong has changes, and each names a file of the workspace. -/
theorem check_eq_ok {f : Fix} (h : check root d none f = .ok ()) :
    f.changes ≠ [] ∧ ∀ c ∈ f.changes, Path.isWorkspaceRelative c.filePath = true ∧
      d.isFile (Path.join root c.filePath) = true := by
  unfold check at h
  split at h
  · cases h
  · next hd =>
    unfold defect? at hd
    split at hd
    · cases hd
    · next hne =>
      split at hd
      · cases hd
      · exact ⟨by simpa using hne, fun c hc => changeDefect?_eq_none (changesDefect?_eq_none hd c hc)⟩

end Validation

namespace Coordinator
variable {c : Coordinator}

lemma mem_checked {d : Disk} {fixes : List Fix} {f : Fix} (h : (f, none) ∈ c.checked d fixes) :
    f.changes ≠ [] ∧ ∀ ch ∈ f.changes, Path.isWorkspaceRelative ch.filePath = true ∧
      d.isFile (Path.join c.root ch.filePath) = true := by
  obtain ⟨g, _, hg⟩ := List.mem_map.1 h
  split at hg
  · next hok =>
    obtain ⟨rfl, _⟩ := Prod.mk.inj hg
    exact Validation.check_eq_ok hok
  · cases hg

lemma mem_touchedPaths {checked : List (Fix × Option ValidationError)} {path : String} :
    path ∈ touchedPaths checked ↔ ∃ f, (f, none) ∈ checked ∧ ∃ ch ∈ f.changes, ch.filePath = path := by
  simp only [touchedPaths, List.mem_eraseDups, List.mem_flatMap, List.mem_filter, Fix.touchedFiles, List.mem_map]
  constructor
  · rintro ⟨⟨f, e⟩, ⟨hf, he⟩, hpath⟩
    obtain rfl : e = none := by simpa using he
    exact ⟨f, hf, hpath⟩
  · rintro ⟨f, hf, hpath⟩
    exact ⟨(f, none), ⟨hf, rfl⟩, hpath⟩

section TakeBackups
variable {now : FileTime} {start d d' : Disk} {t t' : Transaction} {paths : List String}

/-- Backups that all succeed cover all paths. -/
theorem takeBackups_ok (hk : c.store.Kept start t d)
    (hfile : ∀ path ∈ paths, start.isFile (Path.join c.root path) = true)
    (h : c.takeBackups now paths t d = (.ok (), t', d')) :
    c.store.Kept start t' d' ∧ (∃ bs, t' = { t with backups := t.backups ++ bs }) ∧
      ∀ path ∈ paths, ∀ resolved, resolve c.root path = .ok resolved → (t'.backupFor? resolved).isSome := by
  induction paths generalizing t d with
  | nil =>
    cases h
    exact ⟨hk, ⟨[], by simp⟩, by simp⟩
  | cons path paths ih =>
    rw [List.forall_mem_cons] at hfile
    rw [takeBackups] at h
    split at h
    · next he =>
      obtain ⟨hk', ht', hcover⟩ := ih hk hfile.2 h
      refine ⟨hk', ht', List.forall_mem_cons.2 ⟨fun resolved hr => ?_, hcover⟩⟩
      rw [he] at hr
      cases hr
    · next resolved hr =>
      obtain rfl := (resolve_eq_ok.1 hr).2
      split at h
      · next hb =>
        obtain ⟨hk1, ⟨bs, rfl⟩, hsome⟩ := hk.backup hfile.1 hb
        obtain ⟨hk', ⟨bs', rfl⟩, hcover⟩ := ih hk1 hfile.2 h
        refine ⟨hk', ⟨bs ++ bs', by simp⟩, List.forall_mem_cons.2 ⟨fun resolved hr' => ?_, hcover⟩⟩
        obtain rfl := (resolve_eq_ok.1 hr').2
        rw [Transaction.backupFor?, List.find?_isSome] at hsome ⊢
        obtain ⟨b, hb, hs⟩ := hsome
        exact ⟨b, List.mem_append_left _ hb, hs⟩
      · cases h

/-- Backups that fail touch nothing outside the directory of their transaction. -/
theorem takeBackups_error (hk : c.store.Kept start t d)
    (hfile : ∀ path ∈ paths, start.isFile (Path.join c.root path) = true) {e : SnapshotError}
    (h : c.takeBackups now paths t d = (.error e, t', d')) :
    Disk.Touches (c.store.Within t.id start) start d' := by
  induction paths generalizing t d with
  | nil => cases h
  | cons path paths ih =>
    rw [List.forall_mem_cons] at hfile
    rw [takeBackups] at h
    split at h
    · exact ih hk hfile.2 h
    · next resolved hr =>
      obtain rfl := (resolve_eq_ok.1 hr).2
      split at h
      · next hb =>
        obtain ⟨hk1, ⟨bs, rfl⟩, _⟩ := hk.backup hfile.1 hb
        have hrest := ih hk1 hfile.2 h
        exact hrest
      · next hb =>
        cases h
        exact hk.backup_error hb

/-- Backups add only files that some of the paths lead to, whether they succeed or not. -/
theorem takeBackups_transaction (c : Coordinator) (now : FileTime) (paths : List String) (t : Transaction) (d : Disk) :
    ∃ bs, (c.takeBackups now paths t d).2.1 = { t with backups := t.backups ++ bs } ∧
      ∀ b ∈ bs, ∃ path ∈ paths, resolve c.root path = .ok b.resolvedPath := by
  induction paths generalizing t d with
  | nil => exact ⟨[], by simp [takeBackups]⟩
  | cons path paths ih =>
    rw [takeBackups]
    split
    · obtain ⟨bs, hbs, hpaths⟩ := ih t d
      refine ⟨bs, hbs, fun b hb => ?_⟩
      obtain ⟨p, hp, hr⟩ := hpaths b hb
      exact ⟨p, List.mem_cons_of_mem _ hp, hr⟩
    · next resolved hresolved =>
      obtain ⟨bs, hbs, hone⟩ := c.store.backup_transaction d now t path resolved
      have hfirst : ∀ b ∈ bs, ∃ p ∈ path :: paths, resolve c.root p = .ok b.resolvedPath := fun b hb =>
        ⟨path, List.mem_cons_self, by rw [hone b hb, hresolved]⟩
      split
      · next t₁ d₁ hb =>
        rw [hb] at hbs
        obtain rfl : t₁ = _ := hbs
        obtain ⟨bs', hbs', hpaths⟩ := ih { t with backups := t.backups ++ bs } d₁
        refine ⟨bs ++ bs', by rw [hbs', List.append_assoc], List.forall_mem_append.2 ⟨hfirst, fun b hb => ?_⟩⟩
        obtain ⟨p, hp, hr⟩ := hpaths b hb
        exact ⟨p, List.mem_cons_of_mem _ hp, hr⟩
      · next hb =>
        rw [hb] at hbs
        exact ⟨bs, hbs, hfirst⟩

end TakeBackups

section Access
variable {env : Circumstances} {path : String} {w : World} {fault : Fault}

lemma files_read_of_none (h : env.plan w.1 (.read path) = none) :
    (files env).read path w = (w.2.readText path, w.1 ++ [.read path], w.2) := by
  simp [files, Files.faulty, h, Disk.files]

lemma files_read_of_some (h : env.plan w.1 (.read path) = some fault) :
    (files env).read path w = (.error fault.error, w.1 ++ [.read path], w.2) := by
  simp [files, Files.faulty, h]

lemma files_write_of_none (h : env.plan w.1 (.write path) = none) (t : Text) :
    (files env).write path t w = ((w.2.write env.now path (encodeText t)).1, w.1 ++ [.write path],
      (w.2.write env.now path (encodeText t)).2) := by
  simp [files, Files.faulty, h, Disk.files]

lemma files_write_of_some (h : env.plan w.1 (.write path) = some fault) (t : Text) :
    (files env).write path t w = (.error fault.error, w.1 ++ [.write path],
      (fault.residue.map fun bytes => (w.2.write env.now path bytes).2).getD w.2) := by
  simp [files, Files.faulty, h]

lemma files_read_world (env : Circumstances) (path : String) (w : World) :
    ((files env).read path w).2 = (w.1 ++ [.read path], w.2) := by
  cases h : env.plan w.1 (.read path) with
  | none => rw [files_read_of_none h]
  | some fault => rw [files_read_of_some h]

/-- Writing leaves the disk as it is or puts some bytes into the file: the text, or what a failure leaves. -/
lemma files_write_world (env : Circumstances) (path : String) (t : Text) (w : World) :
    ∃ d, ((files env).write path t w).2 = (w.1 ++ [.write path], d) ∧
      (d = w.2 ∨ ∃ bytes, d = (w.2.write env.now path bytes).2) := by
  cases h : env.plan w.1 (.write path) with
  | none => exact ⟨_, by rw [files_write_of_none h], .inr ⟨_, rfl⟩⟩
  | some fault =>
    refine ⟨_, by rw [files_write_of_some h], ?_⟩
    cases fault.residue with
    | none => exact .inl rfl
    | some bytes => exact .inr ⟨bytes, rfl⟩

/-- Access that fails as planned touches only the files that it writes to. -/
theorem files_preserves (env : Circumstances) (d : Disk) (T : Place → Prop) :
    (files env).Preserves (fun path => ∃ p e, d.entry path = .ok (p, e) ∧ T p)
      fun w => Disk.Touches T d w.2 := by
  refine ⟨fun path w _ hw => ?_, fun path t w hpath hw => ?_⟩
  · rw [files_read_world]
    exact hw
  · obtain ⟨p, e, he, hp⟩ := hpath
    obtain ⟨e', he'⟩ := hw.evolves.entry he
    obtain ⟨d₁, hd₁, hleft⟩ := files_write_world env path t w
    rw [hd₁]
    rcases hleft with rfl | ⟨bytes, rfl⟩
    · exact hw
    · obtain ⟨d', hd', hset⟩ := Disk.write_of_entry he' env.now bytes
      rw [hd']
      exact hw.trans (hset.touches hp)

end Access

/-- All files that a run of the fixes may write to have backups in the transaction. -/
structure Covered (c : Coordinator) (fixes : List Fix) (start : Disk) (t : Transaction) (d : Disk) : Prop where
  kept : c.store.Kept start t d
  stays : Stays c.root (fun path => ∃ p e, d.entry path = .ok (p, e) ∧ t.Targets start p) (c.checked start fixes)

section Covered
variable {fixes : List Fix} {now : FileTime} {start d : Disk} {t t' : Transaction}

lemma isFile_of_mem_touchedPaths {path : String} (h : path ∈ touchedPaths (c.checked start fixes)) :
    start.isFile (Path.join c.root path) = true := by
  obtain ⟨f, hf, ch, hch, rfl⟩ := mem_touchedPaths.1 h
  exact ((mem_checked hf).2 ch hch).2

/-- The backups of all paths that the fixes touch cover the run. -/
theorem covered_of_takeBackups (ht : t.backups = [])
    (h : c.takeBackups now (touchedPaths (c.checked start fixes)) t start = (.ok (), t', d)) :
    c.Covered fixes start t' d ∧ ∃ bs, t' = { t with backups := bs } := by
  obtain ⟨hk, ⟨bs, rfl⟩, hcover⟩ :=
    takeBackups_ok (c.store.kept_nil start ht) (fun path => isFile_of_mem_touchedPaths) h
  refine ⟨⟨hk, fun f hf ch hch => ?_⟩, _, rfl⟩
  obtain ⟨hrelative, hfile⟩ := (mem_checked hf).2 ch hch
  obtain ⟨p, e, he⟩ := Disk.isFile_iff.1 hfile
  obtain ⟨e', he'⟩ := hk.touches.evolves.entry he
  have hsome := hcover ch.filePath (mem_touchedPaths.2 ⟨f, hf, ch, hch, rfl⟩) _ (resolve_eq_ok.2 ⟨hrelative, rfl⟩)
  rw [Transaction.backupFor?, List.find?_isSome] at hsome
  obtain ⟨b, hb, hsame⟩ := hsome
  have hparts : Path.components b.resolvedPath = Path.components (Path.join c.root ch.filePath) := by
    simpa [Path.same] using hsame
  refine ⟨p, e', he', b, hb, ?_⟩
  rw [Disk.placeOf, hparts]
  exact (Disk.entry_placeOf he).symm

/-- Without backups there is nothing to run. -/
theorem Covered.not_mem_checked (h : c.Covered fixes start t d) (ht : t.backups = []) (f : Fix) :
    (f, none) ∉ c.checked start fixes := by
  intro hf
  obtain ⟨ch, rest, hch⟩ := List.exists_cons_of_ne_nil (mem_checked hf).1
  obtain ⟨_, _, _, b, hb, _⟩ := h.stays f hf ch (by simp [hch])
  simp [ht] at hb

/-- A run touches only files that have backups. -/
theorem Covered.perform (h : c.Covered fixes start t d) (env : Circumstances) (options : Options)
    (log : List Access) :
    Disk.Touches (t.Targets start) d (c.perform env options (c.checked start fixes) (log, d)).2.state.2 := by
  have hfiles : (c.batch env options (files env)).files.Preserves _ _ := files_preserves env d (t.Targets start)
  exact Batch.run_preserves hfiles h.stays (p := c.outset env _ (log, d)) (.refl _ d)

end Covered

end Coordinator
end Autofix
