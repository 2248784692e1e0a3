import Autofix.Proofs.Batch.Coverage

/-! How a call can go. Its backups are taken or not, and its fixes are rehearsed or run; a run comes to its end or is
given up. -/
namespace Autofix.Coordinator
variable {c : Coordinator}

section Execute
variable {env : Circumstances} {options : Options} {checked : List (Fix × Option ValidationError)} {w : World}

lemma rehearse_ok (c : Coordinator) (env : Circumstances) (hdry : options.dryRun = true)
    (checked : List (Fix × Option ValidationError)) (w : World) : (c.rehearse env options checked w).1 = .ok () :=
  Batch.run_dryRun hdry checked _

lemma apply_of_dryRun (c : Coordinator) (env : Circumstances) (fixes : List Fix) (w : World)
    (hdry : options.dryRun = true) : c.apply env options fixes w =
      c.execute env options (c.checked w.2 fixes) { id := env.id, timestamp := env.timestamp, fixes } w := by
  simp [apply, hdry]

lemma execute_of_dryRun (hdry : options.dryRun = true) (t : Transaction) :
    c.execute env options checked t w = c.complete t { (c.rehearse env options checked w).2 with
      state := (c.rehearse env options checked w).2.state.2 } := by
  simp [execute, hdry, c.rehearse_ok env hdry checked w]

lemma execute_of_perform (hdry : options.dryRun = false) (h : (c.perform env options checked w).1 = .ok ())
    (t : Transaction) : c.execute env options checked t w = c.complete t (c.perform env options checked w).2 := by
  simp [execute, hdry, h]

lemma execute_of_error (hdry : options.dryRun = false) {e : ApplyError} {p : Progress World}
    (h : c.perform env options checked w = (.error e, p)) (t : Transaction) :
    c.execute env options checked t w = c.abort env t e p := by
  simp [execute, hdry, h]

lemma abort_result_cases (c : Coordinator) (env : Circumstances) (t : Transaction) (e : ApplyError)
    (p : Progress World) : (c.abort env t e p).result = .error (.unrecovered t.id p.written e) ∨
      (c.abort env t e p).result = .error (.rolledBack t.id p.written e) := by
  unfold abort
  split
  · exact .inl rfl
  · exact .inr rfl

/-- How the fixes of a call can go, once backups have been taken. -/
inductive Executes (c : Coordinator) (env : Circumstances) (options : Options)
    (checked : List (Fix × Option ValidationError)) (t : Transaction) (w : World) : Applied → Prop
  | rehearsed (hdry : options.dryRun = true) :
      Executes c env options checked t w (c.complete t { (c.rehearse env options checked w).2 with
        state := (c.rehearse env options checked w).2.state.2 })
  | completed {p : Progress World} (hdry : options.dryRun = false)
      (hp : c.perform env options checked w = (.ok (), p)) : Executes c env options checked t w (c.complete t p)
  | aborted {e : ApplyError} {p : Progress World} (hdry : options.dryRun = false)
      (hp : c.perform env options checked w = (.error e, p)) : Executes c env options checked t w (c.abort env t e p)

theorem execute_executes (c : Coordinator) (env : Circumstances) (options : Options)
    (checked : List (Fix × Option ValidationError)) (t : Transaction) (w : World) :
    c.Executes env options checked t w (c.execute env options checked t w) := by
  cases hdry : options.dryRun with
  | true =>
    rw [execute_of_dryRun hdry]
    exact .rehearsed hdry
  | false =>
    rcases hp : c.perform env options checked w with ⟨r, p⟩
    cases r with
    | ok _ =>
      rw [execute_of_perform hdry (by rw [hp]), hp]
      exact .completed hdry hp
    | error e =>
      rw [execute_of_error hdry hp]
      exact .aborted hdry hp

end Execute

section Apply

/-- The transaction of a call that has taken some backups. -/
abbrev transaction (env : Circumstances) (fixes : List Fix) (backups : List Backup) : Transaction :=
  { id := env.id, timestamp := env.timestamp, fixes, backups }

/-- How a call can go: without backups, with backups of all that it may write to, or not at all. -/
inductive Applies (c : Coordinator) (env : Circumstances) (options : Options) (fixes : List Fix) (w : World) :
    Applied → Prop
  | bare (h : options.createBackup = false ∨ options.dryRun = true) :
      Applies c env options fixes w (c.execute env options (c.checked w.2 fixes) (transaction env fixes []) w)
  | saved {bs : List Backup} {d : Disk} (hbackup : options.createBackup = true) (hdry : options.dryRun = false)
      (hrun : c.takeBackups env.now (touchedPaths (c.checked w.2 fixes)) (transaction env fixes []) w.2 =
        (.ok (), transaction env fixes bs, d)) :
      Applies c env options fixes w (c.execute env options (c.checked w.2 fixes) (transaction env fixes bs) (w.1, d))
  | unsaved {bs : List Backup} {d : Disk} {e : SnapshotError} (hbackup : options.createBackup = true)
      (hdry : options.dryRun = false)
      (hrun : c.takeBackups env.now (touchedPaths (c.checked w.2 fixes)) (transaction env fixes []) w.2 =
        (.error e, transaction env fixes bs, d)) :
      Applies c env options fixes w
        { result := .error (.backup env.id e), world := (w.1, d)
          coordinator := c.record { transaction env fixes bs with status := .failed } c.asked }

theorem apply_applies (c : Coordinator) (env : Circumstances) (options : Options) (fixes : List Fix) (w : World) :
    c.Applies env options fixes w (c.apply env options fixes w) := by
  unfold apply
  dsimp only
  split
  · next h =>
    rw [Bool.and_eq_true, Bool.not_eq_true'] at h
    obtain ⟨bs, hbs, _⟩ :=
      c.takeBackups_transaction env.now (touchedPaths (c.checked w.2 fixes)) (transaction env fixes []) w.2
    rcases hrun : c.takeBackups env.now (touchedPaths (c.checked w.2 fixes)) (transaction env fixes []) w.2 with
      ⟨r, t, d⟩
    rw [hrun] at hbs
    obtain rfl : t = transaction env fixes bs := hbs
    cases r with
    | ok _ => exact .saved h.1 h.2 hrun
    | error e => exact .unsaved h.1 h.2 hrun
  · next h => exact .bare (by simpa [or_iff_not_imp_left] using h)

end Apply
end Autofix.Coordinator
