import Autofix.Proofs.Batch.Outcomes

/-! The count of a batch that is given up. It is compared with the writes themselves: the batch is run once more with
access that counts them. A fix is counted once all its changes are written, so the count falls short of the fixes that
have written something by those that were stopped on the way. -/
namespace Autofix

/-- Access that counts the writes that succeed. -/
def Files.counting (files : Files σ) : Files (Nat × σ) where
  read path s :=
    let (result, s') := files.read path s.2
    (result, s.1, s')
  write path t s :=
    match files.write path t s.2 with
    | (.ok (), s') => (.ok (), s.1 + 1, s')
    | (.error e, s') => (.error e, s.1, s')

lemma Files.counting_simulates (files : Files σ) (S : String → Prop) :
    files.counting.Simulates files S fun s u => s.2 = u := by
  refine ⟨fun path s u _ hs => ?_, fun path t s u current _ hs _ => ?_⟩
  · subst hs
    exact ⟨rfl, rfl⟩
  · subst hs
    simp only [counting]
    rcases files.write path t (files.read path s.2).2 with ⟨_ | _, s'⟩ <;> exact ⟨rfl, rfl⟩

section Changes
variable (files : Files σ) (root : String)

lemma applyChange_counting (c : Change) (shifts : LineShifts) (k : Nat) (s : σ) :
    ((applyChange files.counting root c shifts (k, s)).1 = .ok () →
      (applyChange files.counting root c shifts (k, s)).2.2.1 = k + 1) ∧
    ∀ e, (applyChange files.counting root c shifts (k, s)).1 = .error e →
      (applyChange files.counting root c shifts (k, s)).2.2.1 = k := by
  unfold applyChange
  cases resolve root c.filePath with
  | error e => exact ⟨fun h => (by cases h), fun _ _ => rfl⟩
  | ok path =>
    rcases hread : files.read path s with ⟨e | current, s'⟩
    · simp [Files.counting, hread]
    · cases hsub : c.substitute? (shifts.expectedLine? c) current with
      | none => simp [Files.counting, hread, hsub]
      | some updated =>
        rcases hwrite : files.write path updated s' with ⟨e | _, s''⟩ <;>
          simp [Files.counting, hread, hsub, hwrite]

/-- All of some changes are written, or fewer. -/
lemma applyChanges_counting (changes : List Change) (shifts : LineShifts) (k : Nat) (s : σ) :
    ((applyChanges files.counting root changes shifts (k, s)).1 = .ok () →
      (applyChanges files.counting root changes shifts (k, s)).2.2.1 = k + changes.length) ∧
    ∀ e, (applyChanges files.counting root changes shifts (k, s)).1 = .error e →
      (applyChanges files.counting root changes shifts (k, s)).2.2.1 < k + changes.length := by
  induction changes generalizing shifts k s with
  | nil => exact ⟨fun _ => rfl, fun _ h => (by cases h)⟩
  | cons c changes ih =>
    obtain ⟨hok, herror⟩ := applyChange_counting files root c shifts k s
    rw [applyChanges, List.length_cons]
    rcases happly : applyChange files.counting root c shifts (k, s) with ⟨r, shifts', k', s'⟩
    rw [happly] at hok herror
    cases r with
    | ok _ =>
      obtain rfl : k' = k + 1 := hok rfl
      obtain ⟨hall, hfewer⟩ := ih shifts' (k + 1) s'
      rw [Nat.add_right_comm] at hall hfewer
      exact ⟨hall, hfewer⟩
    | error e =>
      obtain rfl : k' = k := herror e rfl
      exact ⟨fun h => (by cases h), fun _ _ => by dsimp only; omega⟩

end Changes

/-- The progress with no writes counted yet. -/
def Progress.counted (p : Progress σ) : Progress (Nat × σ) where
  state := (0, p.state)
  shifts := p.shifts
  asked := p.asked
  written := p.written
  report := p.report

namespace Batch
variable {b : Batch σ} {p : Progress σ}

def counting (b : Batch σ) : Batch (Nat × σ) where
  files := b.files.counting
  root := b.root
  options := b.options
  consent := b.consent
  approves := b.approves

/-- How many changes are written in one step. -/
def writes (b : Batch σ) (p : Progress σ) (checked : Fix × Option ValidationError) : Nat :=
  (b.counting.step p.counted checked).2.state.1

/-- The fixes that a run comes to, each with the number of its changes that are written. -/
def tries (b : Batch σ) : List (Fix × Option ValidationError) → Progress σ → List (Fix × Nat)
  | [], _ => []
  | checked :: rest, p =>
      (checked.1, b.writes p checked) ::
        match b.step p checked with
        | (.ok (), p) => b.tries rest p
        | (.error _, _) => []

def hasWritten (t : Fix × Nat) : Bool := 0 < t.2

/-- Were all changes of the fix written? -/
def isWhole (t : Fix × Nat) : Bool := 0 < t.2 && t.2 == t.1.changes.length

/-- Were some changes of the fix written, and others not? -/
def isPartial (t : Fix × Nat) : Bool := 0 < t.2 && t.2 < t.1.changes.length

lemma counting_written (b : Batch σ) (p : Progress σ) (checked : Fix × Option ValidationError) :
    (b.counting.step p.counted checked).2.written = (b.step p checked).2.written := by
  have htwins : b.counting.Twins b := ⟨rfl, rfl, rfl, rfl, rfl⟩
  have hfiles : b.counting.files.Simulates b.files (fun _ => True) fun s u => s.2 = u :=
    b.files.counting_simulates _
  have hmatch : p.counted.Matches (fun s u => s.2 = u) p := ⟨rfl, rfl, rfl, rfl, _, rfl⟩
  exact (step_simulates htwins hfiles (fun _ _ _ _ _ _ _ _ => rfl) (fun _ _ _ _ => trivial) hmatch).2.written

lemma apply_counting {f : Fix} {r : Except ApplyError Unit} {shifts : LineShifts} {state : Nat × σ}
    (h : f.apply b.counting.files b.counting.root p.counted.shifts p.counted.state = (r, shifts, state)) :
    (r = .ok () → state.1 = f.changes.length) ∧ ∀ e, r = .error e → state.1 < f.changes.length := by
  have hcount := applyChanges_counting b.files b.root f.changes p.shifts 0 p.state
  have h : applyChanges b.files.counting b.root f.changes p.shifts (0, p.state) = (r, shifts, state) := h
  rwa [h, Nat.zero_add] at hcount

/-- A step counts a fix just when all its changes are written. The step with counted writes makes the same
moves, so its cases say both what is written and what is counted. -/
lemma step_counts (b : Batch σ) (p : Progress σ) {checked : Fix × Option ValidationError}
    (hchanges : checked.2 = none → checked.1.changes ≠ []) :
    b.writes p checked ≤ checked.1.changes.length ∧
      (b.step p checked).2.written = p.written + if isWhole (checked.1, b.writes p checked) then 1 else 0 := by
  have hmoves := b.counting.step_moves p.counted checked
  rw [← counting_written, writes]
  generalize b.counting.step p.counted checked = next at hmoves ⊢
  obtain ⟨r, q⟩ := next
  cases hmoves with
  | rejected f e => exact ⟨Nat.zero_le _, rfl⟩
  | skipped f asked => exact ⟨Nat.zero_le _, rfl⟩
  | @applied f shifts state asked h =>
    have hall := (apply_counting h).1 rfl
    have hpos := List.length_pos_iff.2 (hchanges rfl)
    have hwhole : isWhole (f, state.1) = true := by simpa [isWhole, hall] using hpos
    exact ⟨hall.le, by simp [Progress.counted, hwhole]⟩
  | @notApplied f e shifts state asked h hgoes =>
    have hfewer := (apply_counting h).2 e rfl
    have hwhole : isWhole (f, state.1) = false := by simp [isWhole, hfewer.ne]
    exact ⟨hfewer.le, by simp [Progress.counted, hwhole]⟩
  | @givenUp f e shifts state asked h hgives =>
    have hfewer := (apply_counting h).2 e rfl
    have hwhole : isWhole (f, state.1) = false := by simp [isWhole, hfewer.ne]
    exact ⟨hfewer.le, by simp [Progress.counted, hwhole]⟩

/-- A run counts the fixes all of whose changes are written, whether it is given up or not. -/
theorem run_counts (b : Batch σ) {checked : List (Fix × Option ValidationError)}
    (hchanges : ∀ f, (f, none) ∈ checked → f.changes ≠ []) (p : Progress σ) :
    (b.run checked p).2.written = p.written + (b.tries checked p).countP isWhole ∧
      ∀ t ∈ b.tries checked p, t.2 ≤ t.1.changes.length := by
  induction checked generalizing p with
  | nil => exact ⟨rfl, fun _ ht => (List.not_mem_nil ht).elim⟩
  | cons first rest ih =>
    have hfirst : first.2 = none → first.1.changes ≠ [] := fun hnone =>
      hchanges first.1 (hnone ▸ List.mem_cons_self)
    obtain ⟨hle, hcount⟩ := b.step_counts p hfirst
    rw [run, tries, List.countP_cons]
    rcases hs : b.step p first with ⟨r, p'⟩
    rw [hs] at hcount
    cases r with
    | ok _ =>
      obtain ⟨hrun, hall⟩ := ih (fun f hf => hchanges f (List.mem_cons_of_mem _ hf)) p'
      exact ⟨by dsimp only; rw [hrun, hcount]; omega, List.forall_mem_cons.2 ⟨hle, hall⟩⟩
    | error e =>
      exact ⟨by dsimp only; rw [hcount, List.countP_nil, Nat.zero_add],
        List.forall_mem_cons.2 ⟨hle, fun _ ht => (List.not_mem_nil ht).elim⟩⟩

lemma map_fst_tries (b : Batch σ) (checked : List (Fix × Option ValidationError)) (p : Progress σ) :
    (b.tries checked p).map Prod.fst <+: checked.map Prod.fst := by
  induction checked generalizing p with
  | nil => exact List.prefix_rfl
  | cons first rest ih =>
    rw [tries, List.map_cons, List.map_cons, List.prefix_cons_inj]
    rcases b.step p first with ⟨_ | _, p'⟩
    · exact List.nil_prefix
    · exact ih p'

lemma countP_hasWritten {tries : List (Fix × Nat)} (h : ∀ t ∈ tries, t.2 ≤ t.1.changes.length) :
    tries.countP hasWritten = tries.countP isWhole + tries.countP isPartial := by
  induction tries with
  | nil => rfl
  | cons t tries ih =>
    rw [List.forall_mem_cons] at h
    rw [List.countP_cons, List.countP_cons, List.countP_cons, ih h.2]
    have hone : (if hasWritten t then 1 else 0) = (if isWhole t then 1 else 0) + if isPartial t then 1 else 0 := by
      have hle := h.1
      simp only [hasWritten, isWhole, isPartial, Bool.and_eq_true, decide_eq_true_eq, beq_iff_eq]
      split_ifs <;> omega
    omega

end Batch

namespace Coordinator
variable {c : Coordinator} {env : Circumstances} {options : Options} {w : World}

/-- The world in which a batch is run: backups have been taken if they are wanted. -/
def prepared (c : Coordinator) (env : Circumstances) (options : Options) (fixes : List Fix) (w : World) : World :=
  if options.createBackup && !options.dryRun then
    (w.1, (c.takeBackups env.now (touchedPaths (c.checked w.2 fixes))
      { id := env.id, timestamp := env.timestamp, fixes } w.2).2.2)
  else w

/-- The fixes that a batch comes to, each with the number of its changes that are written. -/
def tries (c : Coordinator) (env : Circumstances) (options : Options) (fixes : List Fix) (w : World) :
    List (Fix × Nat) :=
  let checked := c.checked w.2 fixes
  (c.batch env options (files env)).tries checked (c.outset env checked (c.prepared env options fixes w))

def GivenUp (result : Except BatchError BatchResult) (count : Nat) : Prop :=
  ∃ id e, result = .error (.rolledBack id count e) ∨ result = .error (.unrecovered id count e)

lemma written_of_abort {t : Transaction} {e : ApplyError} {p : Progress World} {count : Nat}
    (h : GivenUp (c.abort env t e p).result count) : p.written = count := by
  obtain ⟨id, e', h⟩ := h
  rcases c.abort_result_cases env t e p with hresult | hresult
  · rcases h with h | h
    · cases hresult.symm.trans h
    · exact (BatchError.unrecovered.inj (Except.error.inj (hresult.symm.trans h))).2.1
  · rcases h with h | h
    · exact (BatchError.rolledBack.inj (Except.error.inj (hresult.symm.trans h))).2.1
    · cases hresult.symm.trans h

lemma written_of_execute {checked : List (Fix × Option ValidationError)} {t : Transaction} {count : Nat}
    (h : GivenUp (c.execute env options checked t w).result count) :
    (c.perform env options checked w).2.written = count := by
  have hexec := c.execute_executes env options checked t w
  generalize c.execute env options checked t w = a at h hexec
  cases hexec with
  | rehearsed | completed => obtain ⟨_, _, h | h⟩ := h <;> cases h
  | aborted _ hp =>
    rw [hp]
    exact written_of_abort h

lemma written_of_apply {fixes : List Fix} {count : Nat} (h : GivenUp (c.apply env options fixes w).result count) :
    (c.perform env options (c.checked w.2 fixes) (c.prepared env options fixes w)).2.written = count := by
  have happly := c.apply_applies env options fixes w
  generalize c.apply env options fixes w = a at h happly
  unfold prepared
  cases happly with
  | bare hbare =>
    rw [if_neg (by simpa [or_iff_not_imp_left] using hbare)]
    exact written_of_execute h
  | saved hbackup hdry hrun =>
    rw [if_pos (by simp [hbackup, hdry]), hrun]
    exact written_of_execute h
  | unsaved => obtain ⟨_, _, h | h⟩ := h <;> cases h

/-- The count of a batch that is given up is the number of fixes all of whose changes had been written, whatever became
of them then. Fixes of which only a part had been written are left out: they are what is missing to the number of fixes
that had written anything. -/
theorem abort_counts_whole_fixes (c : Coordinator) (env : Circumstances) (options : Options) (fixes : List Fix)
    (w : World) (count : Nat) (h : GivenUp (c.apply env options fixes w).result count) :
    (c.tries env options fixes w).map Prod.fst <+: fixes ∧
    count = (c.tries env options fixes w).countP Batch.isWhole ∧
    (c.tries env options fixes w).countP Batch.hasWritten =
      count + (c.tries env options fixes w).countP Batch.isPartial := by
  have hinitial := (c.batch env options (files env)).map_fst_tries (c.checked w.2 fixes)
    (c.outset env (c.checked w.2 fixes) (c.prepared env options fixes w))
  rw [map_fst_checked] at hinitial
  obtain ⟨hcount, hle⟩ := (c.batch env options (files env)).run_counts (fun _ hf => (mem_checked hf).1)
    (c.outset env (c.checked w.2 fixes) (c.prepared env options fixes w))
  have hwhole : count = (c.tries env options fixes w).countP Batch.isWhole := by
    rw [← written_of_apply h, ← Nat.zero_add (List.countP _ _)]
    exact hcount
  exact ⟨hinitial, hwhole, by rw [hwhole]; exact Batch.countP_hasWritten hle⟩

theorem abort_counts_whole_fixes_full_disk :
    GivenUp (Specimen.coordinator.apply Specimen.fullDisk {} Specimen.renames Specimen.world).result 1 ∧
      (Specimen.coordinator.tries Specimen.fullDisk {} Specimen.renames Specimen.world).countP Batch.isWhole = 1 := by
  have hresult : (Specimen.coordinator.apply Specimen.fullDisk {} Specimen.renames Specimen.world).result =
      .error (.rolledBack Specimen.fullDisk.id 1 (.write "./a.ts" (.ofKind .storageFull))) := by decide +kernel
  have hgiven : GivenUp (Specimen.coordinator.apply Specimen.fullDisk {} Specimen.renames Specimen.world).result 1 :=
    ⟨_, _, .inl hresult⟩
  exact ⟨hgiven, (abort_counts_whole_fixes _ _ _ _ _ _ hgiven).2.1.symm⟩

namespace Specimen

/-- A fix with two changes of one file. -/
def pair : Fix :=
  ⟨"1", "i", "", [.replace "a.ts" "let" "const", .replace "a.ts" "1" "2"], .hundredths 90, .low, "naming"⟩

end Specimen

/-- The disk is full when the second change of a fix is written. The first one had been written, and the count is
zero. -/
theorem half_written_fix_is_not_counted :
    (Specimen.coordinator.apply Specimen.fullDisk {} [Specimen.pair] Specimen.world).result =
      .error (.rolledBack Specimen.fullDisk.id 0 (.write "a.ts" (.ofKind .storageFull))) ∧
    (Specimen.coordinator.tries Specimen.fullDisk {} [Specimen.pair] Specimen.world) = [(Specimen.pair, 1)] := by
  decide +kernel

end Coordinator
end Autofix
