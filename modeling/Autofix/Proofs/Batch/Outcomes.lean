import Autofix.Proofs.Batch.Recovery

/-! What a batch reports: each fix has one outcome, and the lists of the report are the fixes dealt out by
their outcomes. -/
namespace Autofix

/-- A list dealt out to three others, each of which keeps its order. -/
inductive Interleaves {α : Type} : List α → List α → List α → List α → Prop
  | nil : Interleaves [] [] [] []
  | first (x : α) {xs as bs cs : List α} : Interleaves xs as bs cs → Interleaves (x :: xs) (x :: as) bs cs
  | second (x : α) {xs as bs cs : List α} : Interleaves xs as bs cs → Interleaves (x :: xs) as (x :: bs) cs
  | third (x : α) {xs as bs cs : List α} : Interleaves xs as bs cs → Interleaves (x :: xs) as bs (x :: cs)

namespace Outcome

def applied? : Fix × Outcome → Option Fix
  | (f, .applied) => some f
  | _ => none

def failed? : Fix × Outcome → Option Fix
  | (f, .failed _) => some f
  | _ => none

def skipped? : Fix × Outcome → Option Fix
  | (f, .skipped) => some f
  | _ => none

def note? : Fix × Outcome → Option FailureNote
  | (f, .failed failure) => some ⟨f.id, failure.message⟩
  | _ => none

end Outcome

namespace BatchResult

/-- The report that deals fixes out by their outcomes. -/
def ofOutcomes (transactionId : String) (outcomes : List (Fix × Outcome)) : BatchResult :=
  let applied := outcomes.filterMap Outcome.applied?
  let failed := outcomes.filterMap Outcome.failed?
  let skipped := outcomes.filterMap Outcome.skipped?
  { success := failed.isEmpty, transactionId, applied, failed, skipped
    errors := outcomes.filterMap Outcome.note?
    summary :=
      { total := outcomes.length, successful := applied.length, failed := failed.length
        skipped := skipped.length } }

/-- The report with the outcomes of further fixes, one after another. -/
def settleAll (r : BatchResult) (outcomes : List (Fix × Outcome)) : BatchResult :=
  outcomes.foldl (fun r settled => r.settle settled.1 settled.2) r

lemma settleAll_append (r : BatchResult) (first second : List (Fix × Outcome)) :
    r.settleAll (first ++ second) = (r.settleAll first).settleAll second := List.foldl_append

/-- The lists and the counters of a report grow side by side with the outcomes. -/
lemma settleAll_eq (r : BatchResult) (outcomes : List (Fix × Outcome)) :
    r.settleAll outcomes =
      { r with
        applied := r.applied ++ outcomes.filterMap Outcome.applied?
        failed := r.failed ++ outcomes.filterMap Outcome.failed?
        skipped := r.skipped ++ outcomes.filterMap Outcome.skipped?
        errors := r.errors ++ outcomes.filterMap Outcome.note?
        summary :=
          { r.summary with
            successful := r.summary.successful + (outcomes.filterMap Outcome.applied?).length
            failed := r.summary.failed + (outcomes.filterMap Outcome.failed?).length
            skipped := r.summary.skipped + (outcomes.filterMap Outcome.skipped?).length } } := by
  induction outcomes generalizing r with
  | nil => simp [settleAll]
  | cons settled rest ih =>
    obtain ⟨f, o⟩ := settled
    rw [show r.settleAll ((f, o) :: rest) = (r.settle f o).settleAll rest from rfl, ih]
    cases o <;>
      simp [settle, List.filterMap_cons, Outcome.applied?, Outcome.failed?, Outcome.skipped?, Outcome.note?,
        Nat.add_assoc, Nat.add_comm 1]

/-- Kept up one outcome after another, a report comes to deal out all of its fixes. -/
theorem finish_settleAll (id : String) (outcomes : List (Fix × Outcome)) :
    ((start id outcomes.length).settleAll outcomes).finish = .ofOutcomes id outcomes := by
  rw [settleAll_eq]
  simp [start, finish, ofOutcomes]

end BatchResult

section Report

/-- The outcomes deal the fixes out to those applied, failed and skipped. -/
lemma interleaves_outcomes (outcomes : List (Fix × Outcome)) :
    Interleaves (outcomes.map Prod.fst) (outcomes.filterMap Outcome.applied?)
      (outcomes.filterMap Outcome.failed?) (outcomes.filterMap Outcome.skipped?) := by
  induction outcomes with
  | nil => exact .nil
  | cons settled rest ih =>
    obtain ⟨f, o⟩ := settled
    cases o with
    | applied => exact .first f ih
    | failed failure => exact .second f ih
    | skipped => exact .third f ih

lemma fixId_notes (outcomes : List (Fix × Outcome)) :
    (outcomes.filterMap Outcome.note?).map FailureNote.fixId = (outcomes.filterMap Outcome.failed?).map Fix.id := by
  induction outcomes with
  | nil => rfl
  | cons settled rest ih =>
    obtain ⟨f, o⟩ := settled
    cases o with
    | applied => exact ih
    | failed failure => exact congrArg (f.id :: ·) ih
    | skipped => exact ih

/-- A report that accounts for each of some fixes once. -/
structure BatchResult.Accounts (r : BatchResult) (fixes : List Fix) : Prop where
  interleaves : Interleaves fixes r.applied r.failed r.skipped
  errors : r.errors.map FailureNote.fixId = r.failed.map Fix.id
  summary : r.summary =
    { total := fixes.length, successful := r.applied.length, failed := r.failed.length
      skipped := r.skipped.length, rolledBack := 0 }
  success : r.success = true ↔ r.failed = []

theorem BatchResult.accounts_ofOutcomes (id : String) (outcomes : List (Fix × Outcome)) :
    (BatchResult.ofOutcomes id outcomes).Accounts (outcomes.map Prod.fst) where
  interleaves := interleaves_outcomes outcomes
  errors := fixId_notes outcomes
  summary := by simp [ofOutcomes]
  success := by simp [ofOutcomes]

end Report

namespace Batch
variable {σ : Type} {b : Batch σ} {p p' : Progress σ}

/-- The outcomes that a fix can have, what is wrong with it and what will be said of it once it is applied. -/
inductive Follows (verdict : Fix → Outcome) : Fix × Option ValidationError → Fix × Outcome → Prop
  | rejected (f : Fix) (e : ValidationError) : Follows verdict (f, some e) (f, .failed (.rejected e))
  | judged (f : Fix) : Follows verdict (f, none) (f, verdict f)
  | notApplied (f : Fix) (e : ApplyError) : Follows verdict (f, none) (f, .failed (.notApplied e))
  | skipped (f : Fix) : Follows verdict (f, none) (f, .skipped)

lemma Follows.fst_eq {verdict : Fix → Outcome} {checked : Fix × Option ValidationError} {settled : Fix × Outcome}
    (h : Follows verdict checked settled) : settled.1 = checked.1 := by cases h <;> rfl

lemma map_fst_of_follows {verdict : Fix → Outcome} {checked : List (Fix × Option ValidationError)}
    {settled : List (Fix × Outcome)} (h : List.Forall₂ (Follows verdict) checked settled) :
    settled.map Prod.fst = checked.map Prod.fst := by
  induction h with
  | nil => rfl
  | cons hfirst _ ih => rw [List.map_cons, List.map_cons, hfirst.fst_eq, ih]

lemma exists_checked_of_follows {verdict : Fix → Outcome} {checked : List (Fix × Option ValidationError)}
    {settled : List (Fix × Outcome)} (h : List.Forall₂ (Follows verdict) checked settled) {s : Fix × Outcome}
    (hs : s ∈ settled) : ∃ x ∈ checked, Follows verdict x s := by
  induction h with
  | nil => cases hs
  | @cons x _ _ _ hfirst _ ih =>
    rcases List.mem_cons.1 hs with rfl | hs
    · exact ⟨x, List.mem_cons_self, hfirst⟩
    · obtain ⟨y, hy, hfollows⟩ := ih hs
      exact ⟨y, List.mem_cons_of_mem _ hy, hfollows⟩

/-- A step that does not end the run is done with its fix. -/
lemma step_follows {checked : Fix × Option ValidationError} (h : b.step p checked = (.ok (), p')) :
    ∃ settled, p'.report = p.report.settle settled.1 settled.2 ∧ Follows b.verdict checked settled := by
  have hmoves := b.step_moves p checked
  rw [h] at hmoves
  cases hmoves with
  | rejected f e => exact ⟨(f, _), rfl, .rejected f e⟩
  | skipped f asked => exact ⟨(f, _), rfl, .skipped f⟩
  | @applied f _ _ asked _ => exact ⟨(f, _), rfl, .judged f⟩
  | @notApplied f e _ _ asked _ _ => exact ⟨(f, _), rfl, .notApplied f e⟩

/-- A run that comes to its end has an outcome for each of its fixes, in their order. -/
theorem run_follows {checked : List (Fix × Option ValidationError)} (h : b.run checked p = (.ok (), p')) :
    ∃ settled, p'.report = p.report.settleAll settled ∧ List.Forall₂ (Follows b.verdict) checked settled := by
  induction checked generalizing p with
  | nil =>
    obtain ⟨-, rfl⟩ := Prod.mk.inj h
    exact ⟨[], rfl, .nil⟩
  | cons first rest ih =>
    rw [run] at h
    rcases hs : b.step p first with ⟨r, p₁⟩
    rw [hs] at h
    cases r with
    | error e => cases h
    | ok _ =>
      obtain ⟨o, ho, hfirst⟩ := step_follows hs
      obtain ⟨settled, hsettled, hrest⟩ := ih h
      exact ⟨o :: settled, by rw [hsettled, ho]; rfl, .cons hfirst hrest⟩

/-- So the report on a run from the start has all of its fixes dealt out. -/
lemma finish_run {checked : List (Fix × Option ValidationError)} {id : String}
    (hp : p.report = .start id checked.length) (h : b.run checked p = (.ok (), p')) :
    ∃ settled, p'.report.finish = .ofOutcomes id settled ∧ List.Forall₂ (Follows b.verdict) checked settled := by
  obtain ⟨settled, hsettled, hfollows⟩ := run_follows h
  rw [hp, hfollows.length_eq] at hsettled
  exact ⟨settled, hsettled ▸ BatchResult.finish_settleAll id settled, hfollows⟩

end Batch

namespace Coordinator
variable {c : Coordinator} {env : Circumstances} {options : Options} {fixes : List Fix} {w : World}

lemma map_fst_checked (c : Coordinator) (d : Disk) (fixes : List Fix) : (c.checked d fixes).map Prod.fst = fixes := by
  rw [checked, List.map_map]
  conv_rhs => rw [← List.map_id fixes]
  refine List.map_congr_left fun f _ => ?_
  simp only [Function.comp_apply]
  split <;> rfl

lemma abort_result (c : Coordinator) (env : Circumstances) (t : Transaction) (e : ApplyError) (p : Progress World)
    (r : BatchResult) : (c.abort env t e p).result ≠ .ok r := by
  rcases c.abort_result_cases env t e p with h | h
  · rw [h]
    exact nofun
  · rw [h]
    exact nofun

/-- A batch that is not given up reports an outcome for each of its fixes. -/
lemma execute_follows {checked : List (Fix × Option ValidationError)} {t : Transaction} {r : BatchResult}
    (h : (c.execute env options checked t w).result = .ok r) :
    ∃ settled, r = .ofOutcomes env.id settled ∧
      List.Forall₂ (Batch.Follows (c.batch env options (files env)).verdict) checked settled := by
  have hexec := c.execute_executes env options checked t w
  generalize c.execute env options checked t w = a at h hexec
  cases hexec with
  | rehearsed hdry =>
    obtain ⟨settled, hsettled, hfollows⟩ := Batch.finish_run rfl (Prod.ext (c.rehearse_ok env hdry checked w) rfl)
    obtain rfl := Except.ok.inj h
    exact ⟨settled, hsettled, hfollows⟩
  | completed _ hp =>
    obtain ⟨settled, hsettled, hfollows⟩ := Batch.finish_run rfl hp
    obtain rfl := Except.ok.inj h
    exact ⟨settled, hsettled, hfollows⟩
  | aborted => exact absurd h (c.abort_result env t _ _ r)

lemma apply_follows {report : BatchResult} (h : (c.apply env options fixes w).result = .ok report) :
    ∃ settled, report = .ofOutcomes env.id settled ∧
      List.Forall₂ (Batch.Follows (c.batch env options (files env)).verdict) (c.checked w.2 fixes) settled := by
  have happly := c.apply_applies env options fixes w
  generalize c.apply env options fixes w = a at h happly
  cases happly with
  | bare => exact execute_follows h
  | saved => exact execute_follows h
  | unsaved => cases h

lemma accounts_of_apply {r : BatchResult} (h : (c.apply env options fixes w).result = .ok r) : r.Accounts fixes := by
  obtain ⟨settled, rfl, hfollows⟩ := apply_follows h
  rw [← c.map_fst_checked w.2 fixes, ← Batch.map_fst_of_follows hfollows]
  exact BatchResult.accounts_ofOutcomes env.id settled

/-- No fix is lost or counted twice. Whatever the fixes, the disk, the consents, the options and the
failures, a batch that is not given up deals its fixes out to those applied, failed and skipped, each in
order; there is one error for each failed fix, with its id; the summary gives the lengths of the lists and
nothing was rolled back; and the batch is a success exactly if no fix failed. -/
theorem apply_accounts (c : Coordinator) (env : Circumstances) (options : Options) (fixes : List Fix) (w : World)
    (r : BatchResult) (h : (c.apply env options fixes w).result = .ok r) :
    Interleaves fixes r.applied r.failed r.skipped ∧
      (r.errors.length = r.failed.length ∧ r.errors.map FailureNote.fixId = r.failed.map Fix.id) ∧
      r.summary = ⟨fixes.length, r.applied.length, r.failed.length, r.skipped.length, 0⟩ ∧
      (r.success = true ↔ r.failed = []) := by
  have hreport := accounts_of_apply h
  have hlength := congrArg List.length hreport.errors
  rw [List.length_map, List.length_map] at hlength
  exact ⟨hreport.interleaves, ⟨hlength, hreport.errors⟩, hreport.summary, hreport.success⟩

namespace Specimen

/-- Nothing fails, and the third consent is not given. -/
def hesitant : Circumstances :=
  { fullDisk with plan := .none, consent := fun asked _ => asked.length != 2 }

/-- A fix, the same fix again, another one, and one without changes. -/
def repeats : List Fix :=
  [⟨"1", "i", "", [.replace "a.ts" "let" "const"], .hundredths 90, .low, "naming"⟩,
    ⟨"1", "i", "", [.replace "a.ts" "let" "const"], .hundredths 90, .low, "naming"⟩,
    ⟨"2", "i", "", [.replace "./a.ts" "1" "2"], .hundredths 90, .low, "naming"⟩,
    ⟨"3", "i", "", [], .hundredths 90, .low, "naming"⟩]

end Specimen

theorem apply_accounts_repeats :
    ∃ r, (Specimen.coordinator.apply Specimen.hesitant { interactive := true } Specimen.repeats Specimen.world).result =
        .ok r ∧
      (r.applied.map Fix.id, r.failed.map Fix.id, r.skipped.map Fix.id) = (["1"], ["1", "3"], ["2"]) ∧
      Interleaves Specimen.repeats r.applied r.failed r.skipped ∧ r.summary = ⟨4, 1, 2, 1, 0⟩ := by
  have hids : (Specimen.coordinator.apply Specimen.hesitant { interactive := true } Specimen.repeats
      Specimen.world).result.toOption.map (fun r => (r.applied.map Fix.id, r.failed.map Fix.id,
        r.skipped.map Fix.id, r.summary)) = some (["1"], ["1", "3"], ["2"], ⟨4, 1, 2, 1, 0⟩) := by decide +kernel
  cases h : (Specimen.coordinator.apply Specimen.hesitant { interactive := true } Specimen.repeats
      Specimen.world).result with
  | error e =>
    rw [h] at hids
    cases hids
  | ok r =>
    have hall := apply_accounts Specimen.coordinator Specimen.hesitant { interactive := true } Specimen.repeats
      Specimen.world r h
    rw [h] at hids
    have hlists := Option.some.inj hids
    simp only [Prod.mk.injEq] at hlists ⊢
    exact ⟨r, rfl, ⟨hlists.1, hlists.2.1, hlists.2.2.1⟩, hall.1, hlists.2.2.2⟩

end Coordinator
end Autofix
