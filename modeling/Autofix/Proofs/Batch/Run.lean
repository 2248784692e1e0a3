import Autofix.Batch.Run
import Mathlib.Tactic.Common

/-! Runs of batches. What every access to a file keeps a whole run keeps, and runs on files that answer
alike come to the same outcomes. -/
namespace Autofix
variable {σ τ : Type}

lemma resolve_eq_ok {root path resolved : String} :
    resolve root path = .ok resolved ↔ Path.isWorkspaceRelative path = true ∧ resolved = Path.join root path := by
  unfold resolve
  split
  · next h => simp [h, eq_comm]
  · next h => simp [h]

/-- Every access to a path in `S` keeps a property of the state. -/
structure Files.Preserves (files : Files σ) (S : String → Prop) (I : σ → Prop) : Prop where
  read : ∀ path s, S path → I s → I (files.read path s).2
  write : ∀ path t s, S path → I s → I (files.write path t s).2

/-- On paths in `S`, two ways to access files answer alike as long as their states are related. A file is
written only after it could be read. -/
structure Files.Simulates (f : Files σ) (g : Files τ) (S : String → Prop) (R : σ → τ → Prop) : Prop where
  read : ∀ path s u, S path → R s u →
    (f.read path s).1 = (g.read path u).1 ∧ R (f.read path s).2 (g.read path u).2
  write : ∀ path t s u current, S path → R s u → (f.read path s).1 = .ok current →
    (f.write path t (f.read path s).2).1 = (g.write path t (g.read path u).2).1 ∧
      R (f.write path t (f.read path s).2).2 (g.write path t (g.read path u).2).2

lemma Files.Preserves.simulates {files : Files σ} {S : String → Prop} {I : σ → Prop} (h : files.Preserves S I) :
    files.Simulates files S fun s u => s = u ∧ I s := by
  refine ⟨fun path s u hpath hs => ?_, fun path t s u current hpath hs _ => ?_⟩
  · obtain ⟨rfl, hs⟩ := hs
    exact ⟨rfl, rfl, h.read path s hpath hs⟩
  · obtain ⟨rfl, hs⟩ := hs
    exact ⟨rfl, rfl, h.write path t _ hpath (h.read path s hpath hs)⟩

/-- Access that keeps the states it passes through. -/
def Files.recorded (files : Files σ) : Files (List σ × σ) where
  read path s :=
    let (result, s') := files.read path s.2
    (result, s.1 ++ [s'], s')
  write path t s :=
    let (result, s') := files.write path t s.2
    (result, s.1 ++ [s'], s')

lemma Files.Preserves.recorded {files : Files σ} {S : String → Prop} {I : σ → Prop} (h : files.Preserves S I) :
    files.recorded.Preserves S fun s => I s.2 ∧ ∀ x ∈ s.1, I x := by
  refine ⟨fun path s hpath hs => ?_, fun path t s hpath hs => ?_⟩
  · have hnext := h.read path s.2 hpath hs.1
    exact ⟨hnext, List.forall_mem_append.2 ⟨hs.2, by simpa using hnext⟩⟩
  · have hnext := h.write path t s.2 hpath hs.1
    exact ⟨hnext, List.forall_mem_append.2 ⟨hs.2, by simpa using hnext⟩⟩

/-- Keeping the states changes no answer, and the last one is among them. -/
lemma Files.recorded_simulates (files : Files σ) (S : String → Prop) :
    files.recorded.Simulates files S fun s u => s.2 = u ∧ u ∈ s.1 := by
  refine ⟨fun path s u _ hs => ?_, fun path t s u current _ hs _ => ?_⟩
  · obtain ⟨rfl, _⟩ := hs
    exact ⟨rfl, rfl, List.mem_append_right _ List.mem_cons_self⟩
  · obtain ⟨rfl, _⟩ := hs
    exact ⟨rfl, rfl, List.mem_append_right _ List.mem_cons_self⟩

/-- The fixes with nothing wrong change only files whose paths below `root` are in `S`. -/
def Stays (root : String) (S : String → Prop) (checked : List (Fix × Option ValidationError)) : Prop :=
  ∀ f, (f, none) ∈ checked → ∀ c ∈ f.changes, S (Path.join root c.filePath)

section Changes
variable {f : Files σ} {g : Files τ} {root : String} {S : String → Prop} {R : σ → τ → Prop}

/-- A change is written right after its file was read, which is all that a simulation says of writes. -/
lemma applyChange_simulates (h : f.Simulates g S R) {c : Change} (hc : S (Path.join root c.filePath))
    (shifts : LineShifts) {s : σ} {u : τ} (hs : R s u) :
    (applyChange f root c shifts s).1 = (applyChange g root c shifts u).1 ∧
      (applyChange f root c shifts s).2.1 = (applyChange g root c shifts u).2.1 ∧
      R (applyChange f root c shifts s).2.2 (applyChange g root c shifts u).2.2 := by
  unfold applyChange
  cases hp : resolve root c.filePath with
  | error e => exact ⟨rfl, rfl, hs⟩
  | ok path =>
    obtain rfl := (resolve_eq_ok.1 hp).2
    obtain ⟨hr, hR⟩ := h.read _ s u hc hs
    have hupdate := fun updated current => h.write _ updated s u current hc hs
    dsimp only
    rcases hf : f.read (Path.join root c.filePath) s with ⟨r, s1⟩
    rcases hg : g.read (Path.join root c.filePath) u with ⟨r', u1⟩
    rw [hf, hg] at hr hR
    simp only [hf, hg] at hupdate
    obtain rfl : r = r' := hr
    cases r with
    | error e => exact ⟨rfl, rfl, hR⟩
    | ok current =>
      dsimp only
      cases c.substitute? (shifts.expectedLine? c) current with
      | none => exact ⟨rfl, rfl, hR⟩
      | some updated =>
        obtain ⟨hw, hR'⟩ := hupdate updated current rfl
        dsimp only
        rcases hf' : f.write (Path.join root c.filePath) updated s1 with ⟨r, s2⟩
        rcases hg' : g.write (Path.join root c.filePath) updated u1 with ⟨r', u2⟩
        rw [hf', hg'] at hw hR'
        obtain rfl : r = r' := hw
        cases r with
        | error e => exact ⟨rfl, rfl, hR'⟩
        | ok _ => exact ⟨rfl, rfl, hR'⟩

/-- Changes have the same outcome on files that answer alike. -/
theorem applyChanges_simulates (h : f.Simulates g S R) {changes : List Change}
    (hc : ∀ c ∈ changes, S (Path.join root c.filePath)) (shifts : LineShifts) {s : σ} {u : τ} (hs : R s u) :
    (applyChanges f root changes shifts s).1 = (applyChanges g root changes shifts u).1 ∧
      (applyChanges f root changes shifts s).2.1 = (applyChanges g root changes shifts u).2.1 ∧
      R (applyChanges f root changes shifts s).2.2 (applyChanges g root changes shifts u).2.2 := by
  induction changes generalizing shifts s u with
  | nil => exact ⟨rfl, rfl, hs⟩
  | cons c changes ih =>
    rw [List.forall_mem_cons] at hc
    obtain ⟨hr, hl, hR⟩ := applyChange_simulates h hc.1 shifts hs
    rw [applyChanges, applyChanges]
    rcases hf : applyChange f root c shifts s with ⟨r, l, s1⟩
    rcases hg : applyChange g root c shifts u with ⟨r', l', u1⟩
    rw [hf, hg] at hr hl hR
    obtain rfl : r = r' := hr
    obtain rfl : l = l' := hl
    cases r with
    | error e => exact ⟨rfl, rfl, hR⟩
    | ok _ => exact ih hc.2 l hR

end Changes

section Failures
variable {files : Files σ} {root : String} {S : String → Prop} {I : σ → Prop}

/-- Reads fail only because there is no file or no text, and writes do not fail. -/
structure Files.FailsMildly (files : Files σ) (S : String → Prop) (I : σ → Prop) : Prop
    extends files.Preserves S I where
  read_error : ∀ path s e, S path → I s → (files.read path s).1 = .error e →
    e.kind = .notFound ∨ e.kind = .invalidData
  write_ok : ∀ path t s, S path → I s → (files.write path t s).1 = .ok ()

lemma applyChange_error (h : files.FailsMildly S I) {c : Change} (hc : S (Path.join root c.filePath))
    {shifts : LineShifts} {s : σ} (hs : I s) {e : ApplyError}
    (he : (applyChange files root c shifts s).1 = .error e) : e.isCatastrophic = false := by
  unfold applyChange at he
  split at he
  · next hr =>
    obtain rfl := Except.error.inj he
    unfold resolve at hr
    split at hr
    · cases hr
    · rw [← Except.error.inj hr]
      rfl
  · next path hp =>
    obtain rfl := (resolve_eq_ok.1 hp).2
    have hread := h.read_error (Path.join root c.filePath) s
    have hI := h.read _ s hc hs
    split at he
    · next source s1 hr =>
      obtain rfl := Except.error.inj he
      rw [hr] at hread
      unfold ApplyError.ofRead
      rcases hread source hc hs rfl with hk | hk
      · rw [hk]
        rfl
      · rw [hk]
        rfl
    · next current s1 hr =>
      rw [hr] at hI
      split at he
      · obtain rfl := Except.error.inj he
        rfl
      · next updated _ =>
        have hwrite := h.write_ok _ updated s1 hc hI
        split at he
        · next hw =>
          rw [hw] at hwrite
          cases hwrite
        · cases he

/-- Nothing that goes wrong with changes to such files is catastrophic. -/
theorem applyChanges_error (h : files.FailsMildly S I) {changes : List Change}
    (hc : ∀ c ∈ changes, S (Path.join root c.filePath)) {shifts : LineShifts} {s : σ} (hs : I s) {e : ApplyError}
    (he : (applyChanges files root changes shifts s).1 = .error e) : e.isCatastrophic = false := by
  induction changes generalizing shifts s with
  | nil => cases he
  | cons c changes ih =>
    rw [List.forall_mem_cons] at hc
    have hI := (applyChange_simulates h.simulates hc.1 shifts ⟨rfl, hs⟩).2.2.2
    have hone : (applyChange files root c shifts s).1 = .error e → e.isCatastrophic = false := applyChange_error h hc.1 hs
    rw [applyChanges] at he
    rcases hr : applyChange files root c shifts s with ⟨r, shifts1, s1⟩
    rw [hr] at he hI hone
    cases r with
    | ok _ => exact ih hc.2 hI he
    | error e' => exact hone he

end Failures

/-- Two batches have come equally far. The transactions that they are reported for may have different ids. -/
structure Progress.Matches (R : σ → τ → Prop) (p : Progress σ) (q : Progress τ) : Prop where
  state : R p.state q.state
  shifts : p.shifts = q.shifts
  asked : p.asked = q.asked
  written : p.written = q.written
  report : ∃ id, q.report = { p.report with transactionId := id }

lemma Progress.Matches.settle {R : σ → τ → Prop} {p : Progress σ} {q : Progress τ} (h : p.Matches R q) (f : Fix)
    (o : Outcome) : (p.settle f o).Matches R (q.settle f o) := by
  obtain ⟨id, hid⟩ := h.report
  refine ⟨h.state, h.shifts, h.asked, h.written, id, ?_⟩
  simp only [Progress.settle, hid]
  cases o <;> rfl

namespace Batch

/-- Two batches are run with the same settings, dry runs and files aside. -/
structure Twins (b : Batch σ) (b' : Batch τ) : Prop where
  root : b.root = b'.root
  interactive : b.options.interactive = b'.options.interactive
  validateAfterFix : b.options.validateAfterFix = b'.options.validateAfterFix
  consent : b.consent = b'.consent
  approves : b.approves = b'.approves

/-- On fixes that change only files in `S`, both batches are given up alike. -/
def AgreeOnGivingUp (b : Batch σ) (b' : Batch τ) (S : String → Prop) (R : σ → τ → Prop) : Prop :=
  ∀ (f : Fix) shifts s u e, (∀ c ∈ f.changes, S (Path.join b.root c.filePath)) → R s u →
    (f.apply b.files b.root shifts s).1 = .error e → b.givesUp e = b'.givesUp e

section Simulates
variable {b : Batch σ} {b' : Batch τ} {S : String → Prop} {R : σ → τ → Prop}

lemma attempt_simulates (ht : b.Twins b') (h : b.files.Simulates b'.files S R) (ha : b.AgreeOnGivingUp b' S R)
    {f : Fix} (hf : ∀ c ∈ f.changes, S (Path.join b.root c.filePath)) {p : Progress σ} {q : Progress τ}
    (hp : p.Matches R q) : (b.attempt p f).1 = (b'.attempt q f).1 ∧ (b.attempt p f).2.Matches R (b'.attempt q f).2 := by
  obtain ⟨hr, hl, hR⟩ := applyChanges_simulates h hf p.shifts hp.state
  have hverdict : b.verdict f = b'.verdict f := by simp [verdict, ht.validateAfterFix, ht.approves]
  unfold attempt
  rcases hrun : f.apply b.files b.root p.shifts p.state with ⟨r, l, s1⟩
  rcases hrun' : f.apply b'.files b'.root q.shifts q.state with ⟨r', l', u1⟩
  have hgive := ha f p.shifts p.state q.state
  rw [hrun] at hgive
  rw [Fix.apply] at hrun hrun'
  rw [← ht.root, ← hp.shifts] at hrun'
  rw [hrun, hrun'] at hr hl hR
  obtain rfl : r = r' := hr
  obtain rfl : l = l' := hl
  cases r with
  | ok _ =>
    dsimp only
    rw [hverdict]
    refine ⟨rfl, Progress.Matches.settle ?_ f _⟩
    exact ⟨hR, rfl, hp.asked, congrArg (· + 1) hp.written, hp.report⟩
  | error e =>
    dsimp only
    rw [hgive e hf hp.state rfl]
    split
    · exact ⟨rfl, hR, rfl, hp.asked, hp.written, hp.report⟩
    · refine ⟨rfl, Progress.Matches.settle ?_ f _⟩
      exact ⟨hR, rfl, hp.asked, hp.written, hp.report⟩

lemma step_simulates (ht : b.Twins b') (h : b.files.Simulates b'.files S R) (ha : b.AgreeOnGivingUp b' S R)
    {checked : Fix × Option ValidationError} (hc : Stays b.root S [checked]) {p : Progress σ} {q : Progress τ}
    (hp : p.Matches R q) :
    (b.step p checked).1 = (b'.step q checked).1 ∧ (b.step p checked).2.Matches R (b'.step q checked).2 := by
  obtain ⟨f, e⟩ := checked
  cases e with
  | some e => exact ⟨rfl, hp.settle f _⟩
  | none =>
    have hf := hc f List.mem_cons_self
    rw [step, step, ht.interactive]
    split
    · rw [attemptWithConsent, attemptWithConsent, ht.consent, hp.asked]
      have hasked : Progress.Matches R { p with asked := q.asked ++ [f] } { q with asked := q.asked ++ [f] } :=
        ⟨hp.state, hp.shifts, rfl, hp.written, hp.report⟩
      split
      · exact attempt_simulates ht h ha hf hasked
      · exact ⟨rfl, hasked.settle f _⟩
    · exact attempt_simulates ht h ha hf hp

/-- Runs on files that answer alike come to the same outcomes: every step keeps the two batches equally far, and none
ends one of them alone. -/
theorem run_simulates (ht : b.Twins b') (h : b.files.Simulates b'.files S R) (ha : b.AgreeOnGivingUp b' S R)
    {checked : List (Fix × Option ValidationError)} (hc : Stays b.root S checked) {p : Progress σ} {q : Progress τ}
    (hp : p.Matches R q) :
    (b.run checked p).1 = (b'.run checked q).1 ∧ (b.run checked p).2.Matches R (b'.run checked q).2 := by
  induction checked generalizing p q with
  | nil => exact ⟨rfl, hp⟩
  | cons first rest ih =>
    have hfirst : Stays b.root S [first] := fun f hf => hc f (by simp_all)
    obtain ⟨hr, hm⟩ := step_simulates ht h ha hfirst hp
    rw [run, run]
    rcases hs : b.step p first with ⟨r, p1⟩
    rcases hs' : b'.step q first with ⟨r', q1⟩
    rw [hs, hs'] at hr hm
    obtain rfl : r = r' := hr
    cases r with
    | ok _ => exact ih (fun f hf => hc f (List.mem_cons_of_mem _ hf)) hm
    | error e => exact ⟨rfl, hm⟩

end Simulates

/-- What one step of a batch can come to. The fixes that a consent was asked for do not matter to the rest. -/
inductive Moves (b : Batch σ) (p : Progress σ) :
    Fix × Option ValidationError → Except ApplyError Unit → Progress σ → Prop
  | rejected (f : Fix) (e : ValidationError) : b.Moves p (f, some e) (.ok ()) (p.settle f (.failed (.rejected e)))
  | skipped (f : Fix) (asked : List Fix) : b.Moves p (f, none) (.ok ()) ({ p with asked }.settle f .skipped)
  | applied {f : Fix} {shifts : LineShifts} {state : σ} (asked : List Fix)
      (h : f.apply b.files b.root p.shifts p.state = (.ok (), shifts, state)) :
      b.Moves p (f, none) (.ok ())
        ({ p with asked, shifts, state, written := p.written + 1 }.settle f (b.verdict f))
  | notApplied {f : Fix} {e : ApplyError} {shifts : LineShifts} {state : σ} (asked : List Fix)
      (h : f.apply b.files b.root p.shifts p.state = (.error e, shifts, state)) (hgoes : b.givesUp e = false) :
      b.Moves p (f, none) (.ok ()) ({ p with asked, shifts, state }.settle f (.failed (.notApplied e)))
  | givenUp {f : Fix} {e : ApplyError} {shifts : LineShifts} {state : σ} (asked : List Fix)
      (h : f.apply b.files b.root p.shifts p.state = (.error e, shifts, state)) (hgives : b.givesUp e = true) :
      b.Moves p (f, none) (.error e) { p with asked, shifts, state }

lemma attempt_moves (b : Batch σ) (p : Progress σ) (f : Fix) (asked : List Fix) :
    b.Moves p (f, none) (b.attempt { p with asked } f).1 (b.attempt { p with asked } f).2 := by
  unfold attempt
  split
  · next h => exact .applied asked h
  · next e shifts state h =>
    dsimp only
    cases hgives : b.givesUp e with
    | true => exact .givenUp asked h hgives
    | false => exact .notApplied asked h hgives

theorem step_moves (b : Batch σ) (p : Progress σ) (checked : Fix × Option ValidationError) :
    b.Moves p checked (b.step p checked).1 (b.step p checked).2 := by
  obtain ⟨f, e⟩ := checked
  cases e with
  | some e => exact .rejected f e
  | none =>
    rw [step]
    split
    · rw [attemptWithConsent]
      split
      · exact b.attempt_moves p f _
      · exact .skipped f _
    · exact b.attempt_moves p f p.asked

/-- What every access keeps a run keeps, whatever fails on the way. It is carried as a simulation of the run by
itself. -/
theorem run_preserves {b : Batch σ} {S : String → Prop} {I : σ → Prop} (h : b.files.Preserves S I)
    {checked : List (Fix × Option ValidationError)} (hc : Stays b.root S checked) {p : Progress σ}
    (hp : I p.state) : I (b.run checked p).2.state := by
  have hmatch : p.Matches (fun s u => s = u ∧ I s) p := ⟨⟨rfl, hp⟩, rfl, rfl, rfl, _, rfl⟩
  exact (run_simulates ⟨rfl, rfl, rfl, rfl, rfl⟩ h.simulates (fun _ _ _ _ _ _ _ _ => rfl) hc hmatch).2.state.2

/-- A batch with something wrong with every fix comes to its end and accesses no file. -/
theorem run_of_all_rejected (b : Batch σ) {checked : List (Fix × Option ValidationError)}
    (h : ∀ f, (f, none) ∉ checked) (p : Progress σ) :
    (b.run checked p).1 = .ok () ∧ (b.run checked p).2.state = p.state := by
  induction checked generalizing p with
  | nil => exact ⟨rfl, rfl⟩
  | cons first rest ih =>
    obtain ⟨f, e⟩ := first
    cases e with
    | none => exact absurd List.mem_cons_self (h f)
    | some e => exact ih (fun f hf => h f (List.mem_cons_of_mem _ hf)) _

lemma step_dryRun {b : Batch σ} (h : b.options.dryRun = true) (p : Progress σ)
    (checked : Fix × Option ValidationError) : (b.step p checked).1 = .ok () := by
  have hmoves := b.step_moves p checked
  rcases hs : b.step p checked with ⟨r, p₁⟩
  rw [hs] at hmoves
  cases hmoves with
  | rejected | skipped | applied | notApplied => rfl
  | givenUp asked _ hgives => simp [givesUp, h] at hgives

theorem run_dryRun {b : Batch σ} (h : b.options.dryRun = true) (checked : List (Fix × Option ValidationError))
    (p : Progress σ) : (b.run checked p).1 = .ok () := by
  induction checked generalizing p with
  | nil => rfl
  | cons first rest ih =>
    have hone := step_dryRun h p first
    rw [run]
    rcases hs : b.step p first with ⟨r, p₁⟩
    rw [hs] at hone
    obtain rfl : r = .ok () := hone
    exact ih p₁

end Batch
end Autofix
