import Autofix.Proofs.Apply.Spelling
import Autofix.Proofs.Batch.Rehearsal
import Autofix.Proofs.Syntax.Parser

/-! Batches whose paths are spelled in another way. Two runs that differ in the spelling of paths alone are
followed side by side: the files hold the same, the shifts agree about all changes to come, and each fix
has the same fate. -/
namespace Autofix
variable {σ τ : Type} {root : String}

/-- What became of a fix, whatever the reason. -/
inductive Fate
  | applied
  | failed
  | skipped
deriving DecidableEq, Repr

def Outcome.fate : Outcome → Fate
  | .applied => .applied
  | .failed _ => .failed
  | .skipped => .skipped

/-- The changes of a batch in the order in which they are tried, each with its other spelling. -/
def changePairs (fixes fixes' : List Fix) : List (Change × Change) :=
  (fixes.zip fixes').flatMap fun f => f.1.changes.zip f.2.changes

lemma changePairs_cons (f f' : Fix) (rest rest' : List Fix) :
    changePairs (f :: rest) (f' :: rest') = f.changes.zip f'.changes ++ changePairs rest rest' := by
  simp [changePairs]

section Spelling

/-- The answer does not depend on how the paths of the fixes are spelled. -/
def Consent.IgnoresSpelling (root : String) (consent : Consent) : Prop :=
  ∀ past past' f f', List.Forall₂ (Fix.Respelled root) past past' → Fix.Respelled root f f' →
    consent past f = consent past' f'

def Fixer.IgnoresSpelling (root : String) (fixer : Fixer) : Prop :=
  ∀ f f', Fix.Respelled root f f' → fixer.accepts f = fixer.accepts f'

lemma Change.Respelled.blank {c c' : Change} (h : Change.Respelled root c c') :
    isBlankString c.filePath = isBlankString c'.filePath := by
  rcases h.path with hpath | hpath
  · rw [hpath]
  · exact hpath.blank

lemma all_respelled {changes changes' : List Change} (h : List.Forall₂ (Change.Respelled root) changes changes')
    {φ : Change → Bool} (hφ : ∀ c c', Change.Respelled root c c' → φ c = φ c') : changes.all φ = changes'.all φ := by
  induction h with
  | nil => rfl
  | cons hc _ ih => rw [List.all_cons, List.all_cons, hφ _ _ hc, ih]

lemma isEmpty_respelled {changes changes' : List Change} (h : List.Forall₂ (Change.Respelled root) changes changes') :
    changes.isEmpty = changes'.isEmpty := by
  cases h <;> rfl

lemma isWellFormed_respelled {f f' : Fix} (h : Fix.Respelled root f f') : f.isWellFormed = f'.isWellFormed := by
  rw [Fix.isWellFormed, Fix.isWellFormed, isEmpty_respelled h.changes, all_respelled h.changes]
  intro c c' hc
  rw [hc.blank, hc.edit]

/-- No fixer that comes with the program looks at the spelling of a path. -/
theorem Registry.builtin_ignoresSpelling (parser : Parser) (root : String) :
    ∀ fixer ∈ builtin parser, fixer.IgnoresSpelling root := by
  have hwords : Formatting.fixer.IgnoresSpelling root := by
    intro f f' h
    refine congrArg₂ (· && ·) (isWellFormed_respelled h) (all_respelled h.changes ?_)
    intro c c' hc
    rw [hc.edit]
  have hbrackets : (Refactoring.fixer parser).IgnoresSpelling root := by
    intro f f' h
    refine congrArg₂ (· && ·) (isWellFormed_respelled h) (all_respelled h.changes ?_)
    intro c c' hc
    rw [hc.edit]
  simp only [builtin, List.forall_mem_cons, List.not_mem_nil, false_imp_iff, implies_true, and_true]
  exact ⟨hwords, fun _ _ => isWellFormed_respelled, fun _ _ => isWellFormed_respelled, hbrackets⟩

end Spelling

section Run

/-- A fix of one batch and the same fix of the other, wrong in both or in neither; what can be tried leads
to related files. -/
structure Fix.Matches (root : String) (P : String → String → Prop) (f f' : Fix × Option ValidationError) : Prop where
  respelled : Fix.Respelled root f.1 f'.1
  rejected : f.2.isSome = f'.2.isSome
  changes : f.2 = none → List.Forall₂ (Change.Matches root P) f.1.changes f'.1.changes

/-- Two batches are run with settings that do not depend on how paths are spelled. -/
structure Batch.Alike (b : Batch σ) (b' : Batch τ) (P : String → String → Prop) (R : σ → τ → Prop) : Prop where
  files : b.files.AnswerAlike b'.files P R
  root : b'.root = b.root
  options : b'.options = b.options
  consent : b'.consent = b.consent
  ignores : b.consent.IgnoresSpelling b.root
  approves : ∀ f f', Fix.Respelled b.root f f' → b.approves f = b'.approves f'

/-- Two batches have come equally far, and their shifts agree about the changes to come. -/
structure Progress.Alike (root : String) (R : σ → τ → Prop) (later : List (Change × Change)) (p : Progress σ)
    (q : Progress τ) : Prop where
  state : R p.state q.state
  shifts : ∀ x ∈ later, LineShifts.Agree p.shifts q.shifts x
  asked : List.Forall₂ (Fix.Respelled root) p.asked q.asked
  written : p.written = q.written

/-- From one report to another, fixes have been done with that had these fates. -/
def BatchResult.Settles (r r' : BatchResult) (fixes : List Fix) (fates : List Fate) : Prop :=
  ∃ outcomes, outcomes.length = fixes.length ∧ outcomes.map Outcome.fate = fates ∧
    r' = r.settleAll (fixes.zip outcomes)

variable {b : Batch σ} {b' : Batch τ} {P : String → String → Prop} {R : σ → τ → Prop} {p : Progress σ}
  {q : Progress τ} {changes later : List (Change × Change)} {f f' : Fix}

lemma Progress.Alike.of_append (h : p.Alike root R (changes ++ later) q) : p.Alike root R later q :=
  ⟨h.state, fun x hx => h.shifts x (List.mem_append_right _ hx), h.asked, h.written⟩

lemma BatchResult.settles_settle (r : BatchResult) (f : Fix) (o : Outcome) : r.Settles (r.settle f o) [f] [o.fate] :=
  ⟨[o], rfl, rfl, rfl⟩

lemma BatchResult.Settles.append {r r₁ r' : BatchResult} {fixes fixes' : List Fix} {fates fates' : List Fate}
    (h : r.Settles r₁ fixes fates) (h' : r₁.Settles r' fixes' fates') :
    r.Settles r' (fixes ++ fixes') (fates ++ fates') := by
  obtain ⟨outcomes, hlength, rfl, rfl⟩ := h
  obtain ⟨outcomes', hlength', rfl, rfl⟩ := h'
  refine ⟨outcomes ++ outcomes', by rw [List.length_append, List.length_append, hlength, hlength'], List.map_append, ?_⟩
  rw [List.zip_append hlength.symm, settleAll_append]

namespace Batch

/-- Two steps or runs go on alike or are given up alike. If they go on, the fixes had the same fates. -/
structure EndAlike (root : String) (R : σ → τ → Prop) (later : List (Change × Change)) (report report' : BatchResult)
    (fixes fixes' : List Fix) (r : Except ApplyError Unit × Progress σ) (r' : Except ApplyError Unit × Progress τ) :
    Prop where
  result : r.1.mapError ApplyError.isCatastrophic = r'.1.mapError ApplyError.isCatastrophic
  progress : r.2.Alike root R later r'.2
  fates : r.1 = .ok () → ∃ fates, report.Settles r.2.report fixes fates ∧ report'.Settles r'.2.report fixes' fates

/-- Fixes that are done with have the same fate. -/
lemma EndAlike.settle (h : p.Alike root R later q) (f f' : Fix) {o o' : Outcome} (ho : o.fate = o'.fate) :
    EndAlike root R later p.report q.report [f] [f'] (.ok (), p.settle f o) (.ok (), q.settle f' o') where
  result := rfl
  progress := ⟨h.state, h.shifts, h.asked, h.written⟩
  fates _ := ⟨[o.fate], p.report.settles_settle f o, ho ▸ q.report.settles_settle f' o'⟩

lemma verdict_alike (hb : b.Alike b' P R) (hf : Fix.Respelled b.root f f') :
    (b.verdict f).fate = (b'.verdict f').fate := by
  rw [verdict, verdict, hb.options, hb.approves f f' hf]
  split <;> rfl

lemma attempt_alike (hb : b.Alike b' P R) (hf : Fix.Respelled b.root f f')
    (hchanges : List.Forall₂ (Change.Matches b.root P) f.changes f'.changes)
    (hspelled : (f.changes.zip f'.changes ++ later).Pairwise SpelledAlike)
    (hp : p.Alike b.root R (f.changes.zip f'.changes ++ later) q) :
    EndAlike b.root R later p.report q.report [f] [f'] (b.attempt p f) (b'.attempt q f') := by
  have hone := applyChanges_endAlike hb.files hchanges hp.state hp.shifts hspelled
  unfold attempt Fix.apply
  rw [hb.root]
  rcases hx : applyChanges b.files b.root f.changes p.shifts p.state with ⟨r, s, x⟩
  rcases hy : applyChanges b'.files b.root f'.changes q.shifts q.state with ⟨r', s', y⟩
  rw [hx, hy] at hone
  obtain ⟨hfailure, hshifts, hstate⟩ := hone
  cases r with
  | ok _ =>
    cases r' with
    | error e' => cases hfailure
    | ok _ =>
      have hnext : Progress.Alike b.root R later { p with shifts := s, state := x, written := p.written + 1 }
          { q with shifts := s', state := y, written := q.written + 1 } :=
        ⟨hstate, hshifts, hp.asked, congrArg (· + 1) hp.written⟩
      exact .settle hnext f f' (verdict_alike hb hf)
  | error e =>
    cases r' with
    | ok _ => cases hfailure
    | error e' =>
      have hweight : e.isCatastrophic = e'.isCatastrophic := Except.error.inj hfailure
      have hgive : b'.givesUp e' = b.givesUp e := by rw [givesUp, givesUp, hweight, hb.options]
      have hnext : Progress.Alike b.root R later { p with shifts := s, state := x }
          { q with shifts := s', state := y } := ⟨hstate, hshifts, hp.asked, hp.written⟩
      dsimp only
      rw [hgive]
      split
      · exact ⟨hfailure, hnext, fun hok => by cases hok⟩
      · exact .settle hnext f f' rfl

lemma step_alike (hb : b.Alike b' P R) {checked checked' : Fix × Option ValidationError}
    (hc : Fix.Matches b.root P checked checked')
    (hspelled : (checked.1.changes.zip checked'.1.changes ++ later).Pairwise SpelledAlike)
    (hp : p.Alike b.root R (checked.1.changes.zip checked'.1.changes ++ later) q) :
    EndAlike b.root R later p.report q.report [checked.1] [checked'.1] (b.step p checked) (b'.step q checked') := by
  obtain ⟨f, e⟩ := checked
  obtain ⟨f', e'⟩ := checked'
  have hf : Fix.Respelled b.root f f' := hc.respelled
  cases e with
  | some e =>
    cases e' with
    | none => cases hc.rejected
    | some e' => exact .settle hp.of_append f f' rfl
  | none =>
    cases e' with
    | some e' => cases hc.rejected
    | none =>
      have hchanges := hc.changes rfl
      rw [step, step, hb.options]
      split
      · have hgiven : b.consent p.asked f = b.consent q.asked f' := hb.ignores _ _ _ _ hp.asked hf
        have hasked : Progress.Alike b.root R (f.changes.zip f'.changes ++ later)
            { p with asked := p.asked ++ [f] } { q with asked := q.asked ++ [f'] } :=
          ⟨hp.state, hp.shifts, List.rel_append hp.asked (.cons hf .nil), hp.written⟩
        rw [attemptWithConsent, attemptWithConsent, hb.consent, hgiven]
        split
        · exact attempt_alike hb hf hchanges hspelled hasked
        · exact .settle hasked.of_append f f' rfl
      · exact attempt_alike hb hf hchanges hspelled hp

/-- Runs of two batches that differ in the spelling of paths end alike. The shifts agree about the changes of all fixes
to come, of which each step takes those of one fix. -/
theorem run_alike (hb : b.Alike b' P R) {checked checked' : List (Fix × Option ValidationError)}
    (hc : List.Forall₂ (Fix.Matches b.root P) checked checked')
    (hspelled : (changePairs (checked.map Prod.fst) (checked'.map Prod.fst)).Pairwise SpelledAlike)
    (hp : p.Alike b.root R (changePairs (checked.map Prod.fst) (checked'.map Prod.fst)) q) :
    EndAlike b.root R [] p.report q.report (checked.map Prod.fst) (checked'.map Prod.fst) (b.run checked p)
      (b'.run checked' q) := by
  induction hc generalizing p q with
  | nil => exact ⟨rfl, hp, fun _ => ⟨[], ⟨[], rfl, rfl, rfl⟩, ⟨[], rfl, rfl, rfl⟩⟩⟩
  | @cons first first' rest rest' hfirst _ ih =>
    rw [List.map_cons, List.map_cons, changePairs_cons] at hspelled hp
    obtain ⟨hresult, hnext, hfate⟩ := step_alike hb hfirst hspelled hp
    rw [run, run]
    rcases hs : b.step p first with ⟨r, p₁⟩
    rcases hs' : b'.step q first' with ⟨r', q₁⟩
    rw [hs, hs'] at hresult hnext hfate
    cases r with
    | ok _ =>
      cases r' with
      | error e' => cases hresult
      | ok _ =>
        obtain ⟨fate, hone, hone'⟩ := hfate rfl
        obtain ⟨hresults, hprogress, hfates⟩ := ih (List.pairwise_append.1 hspelled).2.1 hnext
        refine ⟨hresults, hprogress, fun hok => ?_⟩
        obtain ⟨fates, hall, hall'⟩ := hfates hok
        exact ⟨fate ++ fates, hone.append hall, hone'.append hall'⟩
    | error e =>
      cases r' with
      | ok _ => cases hresult
      | error e' =>
        refine ⟨hresult, ⟨hnext.state, List.forall_mem_nil _, hnext.asked, hnext.written⟩, fun hok => ?_⟩
        cases hok

end Batch
end Run

section World

/-- Accesses of one kind to spellings of one path. -/
inductive Access.Same : Access → Access → Prop
  | read {a b : String} (h : Path.components a = Path.components b) : Same (.read a) (.read b)
  | write {a b : String} (h : Path.components a = Path.components b) : Same (.write a) (.write b)

lemma Access.same_refl (log : List Access) : List.Forall₂ Access.Same log log := by
  refine List.forall₂_same.2 fun a _ => ?_
  cases a with
  | read path => exact .read rfl
  | write path => exact .write rfl

/-- Which accesses fail does not depend on how paths are spelled. -/
def FaultPlan.IgnoresSpelling (plan : FaultPlan) : Prop :=
  ∀ past past' a a', List.Forall₂ Access.Same past past' → a.Same a' → plan past a = plan past' a'

/-- Two worlds that have come from the disk `start`, with accesses that differ in spelling alone and files that
hold the same outside `T`. -/
structure World.Alike (start : Disk) (T : Place → Prop) (w u : World) : Prop where
  log : List.Forall₂ Access.Same w.1 u.1
  evolves : start.Evolves w.2 ∧ start.Evolves u.2
  contents : ∀ p, ¬ T p → (w.2.file? p).map FileEntry.content = (u.2.file? p).map FileEntry.content

/-- Spellings of one path that led to the same file outside `T` from the start. -/
structure Disk.SameFile (start : Disk) (T : Place → Prop) (a b : String) : Prop where
  components : Path.components a = Path.components b
  entry : ∃ p e, start.entry a = .ok (p, e) ∧ start.entry b = .ok (p, e) ∧ ¬ T p

namespace World.Alike
variable {start : Disk} {T : Place → Prop} {w u : World} {a b : String}

lemma next (h : World.Alike start T w u) {x y : Access} (hxy : x.Same y) :
    World.Alike start T (w.1 ++ [x], w.2) (u.1 ++ [y], u.2) :=
  ⟨List.rel_append h.log (.cons hxy .nil), h.evolves, h.contents⟩

lemma readText (h : World.Alike start T w u) (hab : start.SameFile T a b) : w.2.readText a = u.2.readText b := by
  obtain ⟨p, e, ha, hb, hp⟩ := hab.entry
  obtain ⟨e₁, h₁⟩ := h.evolves.1.entry ha
  obtain ⟨e₂, h₂⟩ := h.evolves.2.entry hb
  have hcontent := h.contents p hp
  rw [(Disk.entry_eq_ok.1 h₁).2, (Disk.entry_eq_ok.1 h₂).2] at hcontent
  have hbytes : e₁.content = e₂.content := Option.some.inj hcontent
  rw [Disk.readText_of_entry h₁, Disk.readText_of_entry h₂, hbytes]

/-- The same bytes written under both spellings land in the same file. -/
lemma write (h : World.Alike start T w u) (hab : start.SameFile T a b) (now now' : FileTime) (bytes : ByteArray) :
    (w.2.write now a bytes).1 = (u.2.write now' b bytes).1 ∧
      World.Alike start T (w.1, (w.2.write now a bytes).2) (u.1, (u.2.write now' b bytes).2) := by
  obtain ⟨p, e, ha, hb, hp⟩ := hab.entry
  obtain ⟨e₁, h₁⟩ := h.evolves.1.entry ha
  obtain ⟨e₂, h₂⟩ := h.evolves.2.entry hb
  obtain ⟨d₁, hd₁, hset₁⟩ := Disk.write_of_entry h₁ now bytes
  obtain ⟨d₂, hd₂, hset₂⟩ := Disk.write_of_entry h₂ now' bytes
  rw [hd₁, hd₂]
  refine ⟨rfl, h.log, ⟨h.evolves.1.trans hset₁.evolves, h.evolves.2.trans hset₂.evolves⟩, fun q hq => ?_⟩
  dsimp only
  by_cases hqp : q = p
  · rw [hqp, hset₁.file, hset₂.file]
    rfl
  · rw [hset₁.others q hqp, hset₂.others q hqp]
    exact h.contents q hq

end World.Alike

/-- Access that fails as planned answers alike under all spellings. -/
theorem Coordinator.files_answerAlike {env env' : Circumstances} (hplan : env'.plan = env.plan)
    (hignores : env.plan.IgnoresSpelling) (start : Disk) (T : Place → Prop) :
    (files env).AnswerAlike (files env') (start.SameFile T) (World.Alike start T) := by
  refine ⟨fun a b w u hab hw => ?_, fun a b t w u hab hw => ?_⟩
  · have hsame : Access.Same (.read a) (.read b) := .read hab.components
    have hfault : env'.plan u.1 (.read b) = env.plan w.1 (.read a) := by
      rw [hplan]
      exact (hignores _ _ _ _ hw.log hsame).symm
    cases hf : env.plan w.1 (.read a) with
    | some fault =>
      rw [files_read_of_some hf, files_read_of_some (hfault.trans hf)]
      exact ⟨rfl, hw.next hsame⟩
    | none =>
      rw [files_read_of_none hf, files_read_of_none (hfault.trans hf)]
      exact ⟨hw.readText hab, hw.next hsame⟩
  · have hsame : Access.Same (.write a) (.write b) := .write hab.components
    have hfault : env'.plan u.1 (.write b) = env.plan w.1 (.write a) := by
      rw [hplan]
      exact (hignores _ _ _ _ hw.log hsame).symm
    cases hf : env.plan w.1 (.write a) with
    | some fault =>
      rw [files_write_of_some hf, files_write_of_some (hfault.trans hf)]
      cases fault.residue with
      | none => exact ⟨rfl, hw.next hsame⟩
      | some bytes =>
        have hleft := (hw.write hab env.now env'.now bytes).2.next hsame
        exact ⟨rfl, hleft⟩
    | none =>
      rw [files_write_of_none hf, files_write_of_none (hfault.trans hf)]
      obtain ⟨hresult, hwritten⟩ := hw.write hab env.now env'.now (encodeText t)
      have hnext := hwritten.next hsame
      exact ⟨hresult, hnext⟩

end World
namespace Coordinator
variable {c : Coordinator} {fixes fixes' : List Fix} {env env' : Circumstances} {options : Options} {w : World}

section Checked
variable {d : Disk} {T : Place → Prop}

lemma isSome_changeDefect? (root : String) (d : Disk) (ch : Change) :
    (Validation.changeDefect? root d ch).isSome = (isBlankString ch.filePath ||
      !Path.isWorkspaceRelative ch.filePath || !d.isFile (Path.join root ch.filePath) ||
      decide (ch.expected = ch.replacement)) := by
  unfold Validation.changeDefect?
  repeat' split
  all_goals simp_all

lemma changeDefect?_respelled {ch ch' : Change} (h : Change.Respelled root ch ch') (d : Disk) :
    (Validation.changeDefect? root d ch).isSome = (Validation.changeDefect? root d ch').isSome := by
  have hexpected : ch'.expected = ch.expected := by rw [h.edit]
  have hreplacement : ch'.replacement = ch.replacement := by rw [h.edit]
  rw [isSome_changeDefect?, isSome_changeDefect?, hexpected, hreplacement]
  rcases h.path with hpath | hpath
  · rw [hpath]
  · rw [hpath.blank, hpath.accepted.1, hpath.accepted.2, Disk.isFile_alike hpath.alike]

lemma changesDefect?_respelled {changes changes' : List Change}
    (h : List.Forall₂ (Change.Respelled root) changes changes') (d : Disk) (index : Nat) :
    (Validation.changesDefect? root d index changes).isSome =
      (Validation.changesDefect? root d index changes').isSome := by
  induction h generalizing index with
  | nil => rfl
  | @cons ch ch' rest rest' hch _ ih =>
    have hone := changeDefect?_respelled hch d
    rw [Validation.changesDefect?, Validation.changesDefect?]
    cases hd : Validation.changeDefect? root d ch with
    | none =>
      cases hd' : Validation.changeDefect? root d ch' with
      | none => exact ih _
      | some _ => simp [hd, hd'] at hone
    | some _ =>
      cases hd' : Validation.changeDefect? root d ch' with
      | none => simp [hd, hd'] at hone
      | some _ => rfl

lemma defect?_respelled {f f' : Fix} (h : Fix.Respelled root f f') (d : Disk) :
    (Validation.defect? root d f).isSome = (Validation.defect? root d f').isSome := by
  have hconfidence : f'.confidence = f.confidence := by rw [h.edit]
  have hchanges := changesDefect?_respelled h.changes d 0
  unfold Validation.defect?
  rw [isEmpty_respelled h.changes, hconfidence]
  grind

lemma checked_eq_map (c : Coordinator) (d : Disk) (fixes : List Fix) :
    c.checked d fixes = fixes.map fun f => (f, (Validation.defect? c.root d f).map (ValidationError.mk f.id)) := by
  refine List.map_congr_left fun f _ => ?_
  unfold Validation.check
  cases Validation.defect? c.root d f <;> rfl

/-- A change that can be tried leads to the same file under both spellings. -/
lemma sameFile_respelled {ch ch' : Change} (h : Change.Respelled root ch ch') (hT : ∀ p, T p → d.node? p = none)
    (hch : Path.isWorkspaceRelative ch.filePath = true ∧ d.isFile (Path.join root ch.filePath) = true) :
    Change.Matches root (d.SameFile T) ch ch' := by
  obtain ⟨p, e, he⟩ := Disk.isFile_iff.1 hch.2
  have hp : ¬ T p := Disk.not_of_file? hT (Disk.entry_eq_ok.1 he).2
  rcases h.path with hpath | hpath
  · exact ⟨h.edit, by rw [hpath]; exact ⟨hch.1, hch.1⟩, by rw [hpath], p, e, he, by rwa [hpath], hp⟩
  · exact ⟨h.edit, hpath.accepted, hpath.alike.components, p, e, he, (Disk.entry_alike hpath.alike p e).1 he, hp⟩

lemma sameFiles_respelled {changes changes' : List Change}
    (h : List.Forall₂ (Change.Respelled root) changes changes') (hT : ∀ p, T p → d.node? p = none)
    (hfiles : ∀ ch ∈ changes, Path.isWorkspaceRelative ch.filePath = true ∧
      d.isFile (Path.join root ch.filePath) = true) :
    List.Forall₂ (Change.Matches root (d.SameFile T)) changes changes' := by
  induction h with
  | nil => exact .nil
  | cons hch _ ih =>
    rw [List.forall_mem_cons] at hfiles
    exact .cons (sameFile_respelled hch hT hfiles.1) (ih hfiles.2)

theorem checked_matches (hfixes : List.Forall₂ (Fix.Respelled c.root) fixes fixes')
    (hT : ∀ p, T p → d.node? p = none) :
    List.Forall₂ (Fix.Matches c.root (d.SameFile T)) (c.checked d fixes) (c.checked d fixes') := by
  rw [checked_eq_map, checked_eq_map, List.forall₂_map_left_iff, List.forall₂_map_right_iff]
  refine hfixes.imp fun f f' hf => ⟨hf, by simp [defect?_respelled hf d], fun hnone => ?_⟩
  have hdefect : Validation.defect? c.root d f = none := by simpa using hnone
  have hok : Validation.check c.root d none f = .ok () := by simp [Validation.check, hdefect]
  exact sameFiles_respelled hf.changes hT (Validation.check_eq_ok hok).2

end Checked

section Call

/-- Two calls meet the same failures and get the same answers, which do not depend on how paths are spelled. -/
structure CircumstancesAlike (root : String) (env env' : Circumstances) : Prop where
  plan : env'.plan = env.plan
  consent : env'.consent = env.consent
  failures : env.plan.IgnoresSpelling
  answers : env.consent.IgnoresSpelling root

lemma approves_respelled (hfixers : ∀ fixer ∈ c.registry.fixers, fixer.IgnoresSpelling c.root) {f f' : Fix}
    (h : Fix.Respelled c.root f f') : c.approves f = c.approves f' := by
  have hprovider : f'.provider = f.provider := by rw [h.edit]
  unfold approves
  rw [hprovider]
  cases hget : c.registry.get? f.provider with
  | none => exact isWellFormed_respelled h
  | some fixer => exact hfixers fixer (List.mem_of_find?_eq_some hget) f f' h

lemma run_respelled (options : Options) (henv : CircumstancesAlike c.root env env')
    (hfixers : ∀ fixer ∈ c.registry.fixers, fixer.IgnoresSpelling c.root)
    (hfixes : List.Forall₂ (Fix.Respelled c.root) fixes fixes')
    (hspelled : (changePairs fixes fixes').Pairwise SpelledAlike) {T : Place → Prop}
    (hT : ∀ p, T p → w.2.node? p = none) {files : Files σ} {files' : Files τ} {R : σ → τ → Prop}
    (hfiles : files.AnswerAlike files' (w.2.SameFile T) R) {s : σ} {u : τ} (hs : R s u) :
    Batch.EndAlike c.root R [] (.start env.id (c.checked w.2 fixes).length)
      (.start env'.id (c.checked w.2 fixes').length) fixes fixes'
      ((c.batch env options files).run (c.checked w.2 fixes) (c.outset env (c.checked w.2 fixes) s))
      ((c.batch env' options files').run (c.checked w.2 fixes') (c.outset env' (c.checked w.2 fixes') u)) := by
  have hbatch : (c.batch env options files).Alike (c.batch env' options files') (w.2.SameFile T) R :=
    ⟨hfiles, rfl, rfl, henv.consent, henv.answers, fun _ _ => approves_respelled hfixers⟩
  have hasked : List.Forall₂ (Fix.Respelled c.root) c.asked c.asked :=
    List.forall₂_same.2 fun f _ => .refl c.root f
  have hstart : (c.outset env (c.checked w.2 fixes) s).Alike c.root R (changePairs fixes fixes')
      (c.outset env' (c.checked w.2 fixes') u) :=
    ⟨hs, fun x _ line _ => ⟨by simp [outset], by simp [outset, LineShifts.offset]⟩, hasked, rfl⟩
  have hrun := Batch.run_alike hbatch (checked_matches hfixes hT) (p := c.outset env (c.checked w.2 fixes) s)
    (q := c.outset env' (c.checked w.2 fixes') u)
  rw [map_fst_checked, map_fst_checked] at hrun
  exact hrun hspelled hstart

/-- The call came to its end, and its fixes had these fates. -/
def Applied.Reports (a : Applied) (id : String) (fixes : List Fix) (fates : List Fate) : Prop :=
  ∃ outcomes, outcomes.length = fixes.length ∧ outcomes.map Outcome.fate = fates ∧
    a.result = .ok (.ofOutcomes id (fixes.zip outcomes))

lemma complete_reports {env : Circumstances} {p : Progress World} {fates : List Fate} (t : Transaction)
    (h : (BatchResult.start env.id (c.checked w.2 fixes).length).Settles p.report fixes fates) :
    (c.complete t p).Reports env.id fixes fates := by
  obtain ⟨outcomes, hlength, hfates, hreport⟩ := h
  have htotal : (c.checked w.2 fixes).length = (fixes.zip outcomes).length := by
    rw [List.length_zip, hlength, min_self, checked, List.length_map]
  refine ⟨outcomes, hlength, hfates, congrArg Except.ok ?_⟩
  rw [hreport, htotal]
  exact BatchResult.finish_settleAll env.id _

/-- How a call ends, told from its run on the disk `d` on which its backups have been taken. -/
structure Ends (c : Coordinator) (env : Circumstances) (options : Options) (fixes : List Fix) (w : World)
    (d : Disk) : Prop where
  touches : Disk.Touches (c.store.Within env.id w.2) w.2 d
  completed : ∀ p fates, c.perform env options (c.checked w.2 fixes) (w.1, d) = (.ok (), p) →
    (BatchResult.start env.id (c.checked w.2 fixes).length).Settles p.report fixes fates →
    (c.apply env options fixes w).Reports env.id fixes fates ∧ (c.apply env options fixes w).world = p.state
  rolledBack : ∀ e p, c.perform env options (c.checked w.2 fixes) (w.1, d) = (.error e, p) →
    options.createBackup = true → (c.apply env options fixes w).result = .error (.rolledBack env.id p.written e) ∧
      ∀ q, ¬ c.store.Within env.id w.2 q → (c.apply env options fixes w).world.2.file? q = w.2.file? q
  unrecovered : ∀ e p, c.perform env options (c.checked w.2 fixes) (w.1, d) = (.error e, p) →
    options.createBackup = false → (c.apply env options fixes w).result = .error (.unrecovered env.id p.written e) ∧
      (c.apply env options fixes w).world = p.state

/-- Every real run whose backups can be taken ends in one of these ways. -/
theorem exists_ends (c : Coordinator) (env : Circumstances) (fixes : List Fix) (w : World)
    (hdry : options.dryRun = false)
    (hbackups : ∀ id e, (c.apply env options fixes w).result ≠ .error (.backup id e)) :
    ∃ d, c.Ends env options fixes w d := by
  have happly := c.apply_applies env options fixes w
  generalize ha : c.apply env options fixes w = a at happly hbackups
  cases happly with
  | bare hbare =>
    have hbackup : options.createBackup = false := hbare.resolve_right (by simp [hdry])
    refine ⟨w.2, .refl _ _, fun p fates hp hsettles => ?_, by simp [hbackup], fun e p hp _ => ?_⟩
    · rw [ha, execute_of_perform hdry (by rw [hp]), hp]
      exact ⟨complete_reports _ hsettles, rfl⟩
    · rw [ha, execute_of_error hdry hp]
      exact ⟨rfl, rfl⟩
  | @saved bs d hbackup _ hrun =>
    obtain ⟨hcovered, _⟩ := covered_of_takeBackups rfl hrun
    refine ⟨d, hcovered.kept.touches, fun p fates hp hsettles => ?_, fun e p hp _ => ?_, by simp [hbackup]⟩
    · rw [ha, execute_of_perform hdry (by rw [hp]), hp]
      exact ⟨complete_reports _ hsettles, rfl⟩
    · have habort : c.apply env options fixes w = c.abort env (transaction env fixes bs) e p := by
        rw [ha, execute_of_error hdry hp]
      rcases c.abort_result_cases env (transaction env fixes bs) e p with hresult | hresult
      · rw [← habort] at hresult
        exact absurd rfl ((apply_undone hbackup hdry hresult).1 _ _ _)
      · rw [← habort] at hresult
        exact ⟨hresult, (apply_undone hbackup hdry hresult).2.files⟩
  | unsaved => exact absurd rfl (hbackups _ _)

/-- The fixes at the same places had the same fates, or both calls were given up in the same way after the
same number of fixes. -/
def Applied.EndsLike (a : Applied) (id : String) (fixes : List Fix) (a' : Applied) (id' : String)
    (fixes' : List Fix) : Prop :=
  (∃ fates, a.Reports id fixes fates ∧ a'.Reports id' fixes' fates) ∨
    (∃ count e e', a.result = .error (.rolledBack id count e) ∧ a'.result = .error (.rolledBack id' count e')) ∨
    ∃ count e e', a.result = .error (.unrecovered id count e) ∧ a'.result = .error (.unrecovered id' count e')

section Respelled
variable {T : Place → Prop} (henv : CircumstancesAlike c.root env env')
  (hfixers : ∀ fixer ∈ c.registry.fixers, fixer.IgnoresSpelling c.root)
  (hfixes : List.Forall₂ (Fix.Respelled c.root) fixes fixes')
  (hspelled : (changePairs fixes fixes').Pairwise SpelledAlike) (hT : ∀ p, T p → w.2.node? p = none)
include henv hfixers hfixes hspelled hT

lemma dryRun_respelled (hdry : options.dryRun = true) :
    (c.apply env options fixes w).EndsLike env.id fixes (c.apply env' options fixes' w) env'.id fixes' ∧
      World.Alike w.2 T (c.apply env options fixes w).world (c.apply env' options fixes' w).world := by
  have hstart : World.Alike w.2 T w w :=
    ⟨Access.same_refl w.1, ⟨.refl _, .refl _⟩, fun _ _ => rfl⟩
  have hfiles := (files_answerAlike henv.plan henv.failures w.2 T).layered fun _ _ h => h.components
  have hrun := run_respelled options henv hfixers hfixes hspelled hT hfiles (s := ([], w)) (u := ([], w)) ⟨rfl, hstart⟩
  rw [← rehearse, ← rehearse] at hrun
  obtain ⟨fates, hsettles, hsettles'⟩ := hrun.fates (c.rehearse_ok env hdry _ w)
  rw [apply_of_dryRun c env fixes w hdry, apply_of_dryRun c env' fixes' w hdry, execute_of_dryRun hdry,
    execute_of_dryRun hdry]
  exact ⟨.inl ⟨fates, complete_reports _ hsettles, complete_reports _ hsettles'⟩,
    hrun.progress.state.2⟩

lemma realRun_respelled (hdry : options.dryRun = false) (hwithin : ∀ p, c.store.Within env.id w.2 p → T p)
    (hwithin' : ∀ p, c.store.Within env'.id w.2 p → T p)
    (hbackups : ∀ id e, (c.apply env options fixes w).result ≠ .error (.backup id e))
    (hbackups' : ∀ id e, (c.apply env' options fixes' w).result ≠ .error (.backup id e)) :
    (c.apply env options fixes w).EndsLike env.id fixes (c.apply env' options fixes' w) env'.id fixes' ∧
      ∀ p, ¬ T p → ((c.apply env options fixes w).world.2.file? p).map FileEntry.content =
        ((c.apply env' options fixes' w).world.2.file? p).map FileEntry.content := by
  obtain ⟨d, hends⟩ := c.exists_ends env fixes w hdry hbackups
  obtain ⟨d', hends'⟩ := c.exists_ends env' fixes' w hdry hbackups'
  have hstart : World.Alike w.2 T (w.1, d) (w.1, d') := by
    refine ⟨Access.same_refl w.1, ⟨hends.touches.evolves, hends'.touches.evolves⟩, fun p hp => ?_⟩
    rw [hends.touches.others p fun h => hp (hwithin p h), hends'.touches.others p fun h => hp (hwithin' p h)]
  have hrun := run_respelled options henv hfixers hfixes hspelled hT
    (files_answerAlike henv.plan henv.failures w.2 T) hstart
  rw [← perform, ← perform] at hrun
  rcases hp : c.perform env options (c.checked w.2 fixes) (w.1, d) with ⟨r, p⟩
  rcases hq : c.perform env' options (c.checked w.2 fixes') (w.1, d') with ⟨r', q⟩
  rw [hp, hq] at hrun
  obtain ⟨hresult, hprogress, hfates⟩ := hrun
  cases r with
  | ok _ =>
    cases r' with
    | error e' => cases hresult
    | ok _ =>
      obtain ⟨fates, hsettles, hsettles'⟩ := hfates rfl
      obtain ⟨hreports, hworld⟩ := hends.completed p fates hp hsettles
      obtain ⟨hreports', hworld'⟩ := hends'.completed q fates hq hsettles'
      rw [hworld, hworld']
      exact ⟨.inl ⟨fates, hreports, hreports'⟩, hprogress.state.contents⟩
  | error e =>
    cases r' with
    | ok _ => cases hresult
    | error e' =>
      cases hbackup : options.createBackup with
      | true =>
        obtain ⟨hback, hsame⟩ := hends.rolledBack e p hp hbackup
        obtain ⟨hback', hsame'⟩ := hends'.rolledBack e' q hq hbackup
        refine ⟨.inr (.inl ⟨p.written, e, e', hback, ?_⟩), fun x hx => ?_⟩
        · rw [hprogress.written]
          exact hback'
        · rw [hsame x fun h => hx (hwithin x h), hsame' x fun h => hx (hwithin' x h)]
      | false =>
        obtain ⟨hlost, hworld⟩ := hends.unrecovered e p hp hbackup
        obtain ⟨hlost', hworld'⟩ := hends'.unrecovered e' q hq hbackup
        rw [hworld, hworld']
        refine ⟨.inr (.inr ⟨p.written, e, e', hlost, ?_⟩), hprogress.state.contents⟩
        rw [hprogress.written]
        exact hlost'

end Respelled

/-- The spelling of paths does not matter, as long as line shifts that matter are found under both spellings.
Of two batches that differ in the spelling of paths alone, the fixes at the same places are applied, failed
and skipped, or both batches are given up in the same way, and all files outside the directories of the two
transactions hold the same in the end. -/
theorem apply_respelled (c : Coordinator) (env env' : Circumstances) (options : Options) (fixes fixes' : List Fix)
    (w : World) (hfixes : List.Forall₂ (Fix.Respelled c.root) fixes fixes')
    (hspelled : (changePairs fixes fixes').Pairwise SpelledAlike) (henv : CircumstancesAlike c.root env env')
    (hfixers : ∀ fixer ∈ c.registry.fixers, fixer.IgnoresSpelling c.root)
    (hfresh : ∀ p, w.2.placeOf (c.store.transactionDir env.id) <+: p → w.2.node? p = none)
    (hfresh' : ∀ p, w.2.placeOf (c.store.transactionDir env'.id) <+: p → w.2.node? p = none)
    (hbackups : ∀ id e, (c.apply env options fixes w).result ≠ .error (.backup id e))
    (hbackups' : ∀ id e, (c.apply env' options fixes' w).result ≠ .error (.backup id e)) :
    (c.apply env options fixes w).EndsLike env.id fixes (c.apply env' options fixes' w) env'.id fixes' ∧
    ∀ p, ¬ w.2.placeOf (c.store.transactionDir env.id) <+: p → ¬ w.2.placeOf (c.store.transactionDir env'.id) <+: p →
      ((c.apply env options fixes w).world.2.file? p).map FileEntry.content =
        ((c.apply env' options fixes' w).world.2.file? p).map FileEntry.content := by
  have hT : ∀ p, c.store.Within env.id w.2 p ∨ c.store.Within env'.id w.2 p → w.2.node? p = none :=
    fun p hp => hp.elim (hfresh p) (hfresh' p)
  cases hdry : options.dryRun with
  | true =>
    obtain ⟨hends, halike⟩ := dryRun_respelled henv hfixers hfixes hspelled hT hdry
    exact ⟨hends, fun p hp hp' => halike.contents p (not_or.2 ⟨hp, hp'⟩)⟩
  | false =>
    obtain ⟨hends, hcontents⟩ := realRun_respelled henv hfixers hfixes hspelled hT hdry (fun p => .inl)
      (fun p => .inr) hbackups hbackups'
    exact ⟨hends, fun p hp hp' => hcontents p (not_or.2 ⟨hp, hp'⟩)⟩

end Call

namespace Specimen

def twoLines : World :=
  ([], { nodes := [(["ws".toList], .directory),
    (["ws".toList, "a.ts".toList], .file ⟨encodeText "a\nb\n".toList, Disk.permissionsOf 0o600, .ofParts 5 0⟩)] })

/-- A parser that knows the file, two names that stand alone. -/
def twoNames : Parser :=
  let name (start : Nat) : SyntaxNode :=
    { kind := "expression_statement", start, stop := start + 1
      children := [{ kind := "identifier", start, stop := start + 1 }] }
  Autofix.Specimen.parserOf "a\nb\n".toList (Autofix.Specimen.treeOf "program" "a\nb\n".toList [name 0, name 2])

def equipped : Coordinator := { coordinator with registry := .ofFixers (Registry.builtin twoNames) }

/-- A fix that puts a line in below the first, and one of the line after it, each with a spelling of the path. -/
def grown (first second : String) : List Fix :=
  [⟨"1", "i", "", [⟨first, "a", "a\nx", some 1, some 1, none, none⟩], .hundredths 90, .low, "naming"⟩,
    ⟨"2", "i", "", [⟨second, "b", "c", some 2, some 2, none, none⟩], .hundredths 90, .low, "naming"⟩]

lemma fresh_twoLines (p : Place) (h : twoLines.2.placeOf (equipped.store.transactionDir calm.id) <+: p) :
    twoLines.2.node? p = none := by
  have hplace : twoLines.2.placeOf (equipped.store.transactionDir calm.id) =
      ["ws".toList, "backups".toList, calm.id.toList] := by decide +kernel
  rw [hplace] at h
  obtain ⟨q, rfl⟩ := h
  simp [Disk.node?, twoLines, Assoc.get?]

lemma respells : Path.Respells "/ws" "a.ts" "./a.ts" :=
  ⟨by decide +kernel, ⟨by decide +kernel, by decide +kernel, by decide +kernel⟩, by decide +kernel⟩

lemma respelled_grown {first second : String} (hfirst : first = "a.ts" ∨ Path.Respells "/ws" "a.ts" first)
    (hsecond : second = "a.ts" ∨ Path.Respells "/ws" "a.ts" second) :
    List.Forall₂ (Fix.Respelled "/ws") (grown "a.ts" "a.ts") (grown first second) :=
  .cons ⟨rfl, .cons ⟨rfl, hfirst⟩ .nil⟩ (.cons ⟨rfl, .cons ⟨rfl, hsecond⟩ .nil⟩ .nil)

/-- The fixes applied and failed of a batch that is run without backups, and what the file holds then. -/
def tried (first second : String) : Except BatchError (List String × List String) × Except IoError Text :=
  let a := equipped.apply calm { createBackup := false } (grown first second) twoLines
  (ids a, a.world.2.readText "/ws/a.ts")

lemma backups_of_tried {first second : String} {lists : List String × List String}
    (h : (tried first second).1 = .ok lists) (id : String) (e : SnapshotError) :
    (equipped.apply calm { createBackup := false } (grown first second) twoLines).result ≠ .error (.backup id e) := by
  intro he
  rw [tried, ids, he] at h
  cases h

end Specimen

theorem apply_respelled_two_lines :
    Specimen.tried "a.ts" "a.ts" = (.ok (["1", "2"], []), .ok "a\nx\nc\n".toList) ∧
    Specimen.tried "./a.ts" "./a.ts" = (.ok (["1", "2"], []), .ok "a\nx\nc\n".toList) ∧
    (Specimen.equipped.apply Specimen.calm { createBackup := false } (Specimen.grown "a.ts" "a.ts")
        Specimen.twoLines).EndsLike Specimen.calm.id (Specimen.grown "a.ts" "a.ts")
      (Specimen.equipped.apply Specimen.calm { createBackup := false } (Specimen.grown "./a.ts" "./a.ts")
        Specimen.twoLines) Specimen.calm.id (Specimen.grown "./a.ts" "./a.ts") := by
  have hplain : Specimen.tried "a.ts" "a.ts" = (.ok (["1", "2"], []), .ok "a\nx\nc\n".toList) := by decide +kernel
  have hdotted : Specimen.tried "./a.ts" "./a.ts" = (.ok (["1", "2"], []), .ok "a\nx\nc\n".toList) := by
    decide +kernel
  have hall := apply_respelled Specimen.equipped Specimen.calm Specimen.calm { createBackup := false } _ _
    Specimen.twoLines (Specimen.respelled_grown (.inr Specimen.respells) (.inr Specimen.respells)) (by decide +kernel)
    ⟨rfl, rfl, fun _ _ _ _ _ _ => rfl, fun _ _ _ _ _ _ => rfl⟩ (Registry.builtin_ignoresSpelling _ "/ws")
    Specimen.fresh_twoLines Specimen.fresh_twoLines (Specimen.backups_of_tried (congrArg Prod.fst hplain))
    (Specimen.backups_of_tried (congrArg Prod.fst hdotted))
  exact ⟨hplain, hdotted, hall.1⟩

/-- Line shifts are kept by the path as it is written. If the path of the second fix alone is spelled in
another way, the line that the first fix has put in does not count, and the second fix is taken for stale. -/
theorem respelling_hides_line_shift :
    List.Forall₂ (Fix.Respelled "/ws") (Specimen.grown "a.ts" "a.ts") (Specimen.grown "a.ts" "./a.ts") ∧
    Specimen.tried "a.ts" "a.ts" = (.ok (["1", "2"], []), .ok "a\nx\nc\n".toList) ∧
    Specimen.tried "a.ts" "./a.ts" = (.ok (["1"], ["2"]), .ok "a\nx\nb\n".toList) :=
  ⟨Specimen.respelled_grown (.inl rfl) (.inr Specimen.respells), by decide +kernel, by decide +kernel⟩

end Coordinator
end Autofix
