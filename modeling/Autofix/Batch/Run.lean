import Autofix.Apply.Changes
import Autofix.Batch.Result
import Autofix.Options

/-! Running a batch: the fixes are tried one after another, and a failure that is bound to strike again
ends the run. -/
namespace Autofix

/-- Says, from the fixes that it was asked about before, whether a fix may be applied. -/
abbrev Consent := List Fix → Fix → Bool

structure Batch (σ : Type) where
  files : Files σ
  root : String
  options : Options
  consent : Consent
  approves : Fix → Bool

structure Progress (σ : Type) where
  state : σ
  shifts : LineShifts := {}
  asked : List Fix := []
  /-- The number of fixes all of whose changes were made. -/
  written : Nat := 0
  /-- The report on the fixes that are done with. -/
  report : BatchResult

def Progress.settle (p : Progress σ) (f : Fix) (o : Outcome) : Progress σ :=
  { p with report := p.report.settle f o }

namespace Batch

/-- Must the batch be given up after an error? Nothing is at stake in a dry run. -/
def givesUp (b : Batch σ) (e : ApplyError) : Bool := e.isCatastrophic && !b.options.dryRun

/-- The outcome of a fix whose changes have all been made. -/
def verdict (b : Batch σ) (f : Fix) : Outcome :=
  if b.options.validateAfterFix && !b.approves f then .failed (.disapproved f.provider) else .applied

/-- A fix is tried. The changes made before one that fails stay, and so do the shifts that they caused. -/
def attempt (b : Batch σ) (p : Progress σ) (f : Fix) : Except ApplyError Unit × Progress σ :=
  match f.apply b.files b.root p.shifts p.state with
  | (.ok (), shifts, state) =>
      let p := { p with shifts, state, written := p.written + 1 }
      (.ok (), p.settle f (b.verdict f))
  | (.error e, shifts, state) =>
      let p := { p with shifts, state }
      if b.givesUp e then (.error e, p) else (.ok (), p.settle f (.failed (.notApplied e)))

/-- A fix is tried if consent is given. The question is remembered whatever the answer is. -/
def attemptWithConsent (b : Batch σ) (p : Progress σ) (f : Fix) : Except ApplyError Unit × Progress σ :=
  let given := b.consent p.asked f
  let p := { p with asked := p.asked ++ [f] }
  if given then b.attempt p f else (.ok (), p.settle f .skipped)

def step (b : Batch σ) (p : Progress σ) : Fix × Option ValidationError → Except ApplyError Unit × Progress σ
  | (f, some e) => (.ok (), p.settle f (.failed (.rejected e)))
  | (f, none) => if b.options.interactive then b.attemptWithConsent p f else b.attempt p f

/-- The fixes of the batch in order, up to an error that ends it. -/
def run (b : Batch σ) :
    List (Fix × Option ValidationError) → Progress σ → Except ApplyError Unit × Progress σ
  | [], p => (.ok (), p)
  | checked :: rest, p =>
      match b.step p checked with
      | (.ok (), p) => run b rest p
      | failed => failed

end Batch
end Autofix
