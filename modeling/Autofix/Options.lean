import Autofix.Fix

/-! Options: which fixes are wanted, and how they are applied. -/
namespace Autofix

structure Options where
  /-- Nothing is written. -/
  dryRun : Bool := false
  /-- Each fix needs a consent. -/
  interactive : Bool := false
  /-- The fixers that may contribute; none named means all. -/
  categories : List String := []
  maxRisk : Risk := .medium
  minConfidence : Confidence := .hundredths 70
  createBackup : Bool := true
  /-- A fixer judges its fix again after it has been applied. -/
  validateAfterFix : Bool := true
deriving DecidableEq, Repr

def Options.wants (o : Options) (f : Fix) : Bool :=
  f.risk.rank ≤ o.maxRisk.rank && !f.confidence.lt o.minConfidence &&
    (o.categories.isEmpty || o.categories.contains f.provider)

end Autofix
