import Autofix.Apply.Error
import Autofix.Snapshot.Error
import Autofix.Validation

/-! What becomes of a batch of fixes. -/
namespace Autofix

inductive Failure
  | rejected (source : ValidationError)
  | notApplied (source : ApplyError)
  /-- The fixer did not approve of the fix after it had been applied. -/
  | disapproved (fixer : String)
deriving DecidableEq, Repr

def Failure.message : Failure → String
  | rejected source => source.message
  | notApplied source => source.message
  | disapproved fixer => s!"provider {fixer} rejected the applied fix"

inductive Outcome
  | applied
  | failed (failure : Failure)
  | skipped
deriving DecidableEq, Repr

structure FailureNote where
  fixId : String
  message : String
deriving DecidableEq, Repr

structure Summary where
  total : Nat := 0
  successful : Nat := 0
  failed : Nat := 0
  skipped : Nat := 0
  rolledBack : Nat := 0
deriving DecidableEq, Repr

/-- The report on a batch that was not given up. -/
structure BatchResult where
  success : Bool
  transactionId : String
  applied : List Fix
  failed : List Fix
  skipped : List Fix
  errors : List FailureNote
  summary : Summary
deriving DecidableEq, Repr

namespace BatchResult

/-- The report on a batch of which no fix has been tried. -/
def start (transactionId : String) (total : Nat) : BatchResult :=
  { success := true, transactionId, applied := [], failed := [], skipped := [], errors := [], summary := { total } }

/-- The report with the outcome of one more fix. -/
def settle (r : BatchResult) (f : Fix) : Outcome → BatchResult
  | .applied =>
      { r with applied := r.applied ++ [f], summary := { r.summary with successful := r.summary.successful + 1 } }
  | .failed failure =>
      { r with
        failed := r.failed ++ [f], errors := r.errors ++ [⟨f.id, failure.message⟩]
        summary := { r.summary with failed := r.summary.failed + 1 } }
  | .skipped => { r with skipped := r.skipped ++ [f], summary := { r.summary with skipped := r.summary.skipped + 1 } }

/-- The report on a batch that has come to its end. -/
def finish (r : BatchResult) : BatchResult := { r with success := r.failed.isEmpty }

end BatchResult

inductive BatchError
  | backup (transactionId : String) (source : SnapshotError)
  | rolledBack (transactionId : String) (count : Nat) (source : ApplyError)
  | unrecovered (transactionId : String) (count : Nat) (source : ApplyError)
deriving DecidableEq, Repr

namespace BatchError

def transactionId : BatchError → String
  | backup id _ => id
  | rolledBack id _ _ => id
  | unrecovered id _ _ => id

def message : BatchError → String
  | backup id source => s!"transaction {id} aborted before any write: " ++ source.message
  | rolledBack id count source => s!"transaction {id} rolled back after {count} applied fixes: " ++ source.message
  | unrecovered id count source =>
      s!"transaction {id} failed with no backups to restore; {count} fixes remain applied: " ++ source.message

/-- The wording of what led to the error, the nearest cause first. -/
def causes : BatchError → List String
  | backup _ source => source.message :: chain source.source?
  | rolledBack _ _ source => source.message :: chain source.source?
  | unrecovered _ _ source => source.message :: chain source.source?
where
  chain : Option IoError → List String
    | some e => e.text :: e.causes
    | none => []

end BatchError
end Autofix
