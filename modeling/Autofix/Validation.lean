import Autofix.Disk
import Autofix.Fixer.Basic

/-! Validation: what is wrong with a fix before it is applied. -/
namespace Autofix

inductive ChangeDefect
  | emptyPath
  | outsideWorkspace (path : String)
  | missingFile (path : String)
  | noEffect (path : String)
deriving DecidableEq, Repr

inductive FixDefect
  | noChanges
  | confidenceOutOfRange (confidence : Confidence)
  | change (index : Nat) (defect : ChangeDefect)
  | rejected (fixer : String)
deriving DecidableEq, Repr

structure ValidationError where
  fixId : String
  defect : FixDefect
deriving DecidableEq, Repr

def ValidationError.message (e : ValidationError) : String :=
  match e.defect with
  | .noChanges => s!"fix {e.fixId} has no changes"
  | .confidenceOutOfRange c => s!"fix {e.fixId} has confidence {c.text} outside 0.0..=1.0"
  | .rejected fixer => s!"provider {fixer} rejected fix {e.fixId}"
  | .change index defect =>
      s!"change {index} of fix {e.fixId} " ++
        match defect with
        | .emptyPath => "has an empty file path"
        | .outsideWorkspace path => s!"points outside the workspace: {path}"
        | .missingFile path => s!"references missing file {path}"
        | .noEffect path => s!"does not alter {path}"

namespace Validation

def changeDefect? (root : String) (d : Disk) (c : Change) : Option ChangeDefect :=
  if isBlankString c.filePath then some .emptyPath
  else if !Path.isWorkspaceRelative c.filePath then some (.outsideWorkspace c.filePath)
  else if !d.isFile (Path.join root c.filePath) then some (.missingFile c.filePath)
  else if c.expected = c.replacement then some (.noEffect c.filePath)
  else none

def changesDefect? (root : String) (d : Disk) (index : Nat) : List Change → Option FixDefect
  | [] => none
  | c :: rest =>
      match changeDefect? root d c with
      | some defect => some (.change index defect)
      | none => changesDefect? root d (index + 1) rest

def defect? (root : String) (d : Disk) (f : Fix) : Option FixDefect :=
  if f.changes.isEmpty then some .noChanges
  else if !f.confidence.inRange then some (.confidenceOutOfRange f.confidence)
  else changesDefect? root d 0 f.changes

/-- The first defect of a fix; the judgement of its fixer, if there is one, comes last. -/
def check (root : String) (d : Disk) (fixer : Option Fixer) (f : Fix) : Except ValidationError Unit :=
  match defect? root d f with
  | some defect => .error ⟨f.id, defect⟩
  | none =>
      match fixer with
      | some fixer => if fixer.accepts f then .ok () else .error ⟨f.id, .rejected fixer.name⟩
      | none => .ok ()

end Validation
end Autofix
