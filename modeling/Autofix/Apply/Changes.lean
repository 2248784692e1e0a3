import Autofix.Apply.Error
import Autofix.Apply.Files
import Autofix.Apply.Shift
import Autofix.Fix

/-! Applying changes to files: each file is read again before each change, and nothing is written when
the text that the change expects is gone or stands on another line. -/
namespace Autofix

@[irreducible] def resolve (root path : String) : Except ApplyError String :=
  if Path.isWorkspaceRelative path then .ok (Path.join root path) else .error (.outsideWorkspace path)

/-- One change applied to its file. A change that is not written moves no lines. -/
def applyChange (files : Files σ) (root : String) (c : Change) (shifts : LineShifts) (s : σ) :
    Except ApplyError Unit × LineShifts × σ :=
  match resolve root c.filePath with
  | .error e => (.error e, shifts, s)
  | .ok path =>
      match files.read path s with
      | (.error source, s) => (.error (.ofRead c.filePath source), shifts, s)
      | (.ok current, s) =>
          match c.substitute? (shifts.expectedLine? c) current with
          | none => (.error (.stale c.filePath), shifts, s)
          | some updated =>
              match files.write path updated s with
              | (.error source, s) => (.error (.write c.filePath source), shifts, s)
              | (.ok (), s) => (.ok (), shifts.record c, s)

/-- Changes applied in order up to the first failure; what was written before it stays. -/
def applyChanges (files : Files σ) (root : String) :
    List Change → LineShifts → σ → Except ApplyError Unit × LineShifts × σ
  | [], shifts, s => (.ok (), shifts, s)
  | c :: rest, shifts, s =>
      match applyChange files root c shifts s with
      | (.ok (), shifts, s) => applyChanges files root rest shifts s
      | failed => failed

def Fix.apply (files : Files σ) (root : String) (f : Fix) (shifts : LineShifts) (s : σ) :
    Except ApplyError Unit × LineShifts × σ :=
  applyChanges files root f.changes shifts s

end Autofix
