import Autofix.Change
import Autofix.Confidence
import Autofix.Hash.Blake3
import Autofix.Level
import Autofix.Text.Blank

/-! Fixes: lists of changes that one fixer makes for one issue. -/
namespace Autofix

/-- A remedy for an issue, made by the fixer that `provider` names. -/
structure Fix where
  id : String
  issueId : String
  description : String
  changes : List Change
  confidence : Confidence
  risk : Risk
  provider : String
deriving DecidableEq, Repr

namespace Fix

/-- A change as it enters an id: path, expected text and replacement with marks between them. -/
def changeStamp (c : Change) : Text :=
  '\n' :: (Path.normalize c.filePath).toList ++ '\x00' :: c.expected.toList ++
    '\x00' :: c.replacement.toList

/-- All that an id depends on, as one text. -/
def stamp (provider issueId : String) (changes : List Change) : Text :=
  provider.toList ++ '\n' :: issueId.toList ++ changes.flatMap changeStamp

def textBytes (t : Text) : List UInt8 := (String.ofList t).toUTF8.toList

def hexadecimal (bytes : List UInt8) : Text :=
  bytes.flatMap fun b => [Json.hexDigit (b.toNat / 16), Json.hexDigit (b.toNat % 16)]

/-- The id of a fix, which depends on its fixer, its issue and its edits alone. -/
def stableId (provider issueId : String) (changes : List Change) : String :=
  let hash := Blake3.hash (textBytes (stamp provider issueId changes))
  String.ofList ("fix_".toList ++ (hexadecimal hash).take 16)

def create (provider issueId description : String) (changes : List Change)
    (confidence : Confidence) (risk : Risk) : Fix :=
  ⟨stableId provider issueId changes, issueId, description, changes, confidence, risk, provider⟩

/-- The paths that the changes name, each where it comes first. -/
def touchedFiles (f : Fix) : List String := (f.changes.map Change.filePath).eraseDups

/-- Has the fix changes, each with a path and a replacement that differs from what it replaces? -/
def isWellFormed (f : Fix) : Bool :=
  !f.changes.isEmpty && f.changes.all fun c => !isBlankString c.filePath && c.expected != c.replacement

/-- The fix as a JSON value; a confidence that is not finite is `null`. -/
def toJson (f : Fix) : Json :=
  .object [("id", .string f.id), ("issue_id", .string f.issueId), ("description", .string f.description),
    ("changes", .array (f.changes.map Change.toJson)),
    ("confidence", Json.orNull (f.confidence.literal?.map .number)), ("risk", .string f.risk.name),
    ("provider", .string f.provider)]

end Fix
end Autofix
