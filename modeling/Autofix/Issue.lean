import Autofix.Json.Codec
import Autofix.Level
import Autofix.Path

/-! Issues: located findings that a fix may be made for. -/
namespace Autofix

structure Issue where
  id : String
  type : String
  severity : Severity
  filePath : String
  line : Option Nat
  description : String
  autoFix : Bool
deriving DecidableEq, Repr

namespace Issue

/-- An issue with an automatic fix and neither line nor description; its path is written with
slashes. -/
def create (id type : String) (severity : Severity) (path : String) : Issue :=
  ⟨id, type, severity, Path.normalize path, none, "", true⟩

structure Draft where
  id : Option String := none
  type : Option String := none
  severity : Option Severity := none
  filePath : Option String := none
  line : Option (Option Nat) := none
  description : Option String := none
  autoFix : Option Bool := none

def slots : List (Json.Slot Draft) :=
  [.of ["id"] Draft.id (fun d v => { d with id := v }) true .string,
    .of ["type"] Draft.type (fun d v => { d with type := v }) true .string,
    .of ["severity"] Draft.severity (fun d v => { d with severity := v }) true
      (.choice Severity.table),
    .of ["file_path", "file", "filePath"] Draft.filePath (fun d v => { d with filePath := v }) true
      .string,
    .of ["line"] Draft.line (fun d v => { d with line := v }) false (.optional (.natural Json.maxWord)),
    .of ["description"] Draft.description (fun d v => { d with description := v }) false .string,
    .of ["auto_fix_available", "autoFixAvailable"] Draft.autoFix (fun d v => { d with autoFix := v })
      false .bool]

/-- The issue of a draft: without line, description and automatic fix unless they were read. -/
def Draft.finish? (d : Draft) : Option Issue := do
  return { id := ← d.id, type := ← d.type, severity := ← d.severity, filePath := ← d.filePath
           line := d.line.getD none, description := d.description.getD "", autoFix := d.autoFix.getD false }

def codec : Json.Codec Issue := .record slots {} Draft.finish?

def parse (text : String) : Except Json.Fault Issue := Json.readAll codec.read text.toList

def toJson (i : Issue) : Json :=
  .object <| [("id", .string i.id), ("type", .string i.type), ("severity", .string i.severity.name),
      ("file_path", .string i.filePath)] ++ Json.field? "line" (i.line.map .natural) ++
    [("description", .string i.description), ("auto_fix_available", .bool i.autoFix)]

/-- Issues, as an array or as the field `issues` of an object. -/
def listOfJson? : Json → Option (List Issue)
  | .array items => (Json.Codec.list codec).ofValue? (.array items)
  | .object fields =>
      (Json.Codec.record
        [.of ["issues"] (fun d => d) (fun _ v => v) true (Json.Codec.list codec)] none
        fun d => d).ofValue? (.object fields)
  | _ => none

/-- The issues of an issues file, their paths written with slashes. -/
def parseFile? (text : String) : Option (List Issue) := do
  let value ← (Json.parse text).toOption
  let issues ← listOfJson? value
  return issues.map fun i => { i with filePath := Path.normalize i.filePath }

end Issue
end Autofix
