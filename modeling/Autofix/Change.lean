import Autofix.Json.Codec
import Autofix.Path

/-! Changes: edits of one file, each a text that is expected there and the text that replaces it. -/
namespace Autofix

/-- An edit of one file. A change that expects no text replaces the whole file. -/
structure Change where
  filePath : String
  /-- The text that is replaced where it first occurs. -/
  expected : String
  replacement : String
  startLine : Option Nat := none
  endLine : Option Nat := none
  startColumn : Option Nat := none
  endColumn : Option Nat := none
deriving DecidableEq, Repr

namespace Change

/-- A change without lines; its path is written with slashes. -/
def replace (path expected replacement : String) : Change :=
  { filePath := Path.normalize path, expected, replacement }

def wholeFile (path replacement : String) : Change := replace path "" replacement

def withLines (c : Change) (startLine endLine : Nat) : Change :=
  { c with startLine := some startLine, endLine := some endLine }

def isWholeFile (c : Change) : Bool := c.expected.isEmpty

structure Draft where
  filePath : Option String := none
  expected : Option String := none
  replacement : Option String := none
  startLine : Option (Option Nat) := none
  endLine : Option (Option Nat) := none
  startColumn : Option (Option Nat) := none
  endColumn : Option (Option Nat) := none

def place : Json.Codec (Option Nat) := .optional (.natural Json.maxWord)

def slots : List (Json.Slot Draft) :=
  [.of ["file_path"] Draft.filePath (fun d v => { d with filePath := v }) true .string,
    .of ["original"] Draft.expected (fun d v => { d with expected := v }) true .string,
    .of ["modified"] Draft.replacement (fun d v => { d with replacement := v }) true .string,
    .of ["start_line"] Draft.startLine (fun d v => { d with startLine := v }) false place,
    .of ["end_line"] Draft.endLine (fun d v => { d with endLine := v }) false place,
    .of ["start_column"] Draft.startColumn (fun d v => { d with startColumn := v }) false place,
    .of ["end_column"] Draft.endColumn (fun d v => { d with endColumn := v }) false place]

def Draft.finish? (d : Draft) : Option Change := do
  return { filePath := ← d.filePath, expected := ← d.expected, replacement := ← d.replacement
           startLine := d.startLine.getD none, endLine := d.endLine.getD none
           startColumn := d.startColumn.getD none, endColumn := d.endColumn.getD none }

def codec : Json.Codec Change := .record slots {} Draft.finish?

def parse (text : String) : Except Json.Fault Change := Json.readAll codec.read text.toList

def toJson (c : Change) : Json :=
  .object <| [("file_path", .string c.filePath), ("original", .string c.expected),
      ("modified", .string c.replacement)] ++
    Json.field? "start_line" (c.startLine.map .natural) ++
    Json.field? "end_line" (c.endLine.map .natural) ++
    Json.field? "start_column" (c.startColumn.map .natural) ++
    Json.field? "end_column" (c.endColumn.map .natural)

end Change
end Autofix
