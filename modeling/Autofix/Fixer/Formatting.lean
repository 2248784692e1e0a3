import Autofix.Edit.Anchor
import Autofix.Fixer.Basic

/-! The formatting fixer: blanks at the ends of lines, tabs in indentations, and the last line end. -/
namespace Autofix.Formatting

def trailingWhitespace : String := "trailing-whitespace"

def missingFinalNewline : String := "missing-final-newline"

def mixedIndentation : String := "mixed-indentation"

def lineBody (line : Text) : Text :=
  if line.getLast? = some '\r' then line.dropLast else line

/-- The edit that removes blanks and tabs at the end of a line, if there are any. -/
def trimLine? (line : Text) (start : Nat) : Option Edit :=
  let body := lineBody line
  let kept := Text.trimEndWhile (fun c => c == ' ' || c == '\t') body
  if kept.length < body.length then some ⟨start + kept.length, start + body.length, []⟩ else none

def expandTabs (indentation : Text) : Text :=
  indentation.flatMap fun c => if c == '\t' then [' ', ' ', ' ', ' '] else [c]

def expandLine? (line : Text) (start : Nat) : Option Edit :=
  let indentation := Text.indentation line
  if indentation.contains '\t' then some ⟨start, start + indentation.length, expandTabs indentation⟩ else none

def editsFrom (edit? : Text → Nat → Option Edit) : Nat → List Text → List Edit
  | _, [] => []
  | start, line :: lines => (edit? line start).toList ++ editsFrom edit? (start + line.length + 1) lines

/-- The edits of one line if it is given, else of all lines from the last to the first, so that each
leaves the places of those that follow alone. -/
def lineEdits (t : Text) (line : Option Nat) (edit? : Text → Nat → Option Edit) : List Edit :=
  match line with
  | some line =>
      (do let (start, stop) ← Text.lineRange? t line
          edit? (Text.slice t start stop) start).toList
  | none => (editsFrom edit? 0 (Text.lines t)).reverse

def name : String := "formatting"

/-- A fix that makes some edits, if there are any. -/
def build? (r : FixRequest) (description : String) (edits : List Edit) (hundredths : Nat) : Option Fix :=
  if edits.isEmpty then none
  else some (Fix.create name r.issue.id description (edits.map (Edit.toChange r.issue.filePath r.content))
    (.hundredths hundredths) .low)

/-- The fix for an issue about the form of a text; an empty file has no last line to end. -/
def generate (r : FixRequest) : Option Fix :=
  let t := r.content
  if r.issue.type == trailingWhitespace then
    build? r "Remove trailing whitespace" (lineEdits t r.issue.line trimLine?) 98
  else if r.issue.type == missingFinalNewline then
    if t.isEmpty || t.getLast? == some '\n' then none
    else build? r "Add missing final newline" [⟨t.length, t.length, ['\n']⟩] 99
  else if r.issue.type == mixedIndentation then
    build? r "Convert tab indentation to spaces" (lineEdits t r.issue.line expandLine?) 85
  else none

def accepts (f : Fix) : Bool :=
  f.isWellFormed &&
    f.changes.all fun c => Text.words c.expected.toList == Text.words c.replacement.toList

def fixer : Fixer where
  name := name
  types := [trailingWhitespace, missingFinalNewline, mixedIndentation]
  generate r := .ok (generate r)
  accepts := accepts

end Autofix.Formatting
