import Autofix.Edit.Anchor
import Autofix.Fixer.Basic
import Autofix.Text.Letter

/-! The imports fixer: it deletes import statements that are not used or that repeat earlier ones. -/
namespace Autofix.Imports

def unusedImport : String := "unused-import"

def duplicateImport : String := "duplicate-import"

def name : String := "imports"

/-- The text between the first two quotes of a kind, if it is not blank. -/
def quotedBy? (quote : Char) (t : Text) : Option Text :=
  match Text.splitAt (· == quote) t with
  | _ :: symbol :: _ :: _ => if Text.isBlankText symbol then none else some (Text.trim symbol)
  | _ => none

/-- The name that a description quotes: between backticks, else between single, else between double
quotes. -/
def quotedSymbol? (description : Text) : Option Text :=
  ((quotedBy? '\x60' description).or (quotedBy? '\'' description)).or (quotedBy? '"' description)

def containsWord (t word : Text) : Bool :=
  (Text.identifiers (fun c => c == '_' || c == '$') t).contains word

def namesSeveral (t : Text) : Bool := t.contains ','

/-- The words of a text with one blank between them. -/
def collapse (t : Text) : Text := Text.join [' '] (Text.words t)

def textOf (source : Text) (s : Span) : Text := Text.slice source s.start s.stop

/-- The import that an issue is about: the first on its line, or without line the first that names the
quoted symbol. -/
def target? (source : Text) (imports : List Span) (line : Option Nat) (symbol : Option Text) : Option Span :=
  match line, symbol with
  | some line, _ => Text.onLine? source Span.start imports line
  | none, some symbol => imports.find? fun s => containsWord (textOf source s) symbol
  | none, none => none

def deleteImport (path : String) (source : Text) (s : Span) : Change :=
  (Edit.deletion source s.start s.stop).toChange path source

/-- The fix for an import that is not used. One that names other symbols besides the quoted one is left alone. A
symbol that the import does not name guards nothing, as the issue is about the import as a whole then. -/
def unused? (r : FixRequest) (imports : List Span) : Option Fix := do
  let symbol := quotedSymbol? r.issue.description.toList
  let s ← target? r.content imports r.issue.line symbol
  let text := textOf r.content s
  if symbol.any fun symbol => namesSeveral text && containsWord text symbol then none
  else some (Fix.create name r.issue.id
    (String.ofList ("Remove unused import \x60".toList ++ Text.trim text ++ ['\x60']))
    [deleteImport r.issue.filePath r.content s] (.hundredths 80) .medium)

/-- The imports whose words repeat those of an earlier one, or of `seen`. -/
def repeated (source : Text) (seen : List Text) : List Span → List Span
  | [] => []
  | s :: rest =>
      let key := collapse (textOf source s)
      if seen.contains key then s :: repeated source seen rest else repeated source (key :: seen) rest

/-- The fix for imports that repeat earlier ones: they are deleted from the last to the first, so that no
deletion moves the lines of one still to come. -/
def duplicates? (r : FixRequest) (imports : List Span) : Option Fix :=
  let all := repeated r.content [] imports
  let chosen := match r.issue.line with
    | some line => all.filter fun (s : Span) => Text.lineOf r.content s.start == line
    | none => all
  if chosen.isEmpty then none
  else some (Fix.create name r.issue.id s!"Remove {chosen.length} duplicate import(s)"
    (chosen.reverse.map (deleteImport r.issue.filePath r.content)) (.hundredths 95) .low)

def generate (parser : Parser) (r : FixRequest) : Except FixerError (Option Fix) :=
  match r.language with
  | none => .ok none
  | some language => do
      if r.issue.type == unusedImport then
        let parsed ← r.parse parser language
        return unused? r (parsed.imports.map SyntaxNode.span)
      else if r.issue.type == duplicateImport then
        let parsed ← r.parse parser language
        return duplicates? r (parsed.imports.map SyntaxNode.span)
      else return none

def fixer (parser : Parser) : Fixer where
  name := name
  types := [unusedImport, duplicateImport]
  generate := generate parser

end Autofix.Imports
