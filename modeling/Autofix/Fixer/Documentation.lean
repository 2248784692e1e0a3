import Autofix.Edit.Anchor
import Autofix.Fixer.Basic

/-! The documentation fixer: it puts a stub above a declaration without documentation, or at the start
of its body where the language wants it there. -/
namespace Autofix.Documentation

def name : String := "documentation"

/-- The lines of a text that ends with a line end, the last first. -/
def linesAbove (before : Text) : List Text :=
  match (Text.lines before).reverse with
  | [] :: lines => lines
  | lines => lines

/-- Is the line an attribute or a decorator, which documentation may stand above? -/
def isDecoration (line : Text) : Bool :=
  ("#[".toList.isPrefixOf line && !"#[doc".toList.isPrefixOf line) || line.head? == some '@'

def isDocLine (line : Text) : Bool :=
  "///".toList.isPrefixOf line || "//!".toList.isPrefixOf line || "#[doc".toList.isPrefixOf line ||
    "*/".toList.isSuffixOf line

/-- Does the text end with a documentation comment, attributes and decorators aside? -/
def hasDocComment (before : Text) : Bool :=
  match ((linesAbove before).map Text.trim).dropWhile isDecoration with
  | line :: _ => isDocLine line
  | [] => false

structure Stub where
  position : Nat
  text : Text
deriving DecidableEq, Repr

/-- The stub above the line of a position, made from the line's indentation, unless there is
documentation already. -/
def stubAbove? (source : Text) (position : Nat) (text : Text → Text) : Option Stub :=
  let start := Text.lineStart source position
  if hasDocComment (source.take start) then none
  else some ⟨start, text (Text.indentation (source.drop start))⟩

def lineComment (placeholder indent : Text) : Text := indent ++ "/// ".toList ++ placeholder ++ ['\n']

def blockComment (placeholder indent : Text) : Text :=
  indent ++ "/**\n".toList ++ indent ++ " * ".toList ++ placeholder ++ ['\n'] ++ indent ++ " */\n".toList

def quotedComment (placeholder indent : Text) : Text :=
  let quotes := ['"', '"', '"']
  indent ++ quotes ++ placeholder ++ quotes ++ ['\n']

/-- Is the statement a text by itself, as documentation at the start of a body is? -/
def isQuotedText (statement : SyntaxNode) : Bool :=
  statement.kind == "expression_statement" &&
    (statement.namedChildren.head?.map fun value => value.kind == "string").getD false

/-- The stub at the start of the body of a declaration, unless the body is on the line of the declaration or
starts with documentation. -/
def stubInside? (source : Text) (declaration : SyntaxNode) (text : Text → Text) : Option Stub := do
  let body ← declaration.childOf? "body"
  if Text.lineOf source body.start = Text.lineOf source declaration.start then none
  else
    let first ← body.namedChildren.head?
    if isQuotedText first then none
    else
      let start := Text.lineStart source first.start
      return ⟨start, text (Text.indentation (source.drop start))⟩

/-- The export of a declaration, if it is exported, else the declaration itself. -/
def exported (d : Declaration) : SyntaxNode :=
  (d.parent.filter fun above => above.kind == "export_statement").getD d.node

def stub? (language : Language) (source : Text) (placeholder : Text) (d : Declaration) : Option Stub :=
  match language with
  | .python => stubInside? source d.node (quotedComment placeholder)
  | .rust => stubAbove? source d.node.start (lineComment placeholder)
  | _ => stubAbove? source (exported d).start (blockComment placeholder)

/-- The declaration that an issue is about: the first from its line on, or without line the first
without documentation. -/
def target? (source : Text) (stub? : Declaration → Option Stub) (declarations : List Declaration)
    (line : Option Nat) : Option Declaration :=
  match line with
  | some line => declarations.find? fun d => line ≤ Text.lineOf source d.node.start
  | none => declarations.find? fun d => (stub? d).isSome

def generate (parser : Parser) (r : FixRequest) : Except FixerError (Option Fix) :=
  match r.language with
  | none => .ok none
  | some language => do
      let parsed ← r.parse parser language
      let stub? := stub? language r.content r.placeholder.toList
      return do
        let d ← target? r.content stub? parsed.declarations r.issue.line
        let stub ← stub? d
        let edit : Edit := ⟨stub.position, stub.position, stub.text⟩
        return Fix.create name r.issue.id s!"Add documentation stub for \x60{d.name}\x60"
          [edit.toChange r.issue.filePath r.content] (.hundredths 75) .low

def fixer (parser : Parser) : Fixer where
  name := name
  types := ["missing-docs", "missing-documentation"]
  generate := generate parser

end Autofix.Documentation
