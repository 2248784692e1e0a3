import Autofix.Edit.Anchor
import Autofix.Fixer.Basic

/-! The refactoring fixer: it replaces the keyword of a variable statement. -/
namespace Autofix.Refactoring

def preferConst : String := "prefer-const"

def noVar : String := "no-var"

def name : String := "refactoring"

/-- A keyword that is replaced by another one, in statements of a kind. -/
structure Rule where
  kind : String
  keyword : String
  replacement : String
  hundredths : Nat
deriving DecidableEq, Repr

def rule? (type : String) : Option Rule :=
  if type == preferConst then some ⟨"lexical_declaration", "let", "const", 80⟩
  else if type == noVar then some ⟨"variable_declaration", "var", "let", 75⟩
  else none

/-- The first token of a statement, if it is the keyword. -/
def keywordToken? (statement : SyntaxNode) (keyword : String) : Option SyntaxNode :=
  statement.children.head?.filter fun token => token.kind == keyword

def declarators (statement : SyntaxNode) : List SyntaxNode :=
  statement.namedChildren.filter fun n => n.kind == "variable_declarator"

/-- The name of a variable that has a value and no pattern in the place of its name. -/
def plainName? (source : Text) (declarator : SyntaxNode) : Option Text := do
  let name ← declarator.childOf? "name"
  if name.kind == "identifier" && (declarator.childOf? "value").isSome then some (name.textIn source) else none

/-- The kinds of nodes that write a variable, each with the field that says which one. -/
def writes : List (String × String) :=
  [("assignment_expression", "left"), ("augmented_assignment_expression", "left"), ("update_expression", "argument")]

/-- Is one of the names assigned or updated, by itself and not in brackets or a pattern? -/
def isWritten (parsed : Parsed) (names : List Text) : Bool :=
  writes.any fun form =>
    (parsed.nodesOfKind form.1).any fun n =>
      (n.childOf? form.2).any fun target =>
        target.kind == "identifier" && names.contains (target.textIn parsed.source)

/-- Has a statement only plain variables with values that are never written again? -/
def neverReassigned (parsed : Parsed) (statement : SyntaxNode) : Bool :=
  match (declarators statement).mapM (plainName? parsed.source) with
  | some names => !names.isEmpty && !isWritten parsed names
  | none => false

def Rule.applies (rule : Rule) (parsed : Parsed) (statement : SyntaxNode) : Bool :=
  (keywordToken? statement rule.keyword).isSome && (rule.keyword != "let" || neverReassigned parsed statement)

/-- The statement that an issue is about: the first on its line if the rule applies to it, or without
line the first that the rule applies to. -/
def target? (rule : Rule) (parsed : Parsed) (line : Option Nat) : Option SyntaxNode :=
  match line with
  | some line => (parsed.nodeOnLine? rule.kind line).filter (rule.applies parsed)
  | none => (parsed.nodesOfKind rule.kind).find? (rule.applies parsed)

def fix? (r : FixRequest) (rule : Rule) (parsed : Parsed) : Option Fix := do
  let statement ← target? rule parsed r.issue.line
  let token ← keywordToken? statement rule.keyword
  let edit : Edit := ⟨token.start, token.stop, rule.replacement.toList⟩
  return Fix.create name r.issue.id
    s!"Replace \x60{rule.keyword}\x60 with \x60{rule.replacement}\x60"
    [edit.toChange r.issue.filePath r.content] (.hundredths rule.hundredths) .medium

def generate (parser : Parser) (r : FixRequest) : Except FixerError (Option Fix) :=
  match r.language.filter Language.isEcmaScript with
  | none => .ok none
  | some language => do
      let parsed ← r.parse parser language
      return (rule? r.issue.type).bind fun rule => fix? r rule parsed

/-- How many more brackets of a kind are opened than closed. -/
def excess (opening closing : Char) (t : Text) : Int := (t.count opening : Int) - t.count closing

def bracketBalance (t : Text) : Int × Int × Int :=
  (excess '(' ')' t, excess '\x7b' '\x7d' t, excess '[' ']' t)

def accepts (f : Fix) : Bool :=
  f.isWellFormed &&
    f.changes.all fun c => bracketBalance c.expected.toList == bracketBalance c.replacement.toList

def fixer (parser : Parser) : Fixer where
  name := name
  types := [preferConst, noVar]
  generate := generate parser
  accepts := accepts

end Autofix.Refactoring
