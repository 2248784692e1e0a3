import Autofix.Outline.Token
import Autofix.Syntax.Node

/-! Outlines: the syntax nodes of a source that fixers look for, without all that stands between them. -/
namespace Autofix

/-- Nodes that are found in a source. -/
abbrev Outline := List SyntaxNode

namespace Outline

/-- The outline of a source that cannot be read. -/
def broken : Outline := [{ kind := "ERROR", start := 0, stop := 0 }]

def sorted (o : Outline) : Outline := o.mergeSort fun a b => a.start ≤ b.start

/-- A tree of tokens as one node. -/
def nodeOf (kind : String) (field : Option String) (t : Tree) : SyntaxNode :=
  { kind, field, start := t.start, stop := t.stop }

/-- A declaration with its name, and with its body where fixers look into it. -/
def declaration (kind nameKind : String) (start : Nat) (name : Tree) (body : Option SyntaxNode := none) :
    SyntaxNode :=
  { kind, start, stop := name.stop, children := nodeOf nameKind (some "name") name :: body.toList }

/-- A node inside of the export that starts at the position, if it is exported. -/
def exportOf (exportStart : Option Nat) (n : SyntaxNode) : SyntaxNode :=
  match exportStart with
  | some start => { kind := "export_statement", start, stop := n.stop, children := [n] }
  | none => n

/-- A variable, whose name is a pattern if it is more than a word. -/
def declarator (name : Tree) (hasValue : Bool) : SyntaxNode :=
  let kind := if name.word?.isSome then "identifier" else "pattern"
  { kind := "variable_declarator", start := name.start, stop := name.stop
    children := nodeOf kind (some "name") name :: if hasValue then [nodeOf "expression" (some "value") name] else [] }

/-- A variable statement from its keyword on. -/
def variableStatement (keyword : Tree) (declarators : List SyntaxNode) : SyntaxNode :=
  let word := keyword.word?.getD ""
  { kind := if word == "var" then "variable_declaration" else "lexical_declaration"
    start := keyword.start, stop := keyword.stop
    children := { nodeOf word none keyword with isNamed := false } :: declarators }

/-- Something that writes a variable, whose name is known if it is written by itself. -/
def write (kind field : String) (start : Nat) (name : Option Tree) : SyntaxNode :=
  { kind, start, stop := (name.map Tree.stop).getD start
    children := (name.map (nodeOf "identifier" (some field))).toList }

end Outline
end Autofix
