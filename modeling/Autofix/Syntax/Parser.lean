import Autofix.Language
import Autofix.Syntax.Node

/-! Parsing, and what is looked for in syntax trees. The trees are made by a parser that is not part of this library: it
is a parameter of all that reads them. -/
namespace Autofix

namespace Grammar

/-- The kinds of nodes that are imports. -/
def importKinds : Grammar → List String
  | python => ["import_statement", "import_from_statement"]
  | rust => ["use_declaration", "extern_crate_declaration"]
  | typeScript | tagged => ["import_statement"]

/-- The kinds of nodes that declare something, each with the kind of the name that is declared. -/
def declarationKinds : Grammar → List (String × String)
  | python => [("function_definition", "identifier"), ("class_definition", "identifier")]
  | rust =>
      [("function_item", "identifier"), ("struct_item", "type_identifier"), ("enum_item", "type_identifier"),
        ("trait_item", "type_identifier"), ("type_item", "type_identifier")]
  | typeScript | tagged =>
      [("function_declaration", "identifier"), ("class_declaration", "type_identifier"),
        ("interface_declaration", "type_identifier"), ("method_definition", "property_identifier")]

end Grammar

/-- A node that declares something, with the node that it is a child of. -/
structure Declaration where
  node : SyntaxNode
  parent : Option SyntaxNode
  name : String

/-- A source with its syntax tree. -/
structure Parsed where
  grammar : Grammar
  source : Text
  root : SyntaxNode

namespace Parsed

/-- The imports in source order. -/
def imports (p : Parsed) : List SyntaxNode :=
  (p.root.nodes.filter fun n => n.isNamed && p.grammar.importKinds.contains n.kind).mergeSort
    fun a b => a.start ≤ b.start

/-- What a node declares. -/
def declarationsAt (p : Parsed) (parent : Option SyntaxNode) (n : SyntaxNode) : List Declaration :=
  (p.grammar.declarationKinds.filter fun kinds => n.isNamed && n.kind == kinds.1).flatMap fun kinds =>
    (n.children.filter fun name => name.field == some "name" && name.isNamed && name.kind == kinds.2).map
      fun name => ⟨n, parent, String.ofList (name.textIn p.source)⟩

/-- The declarations in source order. -/
def declarations (p : Parsed) : List Declaration :=
  ((p.root.walk none).flatMap fun place => p.declarationsAt place.1 place.2).mergeSort
    fun a b => a.node.start ≤ b.node.start

def nodesOfKind (p : Parsed) (kind : String) : List SyntaxNode := p.root.nodes.filter fun n => n.kind == kind

/-- The first node of a kind that starts on a line. -/
def nodeOnLine? (p : Parsed) (kind : String) (line : Nat) : Option SyntaxNode :=
  Text.onLine? p.source SyntaxNode.start (p.nodesOfKind kind) line

end Parsed

inductive ParseError
  | noGrammar (language : Language) (filePath : String)
  | notLoaded (grammar : Grammar)
  | noTree (filePath : String)
deriving DecidableEq, Repr

def ParseError.message : ParseError → String
  | noGrammar language filePath => s!"no grammar registered for {language.name} file {filePath}"
  | notLoaded grammar => s!"failed to load {grammar.name} tree-sitter grammar"
  | noTree filePath => s!"tree-sitter parser produced no syntax tree for {filePath}"

/-- The grammars to choose from, and what makes syntax trees by them. -/
structure Parser where
  catalog : Grammar.Catalog := Grammar.standard
  loads : Grammar → Bool := fun _ => true
  tree? : Grammar → Text → Option SyntaxNode

/-- The syntax tree of a file, by the grammar for its name and language. -/
def Parser.parse (p : Parser) (language : Language) (filePath : String) (source : Text) :
    Except ParseError Parsed :=
  match Grammar.select? p.catalog language filePath with
  | none => .error (.noGrammar language filePath)
  | some g =>
      if p.loads g then
        match p.tree? g source with
        | some root => .ok ⟨g, source, root⟩
        | none => .error (.noTree filePath)
      else .error (.notLoaded g)

end Autofix
