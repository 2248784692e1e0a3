import Autofix.Text.Line

/-! Syntax trees as a parser makes them: nodes with kinds, fields and children. Places are positions in the
source. -/
namespace Autofix

structure Span where
  start : Nat
  stop : Nat
deriving DecidableEq, Repr

/-- A node of a syntax tree. Keywords and signs are nodes without a name of their own. -/
structure SyntaxNode where
  kind : String
  isNamed : Bool := true
  /-- The part that the node has in the one above it. -/
  field : Option String := none
  start : Nat
  stop : Nat
  children : List SyntaxNode := []
deriving Repr

namespace SyntaxNode

def span (n : SyntaxNode) : Span := ⟨n.start, n.stop⟩

def textIn (source : Text) (n : SyntaxNode) : Text := Text.slice source n.start n.stop

def namedChildren (n : SyntaxNode) : List SyntaxNode := n.children.filter isNamed

def childOf? (n : SyntaxNode) (field : String) : Option SyntaxNode :=
  n.children.find? fun child => child.field == some field

mutual

/-- The nodes of a tree, each before its children and with the node that it is a child of. -/
def walk (above : Option SyntaxNode) : SyntaxNode → List (Option SyntaxNode × SyntaxNode)
  | ⟨kind, isNamed, field, start, stop, children⟩ =>
      (above, ⟨kind, isNamed, field, start, stop, children⟩) ::
        walkAll ⟨kind, isNamed, field, start, stop, children⟩ children

def walkAll (above : SyntaxNode) : List SyntaxNode → List (Option SyntaxNode × SyntaxNode)
  | [] => []
  | n :: rest => walk (some above) n ++ walkAll above rest

end

/-- The nodes of a tree, each before its children. -/
def nodes (root : SyntaxNode) : List SyntaxNode := (walk none root).map Prod.snd

end SyntaxNode
end Autofix
