import Autofix.Assoc
import Autofix.Fixer.Documentation
import Autofix.Fixer.Formatting
import Autofix.Fixer.Imports
import Autofix.Fixer.Refactoring

/-! The registry of fixers: an index gives for each type of issues the first fixer that claims it. -/
namespace Autofix

/-- Fixers in the order of their registration. -/
structure Registry where
  fixers : List Fixer := []
  /-- For each type of issues, the position of the fixer that makes fixes for it. -/
  index : Assoc String Nat := []

namespace Registry

/-- The index after the fixer at a position has claimed a type that nobody has claimed yet. -/
def claim (position : Nat) (index : Assoc String Nat) (type : String) : Assoc String Nat :=
  match Assoc.get? type index with
  | some _ => index
  | none => Assoc.insert type position index

def claimFrom (position : Nat) (index : Assoc String Nat) : List Fixer → Assoc String Nat
  | [] => index
  | f :: rest => claimFrom (position + 1) (f.types.foldl (claim position) index) rest

def ofFixers (fixers : List Fixer) : Registry := ⟨fixers, claimFrom 0 [] fixers⟩

/-- The list with a fixer at the place of the one with its name, or at the end. -/
def place (f : Fixer) : List Fixer → List Fixer
  | [] => [f]
  | g :: rest => if g.name = f.name then f :: rest else g :: place f rest

/-- The registry with one more fixer; one with the same name is replaced where it stands. -/
def register (r : Registry) (f : Fixer) : Registry := ofFixers (place f r.fixers)

def get? (r : Registry) (name : String) : Option Fixer := r.fixers.find? fun f => f.name == name

/-- The fixer that the index gives for an issue. It claims the type, and is asked once more all the same. -/
def fixerFor? (r : Registry) (issue : Issue) : Option Fixer := do
  let position ← Assoc.get? issue.type r.index
  let f ← r.fixers[position]?
  if f.canFix issue then some f else none

def names (r : Registry) : List String := r.fixers.map Fixer.name

def builtin (parser : Parser) : List Fixer :=
  [Formatting.fixer, Imports.fixer parser, Documentation.fixer parser, Refactoring.fixer parser]

/-- The fixers that come with the program, without those whose names are given. -/
def enabled (parser : Parser) (disabled : List String) : List Fixer :=
  (builtin parser).filter fun f => !disabled.contains f.name

def registerAll (fixers : List Fixer) : Registry := fixers.foldl register {}

end Registry
end Autofix
