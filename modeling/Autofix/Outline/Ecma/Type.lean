import Autofix.Outline.Token

/-! Passing over types in ECMAScript sources: nothing of an outline stands in them. -/
namespace Autofix.Outline.Ecma

def typeOperators : List String :=
  ["keyof", "typeof", "readonly", "unique", "infer", "asserts", "new", "abstract"]

/-- How far a type has been read. -/
structure TypeState where
  expecting : Bool := true
  /-- Was the last operand in parentheses, so that a function type may follow? -/
  parenthesised : Bool := false
  /-- Was the last operand the word that a module's name in parentheses follows? -/
  imports : Bool := false
  depth : Nat := 0
  /-- The number of conditions that wait for their second branch. -/
  conditions : Nat := 0

def TypeState.afterOperand (s : TypeState) (t : Tree) : TypeState :=
  { s with expecting := false, parenthesised := t.isGroup '(', imports := t.isWord "import" }

/-- The state after one more tree of the type, or nothing if the type has ended before it. -/
def TypeState.next? (s : TypeState) (t : Tree) : Option TypeState :=
  if 0 < s.depth then
    some { s with
      depth := if t.isSymbol "<" then s.depth + 1 else if t.isSymbol ">" then s.depth - 1 else s.depth
      expecting := false, parenthesised := false }
  else if s.expecting then
    if t.isWordOf typeOperators || t.isSymbol "|" || t.isSymbol "&" || t.isSymbol "-" then some s
    else
      match t with
      | .group .. => some (s.afterOperand t)
      | .leaf token => if token.kind == .symbol then none else some (s.afterOperand t)
  else if s.imports && t.isGroup '(' then some { s with imports := false }
  else if t.isSymbol "|" || t.isSymbol "&" || t.isSymbol "." then some { s with expecting := true }
  else if t.isSymbol "=>" && s.parenthesised then some { s with expecting := true }
  else if t.isSymbol ":" && 0 < s.conditions then
    some { s with expecting := true, conditions := s.conditions - 1 }
  else if t.fresh then none
  else if t.isSymbol "<" then some { s with depth := 1 }
  else if t.isGroup '[' then some { s with parenthesised := false }
  else if t.isWordOf ["is", "extends"] then some { s with expecting := true }
  else if t.isSymbol "?" then some { s with expecting := true, conditions := s.conditions + 1 }
  else none

def afterTypeFrom (s : TypeState) : List Tree → List Tree
  | [] => []
  | t :: rest =>
      match s.next? t with
      | some s => afterTypeFrom s rest
      | none => t :: rest

def afterType (trees : List Tree) : List Tree := afterTypeFrom {} trees

/-- The trees after a type and the colon before it, if there is one. -/
def afterOptionalType : List Tree → List Tree
  | t :: rest => if t.isSymbol ":" then afterType rest else t :: rest
  | [] => []

/-- The trees after the angle bracket that closes `depth` open ones. -/
def afterAngles (depth : Nat) : List Tree → Option (List Tree)
  | [] => none
  | t :: rest =>
      if t.isSymbol "<" then afterAngles (depth + 1) rest
      else if t.isSymbol ">" then if depth ≤ 1 then some rest else afterAngles (depth - 1) rest
      else if t.isSymbol ";" then none
      else afterAngles depth rest

def afterTypeParameters (trees : List Tree) : List Tree :=
  match trees with
  | t :: rest => if t.isSymbol "<" then (afterAngles 1 rest).getD rest else trees
  | [] => []

/-- Symbols that may stand between type arguments. -/
def typeSymbols : List String := ["<", ">", ",", ".", "|", "&", "=>", "?", ":", "-"]

/-- The trees after type arguments whose first bracket has been read, if all before the last one can be
part of a type. -/
def afterTypeArguments? (trees : List Tree) : Option (List Tree) := do
  let rest ← afterAngles 1 trees
  let arguments := trees.take (trees.length - rest.length)
  if arguments.all fun t =>
      match t with
      | .leaf token => token.kind != .symbol || typeSymbols.any fun s => t.isSymbol s
      | .group .. => true
  then some rest else none

end Autofix.Outline.Ecma
