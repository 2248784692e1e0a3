import Autofix.Outline.Basic

/-! Outlines of Rust sources. Items are found by their keywords at every depth, but not inside
attributes and macro invocations. -/
namespace Autofix.Outline.Rust

/-- The text after a block comment, nested ones included, whose opening mark has been read `depth + 1`
times. -/
def afterComment : Nat → Text → Option Text
  | _, [] => none
  | depth, '/' :: '*' :: rest => afterComment (depth + 1) rest
  | 0, '*' :: '/' :: rest => some rest
  | depth + 1, '*' :: '/' :: rest => afterComment depth rest
  | depth, _ :: rest => afterComment depth rest

/-- The text after a raw string: hashes, a quote, and all up to a quote with as many hashes. -/
def afterRaw? (t : Text) : Option Text :=
  let hashes := t.takeWhile (· == '#')
  match t.dropWhile (· == '#') with
  | '"' :: rest => afterMark ('"' :: hashes) rest
  | _ => none

/-- The text after a character literal, or nothing if the quote starts the name of a lifetime. -/
def afterCharacter? : Text → Option Text
  | '\\' :: _ :: rest => afterMark ['\''] rest
  | _ :: '\'' :: rest => some rest
  | _ => none

/-- The text after a string, if the word before it is one that may stand before a string. -/
def afterMarkedString? (word after : Text) : Option Text :=
  let mark := String.ofList word
  match after with
  | '"' :: rest =>
      if mark == "b" || mark == "c" then afterQuoted '"' rest
      else if mark == "r" || mark == "br" || mark == "cr" then afterRaw? after
      else none
  | '#' :: _ => if mark == "r" || mark == "br" || mark == "cr" then afterRaw? after else none
  | '\'' :: rest => if mark == "b" then afterCharacter? rest else none
  | _ => none

/-- A word with what follows it: a string, a raw name or a plain name. -/
def wordStep (s : Scan) (word after : Text) : Scan :=
  match afterMarkedString? word after, word, after with
  | some rest, _, _ => s.emitTo .string rest
  | none, ['r'], '#' :: c :: rest =>
      if startsWord c then s.emitTo .word (rest.dropWhile continuesWord) else s.emitTo .word after
  | none, _, _ => s.emitTo .word after

def afterNumber (t : Text) : Text :=
  match t.dropWhile continuesWord with
  | '.' :: c :: rest => if c.isDigit then (c :: rest).dropWhile continuesWord else '.' :: c :: rest
  | rest => rest

def step (s : Scan) : Option Scan :=
  match s.rest with
  | [] => some s
  | '\n' :: _ => some s.newLine
  | '/' :: '/' :: rest => some (s.skipTo (rest.dropWhile (· != '\n')))
  | '/' :: '*' :: rest => (afterComment 0 rest).map s.skipTo
  | '"' :: rest => (afterQuoted '"' rest).map (s.emitTo .string)
  | '\'' :: rest =>
      match afterCharacter? rest with
      | some after => some (s.emitTo .string after)
      | none => some (s.emitTo .symbol (rest.dropWhile continuesWord))
  | c :: rest =>
      if isBlank c then some (s.skip 1)
      else if startsWord c then
        let after := rest.dropWhile continuesWord
        some (wordStep s ((c :: rest).take (rest.length + 1 - after.length)) after)
      else if c.isDigit then some (s.emitTo .number (afterNumber rest))
      else some (s.emit (bracketKind c) 1)

/-- Words that cannot be the name of a macro. -/
def keywords : List String :=
  ["if", "while", "match", "return", "in", "for", "loop", "else", "let", "mut", "ref", "move", "break",
    "as", "where", "unsafe", "impl", "dyn", "yield", "await"]

def isMacroName (t : Tree) : Bool := (t.word?.map fun name => !keywords.contains name).getD false

/-- The number of trees at the start that are an attribute or a macro invocation. A macro that defines something
has its name before the brackets. -/
def hiddenLength : List Tree → Nat
  | first :: second :: rest =>
      if isMacroName first && second.isSymbol "!" then
        match rest with
        | .group .. :: _ => 3
        | .leaf name :: .group .. :: _ => if name.kind == .word then 4 else 0
        | _ => 0
      else if first.isSymbol "#" then
        match second.isGroup '[', second.isSymbol "!", rest with
        | true, _, _ => 2
        | _, true, .group .. :: _ => 3
        | _, _, _ => 0
      else 0
  | _ => 0

def codeFrom : Nat → List Tree → List Tree
  | _, [] => []
  | skip + 1, _ :: rest => codeFrom skip rest
  | 0, t :: rest =>
      match hiddenLength (t :: rest) with
      | 0 => t :: codeFrom 0 rest
      | hidden + 1 => codeFrom hidden rest

def afterVisibility : List Tree → List Tree
  | t :: rest =>
      if t.isWord "pub" then
        match rest with
        | limit :: rest' => if limit.isGroup '(' then rest' else rest
        | [] => rest
      else t :: rest
  | [] => []

def afterModifiers (trees : List Tree) : List Tree :=
  trees.dropWhile fun t =>
    t.isWordOf ["const", "async", "unsafe", "default", "safe", "extern"] || t.isString

def hasBody (trees : List Tree) : Bool :=
  match trees.find? fun t => t.isSymbol ";" || t.isGroup '\x7b' with
  | some t => t.isGroup '\x7b'
  | none => false

/-- Does a `=` outside angle brackets come before the end of the item? A `>` after a `-` is no
bracket. -/
def hasValue (depth : Nat) (afterDash : Bool) : List Tree → Bool
  | [] => false
  | t :: rest =>
      if t.isSymbol ";" then false
      else if t.isSymbol "<" then hasValue (depth + 1) false rest
      else if t.isSymbol ">" && !afterDash then hasValue (depth - 1) false rest
      else (t.isSymbol "=" && depth == 0) || hasValue depth (t.isSymbol "-") rest

/-- An import that ends with the next `;`. -/
def useItem? (kind : String) (start : Nat) (trees : List Tree) : Option SyntaxNode :=
  (trees.find? fun t => t.isSymbol ";").map fun t => { kind, start, stop := t.stop }

/-- The kind of the item that a keyword starts, and that of its name, if it is complete. -/
def itemKind? (keyword : Tree) (rest : List Tree) : Option (String × String) :=
  if keyword.isWord "fn" then if hasBody rest then some ("function_item", "identifier") else none
  else if keyword.isWord "struct" then some ("struct_item", "type_identifier")
  else if keyword.isWord "enum" then some ("enum_item", "type_identifier")
  else if keyword.isWord "trait" then some ("trait_item", "type_identifier")
  else if keyword.isWord "type" && hasValue 0 false rest then some ("type_item", "type_identifier")
  else none

/-- The declaration that an item is, from its keyword on. -/
def declared? (start : Nat) : List Tree → Option SyntaxNode
  | key :: name :: rest => do
      let kinds ← itemKind? key rest
      if name.word?.isSome then some (declaration kinds.1 kinds.2 start name) else none
  | _ => none

def item? (trees : List Tree) : Option SyntaxNode :=
  match trees with
  | [] => none
  | first :: _ =>
      match afterVisibility trees with
      | [] => none
      | key :: rest =>
          if key.isWord "use" && !(rest.head?.map (Tree.isSymbol "<")).getD true then
            useItem? "use_declaration" first.start rest
          else if key.isWord "extern" && (rest.head?.map (Tree.isWord "crate")).getD false then
            useItem? "extern_crate_declaration" first.start rest
          else declared? first.start (afterModifiers (key :: rest))

/-- May the tree stand before the keyword of an item that it is part of? -/
def isModifier (t : Tree) : Bool :=
  t.isWordOf ["pub", "const", "async", "unsafe", "default", "safe", "extern"] || t.isString || t.isGroup '('

/-- The items that start in a list of trees after the first `skip` ones. An item starts at the first of
its modifiers, and what is nested in its trees is looked at apart from it. -/
def itemsFrom : Nat → List Tree → Outline
  | _, [] => []
  | skip + 1, _ :: rest => itemsFrom skip rest
  | 0, t :: rest =>
      match item? (t :: rest) with
      | none => itemsFrom 0 rest
      | some item => item :: itemsFrom ((t :: rest).takeWhile isModifier).length rest

/-- The outline of trees and of all that is nested in them. -/
def treesOutline : Nat → List Tree → Outline
  | 0, _ => []
  | fuel + 1, trees =>
      let code := codeFrom 0 trees
      code.foldl (fun o t =>
        match t with
        | .group _ items _ => o ++ treesOutline fuel items
        | .leaf _ => o) (itemsFrom 0 code)

def outline (source : Text) : Outline :=
  match treesWith? step source with
  | some trees => sorted (treesOutline (sizes trees + 1) trees)
  | none => .broken

end Autofix.Outline.Rust
