import Autofix.Outline.Basic

/-! Outlines of Python sources. A source is read as logical lines, whose brackets may span lines of
text; statements on a line are divided by `;` and follow the `:` of a compound statement. -/
namespace Autofix.Outline.Python

/-- The text after a string in triple quotes whose opening quotes have been read. -/
def afterTriple (quote : Char) : Text → Option Text
  | [] => none
  | '\\' :: _ :: rest => afterTriple quote rest
  | c :: rest =>
      if [quote, quote, quote].isPrefixOf (c :: rest) then some (rest.drop 2) else afterTriple quote rest

def afterString? : Text → Option Text
  | [] => none
  | c :: rest =>
      if c != '"' && c != '\'' then none
      else if [c, c].isPrefixOf rest then afterTriple c (rest.drop 2)
      else afterQuoted c rest

/-- Is the word one that may stand directly before a string? -/
def isStringMark (word : Text) : Bool :=
  ["r", "u", "b", "f", "br", "rb", "fr", "rf"].any fun mark => mark.toList == Text.toAsciiLower word

def lineRest (t : Text) : Text := t.dropWhile (· != '\n')

/-- One step of the scan. After a backslash at the end of a line the next token is not the first of a logical
line; the colon of an assignment inside an expression opens no block; a word such as `rb` is part of the string
that follows it at once. -/
def step (s : Scan) : Option Scan :=
  match s.rest with
  | [] => some s
  | '\n' :: _ => some s.newLine
  | '\\' :: '\n' :: _ => some (s.skip 2)
  | '\\' :: '\r' :: '\n' :: _ => some (s.skip 3)
  | '#' :: rest => some (s.skipTo (lineRest rest))
  | ':' :: '=' :: _ => some (s.emit .symbol 2)
  | c :: rest =>
      if isBlank c then some (s.skip 1)
      else if c == '"' || c == '\'' then (afterString? (c :: rest)).map (s.emitTo .string)
      else if startsWord c then
        let after := rest.dropWhile continuesWord
        let word := (c :: rest).take (rest.length + 1 - after.length)
        match isStringMark word, afterString? after with
        | true, some end' => some (s.emitTo .string end')
        | _, _ => some (s.emitTo .word after)
      else if c.isDigit then some (s.emitTo .number (rest.dropWhile fun d => continuesWord d || d == '.'))
      else some (s.emit (bracketKind c) 1)

/-- The logical lines: a tree that is fresh starts one. -/
def logicalLines : List Tree → List (List Tree)
  | [] => []
  | t :: rest =>
      match logicalLines rest with
      | [] => [[t]]
      | line :: lines =>
          if (line.head?.map Tree.fresh).getD true then [t] :: line :: lines else (t :: line) :: lines

def statements : List Tree → List (List Tree)
  | [] => [[]]
  | t :: rest =>
      match statements rest with
      | [] => [[]]
      | s :: more =>
          if t.isSymbol ";" || t.isSymbol ":" then [] :: s :: more else (t :: s) :: more

def importOf (kind : String) (first : Tree) (rest : List Tree) : SyntaxNode :=
  { kind, start := first.start, stop := ((first :: rest).getLast?.getD first).stop }

/-- The import that a statement is. Those from the future are directives. -/
def import? : List Tree → Option SyntaxNode
  | first :: second :: rest =>
      if first.isWord "import" then some (importOf "import_statement" first (second :: rest))
      else if first.isWord "from" && !second.isWord "__future__" then
        some (importOf "import_from_statement" first (second :: rest))
      else none
  | _ => none

def isDocumentation : List Tree → Bool
  | [first] => first.isString
  | first :: second :: _ => first.isString && (second.isSymbol "," || second.isSymbol ";")
  | [] => false

/-- The first statement of a body. -/
def statementNode (first : Tree) (isDocumentation : Bool) : SyntaxNode :=
  if isDocumentation then
    { kind := "expression_statement", start := first.start, stop := first.stop
      children := [nodeOf "string" none first] }
  else nodeOf "statement" none first

/-- The body of a declaration up to its first statement: what follows the `:` on its line, else the next
line. -/
def body? (line : List Tree) (next : Option (List Tree)) : Option SyntaxNode :=
  let after := (line.dropWhile fun t => !t.isSymbol ":").drop 1
  let statement := if after.isEmpty then next.getD [] else after
  statement.head?.map fun first =>
    { nodeOf "block" (some "body") first with children := [statementNode first (isDocumentation statement)] }

def definitionKind? (keyword : Tree) : Option String :=
  if keyword.isWord "def" then some "function_definition"
  else if keyword.isWord "class" then some "class_definition"
  else none

/-- The kind of the declaration that a line starts with, and what stands in the place of its name. -/
def definition? : List Tree → Option (String × Option Tree)
  | first :: rest =>
      match definitionKind? first with
      | some kind => some (kind, rest.head?)
      | none =>
          match rest with
          | second :: rest =>
              if first.isWord "async" && second.isWord "def" then some ("function_definition", rest.head?)
              else none
          | [] => none
  | [] => none

def lineOutline (line : List Tree) (next : Option (List Tree)) : Outline :=
  let imports := (statements line).filterMap import?
  match line.head?, definition? line with
  | some first, some (kind, name) =>
      match name.filter fun t => t.word?.isSome with
      | some name => imports ++ [declaration kind "identifier" first.start name (body? line next)]
      | none => imports ++ .broken
  | _, _ => imports

def linesOutline : List (List Tree) → Outline
  | [] => []
  | line :: lines => lineOutline line lines.head? ++ linesOutline lines

def outline (source : Text) : Outline :=
  match treesWith? step source with
  | some trees => linesOutline (logicalLines trees)
  | none => .broken

end Autofix.Outline.Python
