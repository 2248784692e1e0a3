import Autofix.Outline.Basic
import Autofix.Outline.Ecma.Token
import Autofix.Outline.Ecma.Type

/-! Outlines of ECMAScript sources. Statements are told apart by their first words; expressions are
read from left to right with the operand at hand, which is what an assignment or an update writes. -/
namespace Autofix.Outline.Ecma

abbrev Read := Outline × List Tree

def Read.after (o : Outline) (r : Read) : Read := (o ++ r.1, r.2)

/-- The value at hand in an expression: where it starts, and the name that it is, if it is one by itself. -/
structure Operand where
  start : Nat
  name : Option Tree := none

/-- What ends an expression besides a semicolon. -/
structure Ends where
  /-- A line end, where a statement may end. -/
  line : Bool := false
  comma : Bool := false
  colon : Bool := false

def headIs (test : Tree → Bool) (trees : List Tree) : Bool := (trees.head?.map test).getD false

def dropIf (test : Tree → Bool) (trees : List Tree) : List Tree :=
  if headIs test trees then trees.drop 1 else trees

/-- Does a tree on a line of its own start a new statement after a value? -/
def startsAnew (t : Tree) : Bool :=
  match t with
  | .leaf token =>
      match token.kind with
      | .word => !t.isWordOf ["in", "instanceof", "of"]
      | .symbol => ["++", "--", "!", "~", "@"].any fun s => t.isSymbol s
      | _ => true
  | .group .. => t.isGroup '\x7b' || t.isGroup '<'

/-- Does the expression end before the tree? -/
def Ends.holds (ends : Ends) (operand : Option Operand) (conditions : Nat) (t : Tree) : Bool :=
  t.isSymbol ";" || (ends.comma && t.isSymbol ",") ||
    (ends.colon && conditions == 0 && t.isSymbol ":") ||
    (ends.line && operand.isSome && (t.isGroup '\x7b' || (t.fresh && startsAnew t)))

def augmentedSymbols : List String :=
  ["+=", "-=", "*=", "/=", "%=", "**=", "<<=", ">>=", ">>>=", "&=", "|=", "^=", "&&=", "||=", "??="]

def prefixWords : List String :=
  ["typeof", "delete", "void", "await", "yield", "return", "throw", "in", "instanceof", "case"]

/-- The name that the sign for an update stands before, if nothing else belongs to it. -/
def updatedName? : List Tree → Option Tree
  | [] => none
  | t :: rest =>
      let goesOn := headIs (fun n => !n.fresh && (n.isSymbol "." || n.isSymbol "?." || n.isSymbol "!" ||
        n.isGroup '[' || n.isGroup '(')) rest
      if t.word?.isSome && !goesOn then some t else none

def memberWords : List String := ["async", "get", "set"]

def classWords : List String :=
  memberWords ++ ["public", "private", "protected", "static", "override", "readonly", "abstract", "accessor",
    "declare"]

/-- May the tree be the name of a member, or stand before it? -/
def isMemberName (t : Tree) : Bool :=
  match t with
  | .leaf token => token.kind != .symbol || t.isSymbol "*"
  | .group .. => t.isGroup '['

/-- The trees from the name of a member on. Where members may end with a line, a word before a line end is
itself the name. -/
def fromMemberName (endsAtLine : Bool) (words : List String) : List Tree → List Tree
  | [] => []
  | t :: rest =>
      if t.isSymbol "*" ||
          (t.isWordOf words && headIs (fun n => isMemberName n && !(endsAtLine && n.fresh)) rest) then
        fromMemberName endsAtLine words rest
      else t :: rest

/-- May the tree name a method that is not private? -/
def isPlainName (t : Tree) : Bool := (t.word?.map fun name => name.toList.head? != some '#').getD false

/-- The items of a class body and what follows it; a brace in angle brackets belongs to a type. -/
def classBody? (depth : Nat) : List Tree → Option (List Tree × List Tree)
  | [] => none
  | t :: rest =>
      if t.isSymbol "<" then classBody? (depth + 1) rest
      else if t.isSymbol ">" then classBody? (depth - 1) rest
      else
        match depth, t.inside? '\x7b' with
        | 0, some items => some (items, rest)
        | _, _ => classBody? depth rest

/-- A function from its name on. -/
structure FunctionRead where
  outline : Outline
  name : Option Tree
  /-- Has the function a body, and is it no generator? -/
  isPlain : Bool
  rest : List Tree

def importNode (start stop : Nat) : SyntaxNode := { kind := "import_statement", start, stop }

/-- May the tree follow `let` as what it declares? Where `let` may be a name, a line end makes it one. -/
def startsPattern (isKeyword : Bool) (t : Tree) : Bool :=
  t.isGroup '[' || ((isKeyword || !t.fresh) && (t.word?.isSome || t.isGroup '\x7b'))

mutual

/-- The rest of an expression, given the operand at hand and the number of conditions that wait for
their second branch. -/
def expression : Nat → Ends → Option Operand → Nat → List Tree → Read
  | 0, _, _, _, trees => ([], trees)
  | _, _, _, _, [] => ([], [])
  | fuel + 1, ends, operand, conditions, t :: rest =>
      let start := (operand.map Operand.start).getD t.start
      let value : Option Operand := some ⟨start, none⟩
      if ends.holds operand conditions t then ([], t :: rest)
      else
        match t with
        | .group _ items _ =>
            if t.isGroup '(' then
              let afterArrow := afterOptionalType rest
              if operand.isNone && headIs (Tree.isSymbol "=>") rest then
                (expression fuel ends none conditions rest).after (parameters fuel items)
              else if operand.isNone && conditions == 0 && headIs (Tree.isSymbol "=>") afterArrow then
                (expression fuel ends none conditions afterArrow).after (parameters fuel items)
              else
                (expression fuel ends value conditions rest).after (expression fuel {} none 0 items).1
            else if operand.isNone && (t.isGroup '[' || t.isGroup '\x7b') && headIs (Tree.isSymbol "=") rest then
              (expression fuel ends value conditions rest).after (pattern fuel items)
            else if t.isGroup '[' then
              (expression fuel ends value conditions rest).after (expression fuel {} none 0 items).1
            else if t.isGroup '\x7b' then (expression fuel ends value conditions rest).after (members fuel items)
            else (expression fuel ends value conditions rest).after (codeGroups fuel items)
        | .leaf token =>
            match token.kind with
            | .word => wordPart fuel ends operand conditions t rest
            | .symbol => symbolPart fuel ends operand conditions t rest
            | _ => expression fuel ends value conditions rest

def wordPart : Nat → Ends → Option Operand → Nat → Tree → List Tree → Read
  | 0, _, _, _, t, rest => ([], t :: rest)
  | fuel + 1, ends, operand, conditions, t, rest =>
      let value : Option Operand := some ⟨(operand.map Operand.start).getD t.start, none⟩
      let asyncArrow :=
        match rest with
        | next :: more =>
            (next.isGroup '(' && headIs (Tree.isSymbol "=>") (afterOptionalType more)) ||
              (next.word?.isSome && headIs (Tree.isSymbol "=>") more)
        | [] => false
      if t.isWord "function" then
        let f := function fuel rest
        (expression fuel ends value conditions f.rest).after f.outline
      else if t.isWord "async" && headIs (fun n => n.isWord "function" && !n.fresh) rest then
        let f := function fuel (rest.drop 1)
        (expression fuel ends value conditions f.rest).after f.outline
      else if t.isWord "async" && asyncArrow then expression fuel ends none conditions rest
      else if t.isWord "class" then
        let (o, _, rest) := classFrom fuel rest
        (expression fuel ends value conditions rest).after o
      else if t.isWordOf prefixWords then expression fuel ends none conditions rest
      else if t.isWord "new" then expression fuel ends value conditions rest
      else if operand.isSome && t.isWord "of" then expression fuel ends none conditions rest
      else if operand.isSome && t.isWordOf ["as", "satisfies"] then
        expression fuel ends value conditions (afterType rest)
      else if operand.isSome then expression fuel ends value conditions rest
      else expression fuel ends (t.word?.map fun _ => ⟨t.start, some t⟩) conditions rest

def symbolPart : Nat → Ends → Option Operand → Nat → Tree → List Tree → Read
  | 0, _, _, _, t, rest => ([], t :: rest)
  | fuel + 1, ends, operand, conditions, t, rest =>
      let start := (operand.map Operand.start).getD t.start
      let value : Option Operand := some ⟨start, none⟩
      let wrote (kind field : String) : Outline := (operand.map fun o => write kind field o.start o.name).toList
      if t.isSymbol "." || t.isSymbol "?." then
        expression fuel ends value conditions (dropIf (fun n => n.word?.isSome) rest)
      else if t.isSymbol "=" then (expression fuel ends none conditions rest).after (wrote "assignment_expression" "left")
      else if augmentedSymbols.any fun s => t.isSymbol s then
        (expression fuel ends none conditions rest).after (wrote "augmented_assignment_expression" "left")
      else if t.isSymbol "++" || t.isSymbol "--" then
        if operand.isSome && !t.fresh then (expression fuel ends value conditions rest).after (wrote "update_expression" "argument")
        else (expression fuel ends none conditions rest).after
          [write "update_expression" "argument" t.start (updatedName? rest)]
      else if t.isSymbol "=>" then
        match rest with
        | next :: more =>
            match next.inside? '\x7b' with
            | some items => (expression fuel ends value conditions more).after (statements fuel items)
            | none => expression fuel ends none conditions rest
        | [] => ([], [])
      else if t.isSymbol "<" then
        match operand, afterTypeArguments? rest with
        | some _, some more =>
            if headIs (fun n => n.isGroup '(' || n.isGroup '\x60') more then
              expression fuel ends operand conditions more
            else expression fuel ends none conditions rest
        | none, some more => expression fuel ends none conditions more
        | _, none => expression fuel ends none conditions rest
      else if t.isSymbol "?" then expression fuel ends none (conditions + 1) rest
      else if t.isSymbol ":" then expression fuel ends none (conditions - 1) rest
      else if t.isSymbol "!" && operand.isSome && !t.fresh then expression fuel ends value conditions rest
      else expression fuel ends none conditions rest

def codeGroups : Nat → List Tree → Outline
  | 0, _ => []
  | _, [] => []
  | fuel + 1, t :: rest =>
      let here := match t with
        | .group opening items _ =>
            if opening.text == ['<'] then codeGroups fuel items else (expression fuel {} none 0 items).1
        | .leaf _ => []
      here ++ codeGroups fuel rest

/-- The default values and computed names in a pattern. -/
def pattern : Nat → List Tree → Outline
  | 0, _ => []
  | _, [] => []
  | fuel + 1, t :: rest =>
      if t.isSymbol "=" then
        let (o, rest) := expression fuel { comma := true } none 0 rest
        o ++ pattern fuel rest
      else
        match t with
        | .group _ items _ => pattern fuel items ++ pattern fuel rest
        | .leaf _ => pattern fuel rest

def parameters : Nat → List Tree → Outline
  | 0, _ => []
  | _, [] => []
  | fuel + 1, t :: rest =>
      if t.isSymbol ":" then parameters fuel (afterType rest)
      else if t.isSymbol "=" then
        let (o, rest) := expression fuel { comma := true } none 0 rest
        o ++ parameters fuel rest
      else
        match t with
        | .group opening items _ =>
            (if opening.text == ['('] then (expression fuel {} none 0 items).1 else pattern fuel items) ++
              parameters fuel rest
        | .leaf _ => parameters fuel rest

def function : Nat → List Tree → FunctionRead
  | 0, trees => ⟨[], none, false, trees⟩
  | fuel + 1, trees =>
      let isGenerator := headIs (Tree.isSymbol "*") trees
      let trees := dropIf (Tree.isSymbol "*") trees
      let name := trees.head?.filter fun t => t.word?.isSome
      let trees := afterTypeParameters (dropIf (fun t => t.word?.isSome) trees)
      let params := match trees.head?.bind (Tree.inside? '(') with
        | some items => parameters fuel items
        | none => []
      let trees := afterOptionalType (dropIf (Tree.isGroup '(') trees)
      match trees.head?.bind (Tree.inside? '\x7b') with
      | some items => ⟨params ++ statements fuel items, name, !isGenerator, trees.drop 1⟩
      | none => ⟨params, name, false, trees⟩

/-- A class after its keyword: what is in it, its name and what follows it. -/
def classFrom : Nat → List Tree → Outline × Option Tree × List Tree
  | 0, trees => ([], none, trees)
  | fuel + 1, trees =>
      let name := trees.head?.filter fun t => t.word?.isSome && !t.isWordOf ["extends", "implements"]
      match classBody? 0 (if name.isSome then trees.drop 1 else trees) with
      | some (items, rest) => (classMembers fuel items, name, rest)
      | none => ([], name, [])

/-- A method from its parameters on; it is a declaration if it has a body and a plain name. -/
def method : Nat → Nat → Tree → List Tree → Read
  | 0, _, _, trees => ([], trees)
  | fuel + 1, start, name, trees =>
      let params := match trees.head?.bind (Tree.inside? '(') with
        | some items => parameters fuel items
        | none => []
      let trees := afterOptionalType (trees.drop 1)
      match trees.head?.bind (Tree.inside? '\x7b') with
      | some items =>
          let declared : Outline :=
            if isPlainName name then [declaration "method_definition" "property_identifier" start name] else []
          (declared ++ params ++ statements fuel items, trees.drop 1)
      | none => (params, trees)

def members : Nat → List Tree → Outline
  | 0, _ => []
  | _, [] => []
  | fuel + 1, t :: rest =>
      if t.isSymbol "," || t.isSymbol ";" then members fuel rest
      else if t.isSymbol "..." then
        let (o, rest) := expression fuel { comma := true } none 0 rest
        o ++ members fuel rest
      else
        match fromMemberName false memberWords (t :: rest) with
        | [] => []
        | name :: after =>
            let computed := match name.inside? '[' with
              | some items => (expression fuel {} none 0 items).1
              | none => []
            let after := dropIf (fun n => n.isSymbol "?" || n.isSymbol "!") after
            let call := afterTypeParameters after
            if headIs (Tree.isGroup '(') call then
              let (o, rest) := method fuel t.start name call
              computed ++ o ++ members fuel rest
            else if headIs (fun n => n.isSymbol ":" || n.isSymbol "=") after then
              let (o, rest) := expression fuel { comma := true } none 0 (after.drop 1)
              computed ++ o ++ members fuel rest
            else computed ++ members fuel after

def classMembers : Nat → List Tree → Outline
  | 0, _ => []
  | _, [] => []
  | fuel + 1, t :: rest =>
      if t.isSymbol ";" || t.isSymbol "," then classMembers fuel rest
      else if t.isSymbol "@" then
        let (o, rest) := decorator fuel rest
        o ++ classMembers fuel rest
      else if t.isWord "static" && headIs (Tree.isGroup '\x7b') rest then
        match rest.head?.bind (Tree.inside? '\x7b') with
        | some items => statements fuel items ++ classMembers fuel (rest.drop 1)
        | none => []
      else
        match fromMemberName true classWords (t :: rest) with
        | [] => []
        | name :: after =>
            let computed := match name.inside? '[' with
              | some items => (expression fuel {} none 0 items).1
              | none => []
            let after := dropIf (fun n => n.isSymbol "?" || n.isSymbol "!") after
            let call := afterTypeParameters after
            if headIs (Tree.isGroup '(') call then
              let (o, rest) := method fuel t.start name call
              computed ++ o ++ classMembers fuel rest
            else
              let after := afterOptionalType after
              if headIs (Tree.isSymbol "=") after then
                let (o, rest) := expression fuel { line := true } none 0 (after.drop 1)
                computed ++ o ++ classMembers fuel rest
              else computed ++ classMembers fuel after

def decorator : Nat → List Tree → Read
  | 0, trees => ([], trees)
  | _, [] => ([], [])
  | fuel + 1, t :: rest =>
      match t.inside? '(' with
      | some items => ((expression fuel {} none 0 items).1, rest)
      | none =>
          if headIs (fun n => n.isSymbol "." || (n.isGroup '(' && !n.fresh)) rest then
            decorator fuel (dropIf (Tree.isSymbol ".") rest)
          else ([], rest)

def declarators : Nat → Ends → List Tree → List SyntaxNode × Read
  | 0, _, trees => ([], [], trees)
  | _, _, [] => ([], .broken, [])
  | fuel + 1, ends, t :: rest =>
      let found := match t with
        | .group _ items _ => pattern fuel items
        | .leaf _ => if t.word?.isSome then [] else .broken
      let rest := afterOptionalType (dropIf (fun n => n.isSymbol "!" && !n.fresh) rest)
      let hasValue := headIs (Tree.isSymbol "=") rest
      let (value, rest) :=
        if hasValue then expression fuel { ends with comma := true } none 0 (rest.drop 1) else ([], rest)
      if headIs (Tree.isSymbol ",") rest then
        let (more, o, rest) := declarators fuel ends (rest.drop 1)
        (declarator t hasValue :: more, found ++ value ++ o, rest)
      else ([declarator t hasValue], found ++ value, rest)

def variableFrom : Nat → Ends → Tree → List Tree → Read
  | 0, _, _, trees => ([], trees)
  | fuel + 1, ends, key, trees =>
      let (declarators, o, rest) := declarators fuel ends trees
      (variableStatement key declarators :: o, rest)

def loopParts : Nat → List Tree → Outline
  | 0, _ => []
  | _, [] => []
  | fuel + 1, t :: rest =>
      if t.isSymbol ";" then loopParts fuel rest
      else
        let (o, rest) := expression fuel {} none 0 (t :: rest)
        o ++ loopParts fuel rest

/-- The head of a `for` loop. A variable that takes its values from a list is no variable statement. -/
def loopHead : Nat → List Tree → Outline
  | 0, _ => []
  | _, [] => []
  | fuel + 1, t :: rest =>
      let isOf (n : Tree) := n.isWordOf ["of", "in"]
      if t.isWordOf ["let", "const", "var"] then
        if headIs isOf (rest.drop 1) then loopParts fuel (rest.drop 2)
        else
          let (o, rest) := variableFrom fuel {} t rest
          o ++ loopParts fuel rest
      else if headIs isOf rest then loopParts fuel (rest.drop 1)
      else loopParts fuel (t :: rest)

/-- An import after its keyword, with its attributes; nothing is found if it names a part of a namespace. -/
def importFrom : Nat → Nat → List Tree → Read
  | 0, _, trees => ([], trees)
  | fuel + 1, start, trees =>
      match trees with
      | [] => (.broken, [])
      | t :: rest =>
          let found (stop : Nat) (rest : List Tree) : Read :=
            match rest with
            | semicolon :: more =>
                if semicolon.isSymbol ";" then ([importNode start semicolon.stop], more)
                else ([importNode start stop], rest)
            | [] => ([importNode start stop], [])
          if t.isString then
            match rest with
            | key :: attributes :: more =>
                if key.isWordOf ["with", "assert"] && !key.fresh && attributes.isGroup '\x7b' then
                  found attributes.stop more
                else found t.stop rest
            | _ => found t.stop rest
          else if t.isSymbol "=" then
            match rest with
            | require :: arguments :: more =>
                if require.isWord "require" && arguments.isGroup '(' then found arguments.stop more
                else expression fuel { line := true } none 0 rest
            | _ => expression fuel { line := true } none 0 rest
          else if t.isSymbol ";" then (.broken, rest)
          else importFrom fuel start rest

/-- An export list or a re-export after its keyword. -/
def exportList : Nat → List Tree → List Tree
  | 0, trees => trees
  | _, [] => []
  | fuel + 1, t :: rest =>
      if t.isSymbol ";" then rest
      else if t.isString then dropIf (Tree.isSymbol ";") rest
      else if headIs (fun n => n.fresh && !n.isWordOf ["from", "as"] && !n.isString) rest then rest
      else exportList fuel rest

/-- One statement, given where its export and its decorators start. -/
def statement : Nat → Option Nat → Option Nat → List Tree → Read
  | 0, _, _, trees => ([], trees)
  | _, _, _, [] => ([], [])
  | fuel + 1, exportStart, decorators, t :: rest =>
      let next (test : Tree → Bool) := headIs (fun n => test n && !n.fresh) rest
      let nextIsName := next fun n => n.word?.isSome
      let declared (kind nameKind : String) (name : Option Tree) (start : Nat) : Outline :=
        (name.map fun name => exportOf exportStart (declaration kind nameKind start name)).toList
      if t.isSymbol ";" then ([], rest)
      else if t.isSymbol "@" then
        let (o, rest) := decorator fuel rest
        (statement fuel exportStart (decorators.or (some t.start)) rest).after o
      else
        match t.inside? '\x7b' with
        | some items => (statements fuel items, rest)
        | none =>
            if t.isWord "import" && !headIs (fun n => n.isGroup '(' || n.isSymbol ".") rest then
              importFrom fuel t.start rest
            else if t.isWord "export" then
              exportFrom fuel (decorators.getD t.start) rest
            else if t.isWord "declare" && nextIsName then statement fuel none none rest
            else if t.isWord "abstract" && next (Tree.isWord "class") then
              let (o, _, rest) := classFrom fuel (rest.drop 1)
              (o, rest)
            else if t.isWord "function" then
              let f := function fuel rest
              (declared "function_declaration" "identifier" (if f.isPlain then f.name else none) t.start ++ f.outline, f.rest)
            else if t.isWord "async" && next (Tree.isWord "function") then
              let f := function fuel (rest.drop 1)
              (declared "function_declaration" "identifier" (if f.isPlain then f.name else none) t.start ++ f.outline, f.rest)
            else if t.isWord "class" then
              let (o, name, rest) := classFrom fuel rest
              (declared "class_declaration" "type_identifier" name (decorators.getD t.start) ++ o, rest)
            else if t.isWord "interface" && nextIsName then
              let rest' := match classBody? 0 (rest.drop 1) with
                | some (_, rest) => rest
                | none => []
              (declared "interface_declaration" "type_identifier" (rest.head?.filter fun n => n.word?.isSome) t.start, rest')
            else if t.isWord "type" && nextIsName && headIs (fun n => n.isSymbol "=" || n.isSymbol "<") (rest.drop 1) then
              ([], afterType ((afterTypeParameters (rest.drop 1)).drop 1))
            else if t.isWord "enum" && nextIsName then
              (members fuel (((rest.drop 1).head?.bind (Tree.inside? '\x7b')).getD []), rest.drop 2)
            else if t.isWord "const" && next (Tree.isWord "enum") then
              (members fuel (((rest.drop 2).head?.bind (Tree.inside? '\x7b')).getD []), rest.drop 3)
            else if t.isWordOf ["namespace", "module"] && next (fun n => n.word?.isSome || n.isString) then
              ([], rest.dropWhile fun n => !n.isGroup '\x7b' && !n.isSymbol ";")
            else if t.isWord "global" && next (Tree.isGroup '\x7b') then ([], rest)
            else if t.isWordOf ["const", "var"] ||
                (t.isWord "let" && headIs (startsPattern exportStart.isSome) rest) then
              variableFrom fuel { line := true } t rest
            else if t.isWord "for" then
              let rest := dropIf (Tree.isWord "await") rest
              match rest.head?.bind (Tree.inside? '(') with
              | some items => (loopHead fuel items, rest.drop 1)
              | none => (.broken, rest)
            else if t.isWordOf ["if", "while", "with", "switch", "catch"] && headIs (Tree.isGroup '(') rest then
              match rest.head?.bind (Tree.inside? '(') with
              | some items =>
                  let o := if t.isWord "catch" then pattern fuel items else (expression fuel {} none 0 items).1
                  (o, rest.drop 1)
              | none => ([], rest)
            else if t.isWordOf ["else", "do", "try", "finally", "catch"] then ([], rest)
            else if t.isWord "case" then
              let (o, rest) := expression fuel { colon := true } none 0 rest
              (o, dropIf (Tree.isSymbol ":") rest)
            else if t.isWordOf ["break", "continue"] then
              ([], if nextIsName then rest.drop 1 else rest)
            else if t.isWord "return" && headIs Tree.fresh rest then ([], rest)
            else if t.word?.isSome && headIs (Tree.isSymbol ":") rest then ([], rest.drop 1)
            else expression fuel { line := true } none 0 (t :: rest)

/-- An export after its keyword. -/
def exportFrom : Nat → Nat → List Tree → Read
  | 0, _, trees => ([], trees)
  | _, _, [] => (.broken, [])
  | fuel + 1, start, t :: rest =>
      let isNamed (n : Tree) :=
        n.isWordOf ["function", "class", "abstract", "interface", "async"] || n.isSymbol "@"
      if t.isWord "default" then
        if headIs isNamed rest then statement fuel (some start) none rest
        else expression fuel { line := true } none 0 rest
      else if t.isGroup '\x7b' || t.isSymbol "*" || t.isWordOf ["as", "import"] ||
          (t.isWord "type" && headIs (fun n => n.isGroup '\x7b' || n.isSymbol "*") rest) then
        ([], exportList fuel (t :: rest))
      else if t.isSymbol "=" then expression fuel { line := true } none 0 rest
      else statement fuel (some start) none (t :: rest)

def statements : Nat → List Tree → Outline
  | 0, _ => []
  | _, [] => []
  | fuel + 1, t :: rest =>
      let (o, after) := statement fuel none none (t :: rest)
      o ++ statements fuel (if after.length ≤ rest.length then after else rest)

end

/-- The outline of a source; `tagged` sources may hold tags. -/
def outline (tagged : Bool) (source : Text) : Outline :=
  match trees? tagged source with
  | some trees => sorted (statements (8 * sizes trees + 16) trees)
  | none => .broken

end Autofix.Outline.Ecma
