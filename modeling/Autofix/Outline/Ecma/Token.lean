import Autofix.Outline.Token

/-! Tokens of ECMAScript sources, types and tags included. Template texts and tags hold code in braces;
their own text is no token. -/
namespace Autofix.Outline.Ecma

/-- What the scan is inside of. -/
inductive Mode
  | code
  | template
  /-- A tag between its name and its end. -/
  | tag
  /-- The text between an opening and a closing tag. -/
  | children
deriving DecidableEq, Repr

/-- A scan and what it is inside of, innermost first. -/
structure State where
  scan : Scan
  modes : List Mode

/-- Symbols of more than one character, longer ones before their beginnings. -/
def longSymbols : List Text :=
  [">>>=", "...", "===", "!==", "**=", "<<=", ">>=", "&&=", "||=", "??=", "=>", "==", "!=", "<=", ">=",
    "&&", "||", "??", "?.", "++", "--", "+=", "-=", "*=", "/=", "%=", "&=", "|=", "^=", "**", "<<"].map
    String.toList

def continuesName (c : Char) : Bool := continuesWord c || c == '$'

def startsName (c : Char) : Bool := startsWord c || c == '$' || c == '#'

/-- Words after which a value is still to come. -/
def operatorWords : List String :=
  ["return", "typeof", "case", "in", "of", "instanceof", "new", "delete", "void", "throw", "do", "else",
    "yield", "await", "default", "extends"]

/-- The tokens before the opening bracket that belongs to a closing one, all last token first. -/
def beforeOpening : Nat → List Token → List Token
  | _, [] => []
  | depth, t :: rest =>
      match t.kind, depth with
      | .closing, _ => beforeOpening (depth + 1) rest
      | .opening, 0 => rest
      | .opening, depth + 1 => beforeOpening depth rest
      | _, _ => beforeOpening depth rest

def isWordOf (words : List String) (t : Token) : Bool :=
  t.kind == .word && words.contains (String.ofList t.text)

/-- Do the tokens, last first, end with a value, so that a sign for division or comparison may follow? Brackets
after words such as `if` hold a condition, and a statement follows. -/
def endsValue : List Token → Bool
  | [] => false
  | t :: rest =>
      match t.kind with
      | .word => !isWordOf operatorWords t
      | .number => true
      | .string => true
      | .opening => false
      | .symbol => t.text == ['+', '+'] || t.text == ['-', '-']
      | .closing =>
          if t.text == [')'] then
            !((beforeOpening 0 rest).head?.map (isWordOf ["if", "while", "for", "with"])).getD false
          else t.text != ['\x7d']

/-- The text after a regular expression whose first slash has been read. -/
def afterPattern : Bool → Text → Option Text
  | _, [] => none
  | _, '\n' :: _ => none
  | inClass, '\\' :: _ :: rest => afterPattern inClass rest
  | _, '[' :: rest => afterPattern true rest
  | _, ']' :: rest => afterPattern false rest
  | false, '/' :: rest => some (rest.dropWhile continuesName)
  | inClass, _ :: rest => afterPattern inClass rest

def afterNumber (t : Text) : Text :=
  let digits := t.takeWhile fun c => continuesWord c || c == '.'
  let rest := t.dropWhile fun c => continuesWord c || c == '.'
  let isHex := ['0', 'x'].isPrefixOf digits || ['0', 'X'].isPrefixOf digits
  match digits.getLast?, rest with
  | some e, sign :: more =>
      if !isHex && (e == 'e' || e == 'E') && (sign == '+' || sign == '-') then more.dropWhile continuesWord
      else rest
  | _, _ => rest

/-- Does a tag start here? A name in angle brackets that a comma or a bound follows is a type
parameter. -/
def startsTag (afterAngle : Text) : Bool :=
  match afterAngle with
  | [] => false
  | '>' :: _ => true
  | c :: rest =>
      let after := (rest.dropWhile continuesName).dropWhile isBlank
      startsWord c && !(after.head? == some ',' || "extends ".toList.isPrefixOf after)

def State.next (s : State) (scan : Scan) : State := { s with scan }

def State.enter (s : State) (mode : Mode) (scan : Scan) : State := ⟨scan, mode :: s.modes⟩

def State.leave (s : State) (scan : Scan) : State := ⟨scan, s.modes.drop 1⟩

/-- A step after a comment; a line end inside it counts. -/
def skipComment (s : Scan) (rest : Text) : Scan :=
  let skipped := s.skipTo rest
  let comment := s.rest.take (s.rest.length - rest.length)
  if comment.contains '\n' then { skipped with fresh := true } else skipped

def symbolStep (s : Scan) : Scan :=
  match longSymbols.find? fun symbol => symbol.isPrefixOf s.rest with
  | some symbol => s.emit .symbol symbol.length
  | none => s.emit (s.rest.head?.elim .symbol bracketKind) 1

def codeStep (tagged : Bool) (s : State) : Option State :=
  let scan := s.scan
  match scan.rest with
  | [] => some s
  | '\n' :: _ => some (s.next scan.newLine)
  | '/' :: '/' :: rest => some (s.next (scan.skipTo (rest.dropWhile (· != '\n'))))
  | '/' :: '*' :: rest => (afterMark ['*', '/'] rest).map fun rest => s.next (skipComment scan rest)
  | '"' :: rest => (afterQuoted '"' rest).map fun rest => s.next (scan.emitTo .string rest)
  | '\'' :: rest => (afterQuoted '\'' rest).map fun rest => s.next (scan.emitTo .string rest)
  | '\x60' :: _ => some (s.enter .template (scan.emit .opening 1))
  | '\x7b' :: _ => some (s.enter .code (scan.emit .opening 1))
  | '\x7d' :: _ => some (s.leave (scan.emit .closing 1))
  | '/' :: rest =>
      match endsValue scan.tokens, afterPattern false rest with
      | false, some after => some (s.next (scan.emitTo .string after))
      | _, _ => some (s.next (symbolStep scan))
  | '<' :: rest =>
      if tagged && !endsValue scan.tokens && startsTag rest then some (s.enter .tag (scan.emit .opening 1))
      else some (s.next (symbolStep scan))
  | c :: rest =>
      if isBlank c then some (s.next (scan.skip 1))
      else if c == '#' && scan.position == 0 && rest.head? == some '!' then
        some (s.next (scan.skipTo (rest.dropWhile (· != '\n'))))
      else if startsName c then some (s.next (scan.emitTo .word (rest.dropWhile continuesName)))
      else if c.isDigit || (c == '.' && (rest.head?.map Char.isDigit).getD false) then
        some (s.next (scan.emitTo .number (afterNumber (c :: rest))))
      else some (s.next (symbolStep scan))

def templateStep (s : State) : Option State :=
  match s.scan.rest with
  | '\x60' :: _ => some (s.leave (s.scan.emit .closing 1))
  | '$' :: '\x7b' :: _ => some (s.enter .code ((s.scan.skip 1).emit .opening 1))
  | '\\' :: _ :: _ => some (s.next (s.scan.skip 2))
  | _ => some (s.next (s.scan.skip 1))

def tagStep (s : State) : Option State :=
  match s.scan.rest with
  | '\x7b' :: _ => some (s.enter .code (s.scan.emit .opening 1))
  | '/' :: '>' :: _ => some (s.leave (s.scan.emit .closing 2))
  | '>' :: _ => some ⟨s.scan.skip 1, .children :: s.modes.drop 1⟩
  | '"' :: rest => (afterMark ['"'] rest).map fun rest => s.next (s.scan.skipTo rest)
  | '\'' :: rest => (afterMark ['\''] rest).map fun rest => s.next (s.scan.skipTo rest)
  | _ => some (s.next (s.scan.skip 1))

def childrenStep (s : State) : Option State :=
  match s.scan.rest with
  | '<' :: '/' :: rest =>
      let name := rest.takeWhile (· != '>')
      some (s.leave ((s.scan.skip (name.length + 2)).emit .closing 1))
  | '<' :: _ => some (s.enter .tag (s.scan.emit .opening 1))
  | '\x7b' :: _ => some (s.enter .code (s.scan.emit .opening 1))
  | _ => some (s.next (s.scan.skip 1))

def step (tagged : Bool) (s : State) : Option State :=
  match s.modes with
  | .template :: _ => templateStep s
  | .tag :: _ => tagStep s
  | .children :: _ => childrenStep s
  | _ => codeStep tagged s

/-- The tokens of a source, each step taking at least one of the characters that the fuel counts. -/
def scanFrom (tagged : Bool) : Nat → State → Option (List Token)
  | 0, s => if s.scan.rest.isEmpty then some s.scan.tokens.reverse else none
  | fuel + 1, s =>
      if s.scan.rest.isEmpty then some s.scan.tokens.reverse else (step tagged s).bind (scanFrom tagged fuel)

def trees? (tagged : Bool) (source : Text) : Option (List Tree) :=
  (scanFrom tagged source.length ⟨.start source, []⟩).bind Outline.trees?

end Autofix.Outline.Ecma
