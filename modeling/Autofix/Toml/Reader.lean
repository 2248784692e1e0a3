import Autofix.Toml.Scalar

/-! Reading TOML documents. -/
namespace Autofix.Toml

/-- How deep values may be nested, and how many parts a key may have. -/
def maxDepth : Nat := 79

/-- May the character stand in a key without quotes? -/
def isBare (c : Char) : Bool := c.isAlphanum || c == '_' || c == '-'

def readKeyPart (t : Text) : Option (String × Text) :=
  match t with
  | '"' :: _ => readLineString t
  | '\'' :: _ => readLineString t
  | _ =>
      let bare := t.takeWhile isBare
      if bare.isEmpty then none else some (String.ofList bare, t.dropWhile isBare)

/-- The parts of a dotted key with blanks around them. -/
def readKeyParts : Nat → Reader (List String)
  | 0, _ => none
  | fuel + 1, t => do
      let (part, t) ← readKeyPart (skipSpace t)
      match skipSpace t with
      | '.' :: rest =>
          let (parts, rest) ← readKeyParts fuel rest
          return (part :: parts, rest)
      | rest => return ([part], rest)

def readKey (t : Text) : Option (List String × Text) := readKeyParts maxDepth t

def afterComment : Text → Text
  | '#' :: rest => rest.dropWhile isPlain
  | t => t

/-- The text after blanks, comments and line ends; a comment must have a line end. -/
def skipFiller : Nat → Text → Option Text
  | 0, t => some t
  | fuel + 1, t =>
      match skipSpace t with
      | '#' :: rest => (afterNewline? (rest.dropWhile isPlain)).bind (skipFiller fuel)
      | '\n' :: rest => skipFiller fuel rest
      | '\r' :: '\n' :: rest => skipFiller fuel rest
      | t => some t

/-- The text after blanks, comments and line ends. -/
def afterFiller? (t : Text) : Option Text := skipFiller (t.length + 1) t

mutual

/-- A value; `depth` bounds how deep it may be nested. -/
def readValue : Nat → Nat → Reader Toml
  | 0, _, _ => none
  | fuel + 1, depth, t =>
      match t, depth with
      | '[' :: rest, depth + 1 => do
          let (items, rest) ← readItems fuel depth rest
          return (.array items, rest)
      | '\x7b' :: rest, depth + 1 => do
          match skipSpace rest with
          | '\x7d' :: rest => return (.table .braces [], rest)
          | rest =>
              let (fields, rest) ← readPairs fuel depth [] rest
              return (.table .braces fields, rest)
      | _, _ => readScalar t

def readItems : Nat → Nat → Reader (List Toml)
  | 0, _, _ => none
  | fuel + 1, depth, t => do
      match ← afterFiller? t with
      | ']' :: rest => return ([], rest)
      | t =>
          let (item, t) ← readValue fuel depth t
          match ← afterFiller? t with
          | ',' :: rest =>
              let (items, rest) ← readItems fuel depth rest
              return (item :: items, rest)
          | ']' :: rest => return ([item], rest)
          | _ => none

/-- The fields of a table in braces from a key on. -/
def readPairs : Nat → Nat → Fields → Reader Fields
  | 0, _, _, _ => none
  | fuel + 1, depth, fields, t => do
      let (key, t) ← readKey t
      let t ← afterMark? '=' t
      let (value, t) ← readValue fuel depth (skipSpace t)
      let fields ← addKey key value .braces fields
      match skipSpace t with
      | ',' :: rest => readPairs fuel depth fields rest
      | '\x7d' :: rest => return (fields, rest)
      | _ => none

end

/-- The text after what may follow a statement on its line. -/
def afterStatement? (t : Text) : Option Text :=
  match afterComment (skipSpace t) with
  | [] => some []
  | t => afterNewline? t

structure Draft where
  document : Fields := []
  header : List String := []

def readHeader (closing : Text) (enter : List String → Fields → Option Fields) (draft : Draft) (t : Text) :
    Option (Draft × Text) := do
  let (path, t) ← readKey t
  if closing.isPrefixOf t then
    let document ← enter path draft.document
    return (⟨document, path⟩, t.drop closing.length)
  else none

def readPair (draft : Draft) (t : Text) : Option (Draft × Text) := do
  let (path, t) ← readKey t
  let t ← afterMark? '=' t
  let t := skipSpace t
  let (value, t) ← readValue (2 * t.length + 2) maxDepth t
  let document ← addBelow draft.header path value draft.document
  return ({ draft with document }, t)

def readStatement (draft : Draft) (t : Text) : Option (Draft × Text) :=
  match t with
  | '[' :: '[' :: rest => readHeader [']', ']'] openElement draft rest
  | '[' :: rest => readHeader [']'] openTable draft rest
  | _ => readPair draft t

def readStatements : Nat → Draft → Text → Option Fields
  | 0, _, _ => none
  | fuel + 1, draft, t =>
      match skipSpace t with
      | [] => some draft.document
      | t =>
          match t, afterNewline? t with
          | _, some rest => readStatements fuel draft rest
          | '#' :: _, none => (afterStatement? t).bind (readStatements fuel draft)
          | _, none => do
              let (draft, t) ← readStatement draft t
              readStatements fuel draft (← afterStatement? t)

/-- The fields of a whole document, which may start with a byte order mark. -/
def parse? (t : Text) : Option Fields :=
  let t := if t.head? = some '\uFEFF' then t.drop 1 else t
  readStatements (t.length + 1) {} t

end Autofix.Toml
