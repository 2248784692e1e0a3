import Autofix.Json.Reader
import Autofix.Number.Decimal
import Autofix.Time.Date
import Autofix.Toml.Basic

/-! Readers of TOML strings, numbers, dates and times. A reader gives a value and what follows it. -/
namespace Autofix.Toml

abbrev Reader (α : Type) := Text → Option (α × Text)

/-- Is the character a blank inside a line? -/
def isSpace (c : Char) : Bool := c == ' ' || c == '\t'

def skipSpace (t : Text) : Text := t.dropWhile isSpace

def afterNewline? : Text → Option Text
  | '\n' :: rest => some rest
  | '\r' :: '\n' :: rest => some rest
  | _ => none

def isPlain (c : Char) : Bool := c == '\t' || (0x20 ≤ c.toNat && c.toNat != 0x7F)

def charOf? (digits : Text) : Option Char := do
  let values ← digits.mapM Json.hexValue?
  let n := values.foldl (fun n d => 16 * n + d) 0
  if h : n.isValidChar then some (Char.ofNatAux n h) else none

def readEscape : Reader Char
  | 'b' :: rest => some ('\x08', rest)
  | 't' :: rest => some ('\t', rest)
  | 'n' :: rest => some ('\n', rest)
  | 'f' :: rest => some ('\x0c', rest)
  | 'r' :: rest => some ('\r', rest)
  | '"' :: rest => some ('"', rest)
  | '\\' :: rest => some ('\\', rest)
  | 'u' :: rest => if rest.length < 4 then none else (charOf? (rest.take 4)).map (·, rest.drop 4)
  | 'U' :: rest => if rest.length < 8 then none else (charOf? (rest.take 8)).map (·, rest.drop 8)
  | _ => none

/-- A string on one line after its opening quote; `escapes` says whether backslashes have a meaning. -/
def readLine (escapes : Bool) (quote : Char) : Nat → Reader Text
  | 0, _ => none
  | _, [] => none
  | fuel + 1, c :: rest =>
      if c = quote then some ([], rest)
      else if c = '\\' ∧ escapes then do
        let (e, rest) ← readEscape rest
        let (more, rest) ← readLine escapes quote fuel rest
        return (e :: more, rest)
      else if isPlain c then do
        let (more, rest) ← readLine escapes quote fuel rest
        return (c :: more, rest)
      else none

/-- The text after a backslash, blanks, a line end and all blanks and line ends that follow. -/
def afterFoldedLine? (t : Text) : Option Text :=
  (afterNewline? (skipSpace t)).map skipLines
where
  skipLines : Text → Text
    | ' ' :: rest => skipLines rest
    | '\t' :: rest => skipLines rest
    | '\n' :: rest => skipLines rest
    | '\r' :: '\n' :: rest => skipLines rest
    | t => t

/-- A string on several lines after its three opening quotes. Up to two quotes may stand inside it, also
right before its end. -/
def readLines (escapes : Bool) (quote : Char) : Nat → Reader Text
  | 0, _ => none
  | _, [] => none
  | fuel + 1, c :: rest =>
      let quotes := ((c :: rest).takeWhile (· == quote)).length
      if 3 ≤ quotes then
        let inside := min (quotes - 3) 2
        some (List.replicate inside quote, (c :: rest).drop (inside + 3))
      else if c = '\\' ∧ escapes then
        match afterFoldedLine? rest with
        | some rest => readLines escapes quote fuel rest
        | none => do
            let (e, rest) ← readEscape rest
            let (more, rest) ← readLines escapes quote fuel rest
            return (e :: more, rest)
      else
        match afterNewline? (c :: rest) with
        | some rest => (readLines escapes quote fuel rest).map fun (more, rest) => ('\n' :: more, rest)
        | none =>
            if isPlain c then (readLines escapes quote fuel rest).map fun (more, rest) => (c :: more, rest)
            else none

def readLineString : Reader String
  | c :: rest =>
      if c = '"' ∨ c = '\'' then
        (readLine (c == '"') c (rest.length + 1) rest).map fun (s, rest) => (String.ofList s, rest)
      else none
  | [] => none

def readString : Reader String
  | a :: b :: c :: rest =>
      if (a = '"' ∨ a = '\'') ∧ b = a ∧ c = a then
        let rest := (afterNewline? rest).getD rest
        (readLines (a == '"') a (rest.length + 1) rest).map fun (s, rest) => (String.ofList s, rest)
      else readLineString (a :: b :: c :: rest)
  | t => readLineString t

/-- A run of digits of some kind, with single underscores between them left out. -/
def digitRun (isDigit : Char → Bool) : Text → Text × Text
  | [] => ([], [])
  | c :: rest =>
      if isDigit c then
        let (digits, rest) := digitRun isDigit rest
        (c :: digits, rest)
      else if c = '_' ∧ (rest.head?.map isDigit).getD false then digitRun isDigit rest
      else ([], c :: rest)

def readDigits (isDigit : Char → Bool) (t : Text) : Option (Text × Text) :=
  if (t.head?.map isDigit).getD false then some (digitRun isDigit t) else none

/-- A sign and a whole number without leading zeros. -/
def readWhole (t : Text) : Option ((Bool × Text) × Text) :=
  let (negative, t) := Decimal.takeSign t
  match t with
  | '0' :: rest => some ((negative, ['0']), rest)
  | _ => (readDigits Char.isDigit t).map fun (digits, rest) => ((negative, digits), rest)

def readExponent : Reader Int
  | c :: rest =>
      if c = 'e' ∨ c = 'E' then
        let (negative, rest) := Decimal.takeSign rest
        (readDigits Char.isDigit rest).map fun (digits, rest) =>
          (if negative then -(digitsValue digits : Int) else digitsValue digits, rest)
      else none
  | [] => none

/-- What makes a number a float: a fraction, an exponent or both. -/
def readFraction : Reader (Text × Int)
  | '.' :: rest => do
      let (digits, rest) ← readDigits Char.isDigit rest
      match readExponent rest with
      | some (exponent, rest) => some ((digits, exponent), rest)
      | none => if rest.head? = some 'e' ∨ rest.head? = some 'E' then none else some ((digits, 0), rest)
  | t => (readExponent t).map fun (exponent, rest) => (([], exponent), rest)

/-- A float in digits; one that is too large is refused, unless it is negative. -/
def readFloat (t : Text) : Option (Toml × Text) := do
  let ((negative, whole), rest) ← readWhole t
  let ((fraction, exponent), rest) ← readFraction rest
  let value := (Decimal.ofParts negative whole fraction exponent).toBinary .double
  if value = .infinite false then none else some (.float value, rest)

/-- The words for floats that are not finite. -/
def readSpecial (t : Text) : Option (Toml × Text) :=
  let (negative, t) := Decimal.takeSign t
  match t with
  | 'i' :: 'n' :: 'f' :: rest => some (.float (.infinite negative), rest)
  | 'n' :: 'a' :: 'n' :: rest => some (.float .nan, rest)
  | _ => none

/-- Is the number one of 64 bits with a sign? -/
def isWord (n : Int) : Bool := Int64.minValue.toInt ≤ n && n ≤ Int64.maxValue.toInt

/-- An integer in digits of a base. -/
def readBased (base : Nat) (t : Text) : Option (Toml × Text) := do
  let isDigit (c : Char) : Bool := ((Json.hexValue? c).map (decide <| · < base)).getD false
  let (digits, rest) ← readDigits isDigit t
  let n : Nat := digits.foldl (fun n c => base * n + (Json.hexValue? c).getD 0) 0
  if isWord n then some (.integer n, rest) else none

def readInteger (t : Text) : Option (Toml × Text) :=
  match t with
  | '0' :: 'x' :: rest => readBased 16 rest
  | '0' :: 'o' :: rest => readBased 8 rest
  | '0' :: 'b' :: rest => readBased 2 rest
  | _ => do
      let ((negative, digits), rest) ← readWhole t
      let n : Int := if negative then -(digitsValue digits : Int) else digitsValue digits
      if isWord n then some (.integer n, rest) else none

/-- A number of exactly `width` digits between two bounds. -/
def readField (width low high : Nat) (t : Text) : Option (Nat × Text) :=
  let digits := t.take width
  if digits.length = width ∧ digits.all Char.isDigit ∧ low ≤ digitsValue digits ∧ digitsValue digits ≤ high then
    some (digitsValue digits, t.drop width)
  else none

def afterMark? (mark : Char) : Text → Option Text
  | c :: rest => if c = mark then some rest else none
  | [] => none

def afterClock? (t : Text) : Option Text := do
  let (_, t) ← readField 2 0 23 t
  let t ← afterMark? ':' t
  let (_, t) ← readField 2 0 59 t
  let t ← afterMark? ':' t
  let (_, t) ← readField 2 0 60 t
  match t with
  | '.' :: rest => if (rest.head?.map Char.isDigit).getD false then some (rest.dropWhile Char.isDigit) else some t
  | t => some t

/-- The text after an offset, if there is one. -/
def afterOffset? : Text → Option Text
  | 'Z' :: rest => some rest
  | 'z' :: rest => some rest
  | c :: rest =>
      if c = '+' ∨ c = '-' then do
        let (_, t) ← readField 2 0 23 rest
        let t ← afterMark? ':' t
        let (_, t) ← readField 2 0 59 t
        return t
      else some (c :: rest)
  | [] => some []

def afterDate? (t : Text) : Option Text := do
  let (year, t) ← readField 4 0 9999 t
  let t ← afterMark? '-' t
  let (month, t) ← readField 2 1 12 t
  let t ← afterMark? '-' t
  let (day, t) ← readField 2 1 31 t
  if (⟨year, month, day⟩ : Date).isValid then some t else none

def afterDateClock? : Text → Option Text
  | c :: rest => if c = 'T' ∨ c = 't' ∨ c = ' ' then afterClock? rest else none
  | [] => none

/-- The text after a date, a time or both. -/
def afterMoment? (t : Text) : Option Text :=
  match afterDate? t with
  | some rest =>
      match afterDateClock? rest with
      | some rest => afterOffset? rest
      | none => some rest
  | none => afterClock? t

def readNumber (t : Text) : Option (Toml × Text) :=
  match afterMoment? t with
  | some rest => some (.moment, rest)
  | none => ((readFloat t).or (readSpecial t)).or (readInteger t)

def readScalar (t : Text) : Option (Toml × Text) :=
  match t with
  | '"' :: _ => (readString t).map fun (s, rest) => (.string s, rest)
  | '\'' :: _ => (readString t).map fun (s, rest) => (.string s, rest)
  | 't' :: 'r' :: 'u' :: 'e' :: rest => some (.bool true, rest)
  | 'f' :: 'a' :: 'l' :: 's' :: 'e' :: rest => some (.bool false, rest)
  | _ => readNumber t

end Autofix.Toml
