import Autofix.Json.Basic
import Autofix.Number.Decimal

/-! Reading JSON. A reader takes the text that is left and gives a value and what is left after it, or
the first fault in reading order. -/
namespace Autofix.Json

inductive Fault
  /-- The text is not JSON. -/
  | syntaxError
  /-- The text ends too early. -/
  | endOfText
  /-- The text is JSON of another shape. -/
  | shape
deriving DecidableEq, Repr

abbrev Reader (α : Type) := Text → Except Fault (α × Text)

/-- The fault of a text that goes on the wrong way, or does not go on. -/
def unexpected : Text → Fault
  | [] => .endOfText
  | _ => .syntaxError

def isSpace (c : Char) : Bool := c == ' ' || c == '\n' || c == '\t' || c == '\r'

def skipSpace (t : Text) : Text := t.dropWhile isSpace

def readWord : Text → Text → Except Fault Text
  | [], t => .ok t
  | _ :: _, [] => .error .endOfText
  | w :: word, c :: rest => if w = c then readWord word rest else .error .syntaxError

def hexValue? (c : Char) : Option Nat :=
  if '0' ≤ c ∧ c ≤ '9' then some (c.toNat - '0'.toNat)
  else if 'a' ≤ c ∧ c ≤ 'f' then some (c.toNat - 'a'.toNat + 10)
  else if 'A' ≤ c ∧ c ≤ 'F' then some (c.toNat - 'A'.toNat + 10)
  else none

def readUnit : Reader Nat
  | a :: b :: c :: d :: rest =>
      match hexValue? a, hexValue? b, hexValue? c, hexValue? d with
      | some a, some b, some c, some d => .ok (((a * 16 + b) * 16 + c) * 16 + d, rest)
      | _, _, _, _ => .error .syntaxError
  | t => .error (if Text.byteSize t < 4 then .endOfText else .syntaxError)

/-- Is the number the first half of a pair of units? -/
def isHighUnit (n : Nat) : Bool := 0xD800 ≤ n && n < 0xDC00

/-- Is the number the second half of a pair of units? -/
def isLowUnit (n : Nat) : Bool := 0xDC00 ≤ n && n < 0xE000

/-- The second half of a pair, with the mark in front of it. -/
def readLowUnit (high : Nat) : Reader Char
  | '\\' :: 'u' :: rest => do
      let (low, rest) ← readUnit rest
      if isLowUnit low then
        .ok (Char.ofNat (0x10000 + (high - 0xD800) * 0x400 + (low - 0xDC00)), rest)
      else .error .syntaxError
  | '\\' :: t => .error (unexpected t)
  | t => .error (unexpected t)

/-- A character given by its number. If `strict`, halves of pairs must come in pairs. -/
def readUnicode (strict : Bool) : Reader Char := fun t => do
  let (n, rest) ← readUnit t
  if !strict then .ok (Char.ofNat n, rest)
  else if isLowUnit n then .error .syntaxError
  else if isHighUnit n then readLowUnit n rest
  else .ok (Char.ofNat n, rest)

def readEscape (strict : Bool) : Reader Char
  | [] => .error .endOfText
  | '"' :: rest => .ok ('"', rest)
  | '\\' :: rest => .ok ('\\', rest)
  | '/' :: rest => .ok ('/', rest)
  | 'b' :: rest => .ok ('\x08', rest)
  | 'f' :: rest => .ok ('\x0c', rest)
  | 'n' :: rest => .ok ('\n', rest)
  | 'r' :: rest => .ok ('\r', rest)
  | 't' :: rest => .ok ('\t', rest)
  | 'u' :: rest => readUnicode strict rest
  | _ :: _ => .error .syntaxError

/-- The characters of a string up to its closing quote; each step takes at least one of the characters
that `fuel` counts. -/
def readChars (strict : Bool) (fuel : Nat) : Reader Text :=
  match fuel with
  | 0 => fun _ => .error .endOfText
  | fuel + 1 => fun
      | [] => .error .endOfText
      | '"' :: rest => .ok ([], rest)
      | '\\' :: rest => do
          let (c, rest) ← readEscape strict rest
          let (cs, rest) ← readChars strict fuel rest
          .ok (c :: cs, rest)
      | c :: rest => do
          if c.toNat < 0x20 then .error .syntaxError
          else
            let (cs, rest) ← readChars strict fuel rest
            .ok (c :: cs, rest)

/-- A string after its opening quote. -/
def readStringTail : Reader String := fun t => do
  let (cs, rest) ← readChars true (t.length + 1) t
  .ok (String.ofList cs, rest)

/-- A number as written. -/
structure Numeral where
  negative : Bool
  whole : Text
  /-- Has the number neither point nor exponent? -/
  isInteger : Bool
  fraction : Text
  exponent : Int
deriving DecidableEq, Repr

namespace Numeral

def toDecimal (n : Numeral) : Decimal := .ofParts n.negative n.whole n.fraction n.exponent

/-- The value, if the number is an integer of 64 bits that is not negative. -/
def natural? (n : Numeral) : Option Nat :=
  if n.isInteger && !n.negative && digitsValue n.whole < UInt64.size then some (digitsValue n.whole) else none

def overflows (n : Numeral) : Bool := n.toDecimal.toBinary .double == .infinite n.negative

end Numeral

def readDigits : Reader Text := fun t =>
  let (digits, rest) := Decimal.takeDigits t
  if digits.isEmpty then .error (unexpected t) else .ok (digits, rest)

/-- The digits before the point, without leading zeros. -/
def readWhole : Reader Text := fun t => do
  let (digits, rest) ← readDigits t
  match digits with
  | '0' :: _ :: _ => .error .syntaxError
  | _ => .ok (digits, rest)

def readExponentTail : Reader Int := fun t => do
  let (negative, rest) := Decimal.takeSign t
  let (digits, rest) ← readDigits rest
  .ok (if negative then -(digitsValue digits : Int) else digitsValue digits, rest)

def readFraction : Reader (Option Text)
  | '.' :: rest => (readDigits rest).map fun (digits, rest) => (some digits, rest)
  | t => .ok (none, t)

def readExponent : Reader (Option Int)
  | 'e' :: rest => (readExponentTail rest).map fun (n, rest) => (some n, rest)
  | 'E' :: rest => (readExponentTail rest).map fun (n, rest) => (some n, rest)
  | t => .ok (none, t)

def scanNumber : Reader Numeral := fun t => do
  let (negative, rest) := match t with
    | '-' :: rest => (true, rest)
    | _ => (false, t)
  let (whole, rest) ← readWhole rest
  let (fraction, rest) ← readFraction rest
  let (exponent, rest) ← readExponent rest
  .ok (⟨negative, whole, fraction.isNone && exponent.isNone, fraction.getD [], exponent.getD 0⟩, rest)

/-- A number that is not too large. -/
def readNumber : Reader Numeral := fun t => do
  let (n, rest) ← scanNumber t
  if n.overflows then .error .syntaxError else .ok (n, rest)

def startsNumber (c : Char) : Bool := c == '-' || c.isDigit

def readColon (t : Text) : Except Fault Text :=
  match skipSpace t with
  | ':' :: rest => .ok rest
  | t => .error (unexpected t)

/-- Is there another item before the closing bracket, and the text from there on? A comma before the first item
is left for the item's own reader to reject. -/
def nextItem (first : Bool) (t : Text) : Except Fault (Bool × Text) :=
  match skipSpace t with
  | ']' :: rest => .ok (false, ']' :: rest)
  | ',' :: rest =>
      if first then .ok (true, ',' :: rest)
      else
        match skipSpace rest with
        | [] => .error .endOfText
        | ']' :: _ => .error .syntaxError
        | t => .ok (true, t)
  | [] => .error .endOfText
  | t => if first then .ok (true, t) else .error .syntaxError

/-- The name of the next field and the text after it, or nothing before the closing brace. -/
def nextName (first : Bool) (t : Text) : Except Fault (Option String × Text) :=
  let name (t : Text) : Except Fault (Option String × Text) :=
    match t with
    | '"' :: rest => (readStringTail rest).map fun (s, rest) => (some s, rest)
    | t => .error (unexpected t)
  match skipSpace t with
  | '\x7d' :: rest => .ok (none, '\x7d' :: rest)
  | ',' :: rest => if first then .error .syntaxError else name (skipSpace rest)
  | t => if first then name t else .error (unexpected t)

/-- The items of an array after its opening bracket, each read by `item` and handed on. -/
def foldItems (item : σ → Reader σ) (fuel : Nat) (first : Bool) (s : σ) : Reader σ :=
  match fuel with
  | 0 => fun _ => .error .endOfText
  | fuel + 1 => fun t => do
      let (more, rest) ← nextItem first t
      if more then
        let (s, rest) ← item s rest
        foldItems item fuel false s rest
      else .ok (s, rest.drop 1)

/-- The fields of an object after its opening brace, each read by `field` from behind its name. -/
def foldFields (field : σ → String → Reader σ) (fuel : Nat) (first : Bool) (s : σ) : Reader σ :=
  match fuel with
  | 0 => fun _ => .error .endOfText
  | fuel + 1 => fun t => do
      let (name, rest) ← nextName first t
      match name with
      | none => .ok (s, rest.drop 1)
      | some name =>
          let (s, rest) ← field s name rest
          foldFields field fuel false s rest

/-- The text after a value whose shape does not matter. Halves of pairs and large numbers are not
looked at. -/
def skipValue (fuel : Nat) (t : Text) : Except Fault Text :=
  match fuel with
  | 0 => .error .endOfText
  | fuel + 1 =>
      match skipSpace t with
      | [] => .error .endOfText
      | 'n' :: rest => readWord "ull".toList rest
      | 't' :: rest => readWord "rue".toList rest
      | 'f' :: rest => readWord "alse".toList rest
      | '"' :: rest => (readChars false (rest.length + 1) rest).map Prod.snd
      | '[' :: rest =>
          (foldItems (fun _ t => (skipValue fuel t).map ((), ·)) (rest.length + 1) true () rest).map
            Prod.snd
      | '\x7b' :: rest => do
          (foldFields (fun _ _ t => do
            let t ← readColon t
            (skipValue fuel t).map ((), ·)) (rest.length + 1) true () rest).map Prod.snd
      | c :: rest =>
          if startsNumber c then (scanNumber (c :: rest)).map Prod.snd else .error .syntaxError

/-- The fault of a value of another shape than the wanted one, once the value starts well. -/
def wrongShape (t : Text) : Fault :=
  let faultOf {α : Type} (r : Except Fault α) : Fault :=
    match r with
    | .ok _ => .shape
    | .error fault => fault
  match t with
  | [] => .endOfText
  | 'n' :: rest => faultOf (readWord "ull".toList rest)
  | 't' :: rest => faultOf (readWord "rue".toList rest)
  | 'f' :: rest => faultOf (readWord "alse".toList rest)
  | '"' :: rest => faultOf (readStringTail rest)
  | '[' :: _ => .shape
  | '\x7b' :: _ => .shape
  | c :: rest => if startsNumber c then faultOf (readNumber (c :: rest)) else .syntaxError

/-- A value of any shape, of less than the given depth. -/
def readValue (depth : Nat) : Reader Json := fun t =>
  match skipSpace t with
  | [] => .error .endOfText
  | 'n' :: rest => (readWord "ull".toList rest).map (Json.null, ·)
  | 't' :: rest => (readWord "rue".toList rest).map (Json.bool true, ·)
  | 'f' :: rest => (readWord "alse".toList rest).map (Json.bool false, ·)
  | '"' :: rest => (readStringTail rest).map fun (s, rest) => (.string s, rest)
  | '[' :: rest =>
      match depth with
      | 0 => .error .syntaxError
      | depth + 1 =>
          (foldItems (fun items t => (readValue depth t).map fun (v, rest) => (v :: items, rest))
            (rest.length + 1) true [] rest).map fun (items, rest) => (.array items.reverse, rest)
  | '\x7b' :: rest =>
      match depth with
      | 0 => .error .syntaxError
      | depth + 1 =>
          (foldFields (fun fields name t => do
            let t ← readColon t
            (readValue depth t).map fun (v, rest) => ((name, v) :: fields, rest))
            (rest.length + 1) true [] rest).map fun (fields, rest) => (.object fields.reverse, rest)
  | c :: rest =>
      if startsNumber c then
        (readNumber (c :: rest)).map fun (_, after) =>
          (.number (String.ofList ((c :: rest).take (rest.length + 1 - after.length))), after)
      else .error .syntaxError

/-- The greatest depth of nested arrays and objects. -/
def maxDepth : Nat := 127

def readAll (reader : Reader α) (t : Text) : Except Fault α := do
  let (a, rest) ← reader t
  if (skipSpace rest).isEmpty then .ok a else .error .syntaxError

def parse (text : String) : Except Fault Json := readAll (readValue maxDepth) text.toList

def numeral? (literal : String) : Option Numeral :=
  (readAll readNumber literal.toList).toOption

end Autofix.Json
