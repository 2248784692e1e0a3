import Autofix.Number.Decimal
import Autofix.Text.Blank
import Autofix.Time.Date

/-! Points in time, as they are written with a date, a time of day and an offset. -/
namespace Autofix

/-- A point in time: whole seconds from the start of 1970 and nanoseconds. A leap second is the second
before it with a thousand million nanoseconds more. -/
structure Timestamp where
  seconds : Int
  nanos : Nat
deriving DecidableEq, Repr

namespace Timestamp

def nanosPerSecond : Nat := 1000000000

def secondsPerDay : Int := 86400

def lt (a b : Timestamp) : Bool :=
  a.seconds < b.seconds || (a.seconds == b.seconds && a.nanos < b.nanos)

/-- A number padded with zeros. -/
def padded (width n : Nat) : Text :=
  List.replicate (width - (digitsOf n).length) '0' ++ digitsOf n

/-- A year; one that has not four digits is written with a sign. -/
def yearText (year : Int) : Text :=
  if 0 ≤ year ∧ year ≤ 9999 then padded 4 year.toNat
  else (if year < 0 then '-' else '+') :: padded 4 year.natAbs

def fractionText (places nanos : Nat) : Text :=
  if places = 0 then [] else '.' :: padded places (nanos / Nat.pow 10 (9 - places))

/-- The fewest places, three at a time, that are exact. -/
def exactPlaces (nanos : Nat) : Nat :=
  if nanos = 0 then 0
  else if nanos % 1000000 = 0 then 3
  else if nanos % 1000 = 0 then 6
  else 9

def render (places : Nat → Nat) (t : Timestamp) : Text :=
  let date := Date.ofDayNumber (t.seconds / secondsPerDay + Date.epochDay)
  let second := (t.seconds % secondsPerDay).toNat
  let leap := t.nanos / nanosPerSecond
  let nanos := t.nanos % nanosPerSecond
  yearText date.year ++ '-' :: padded 2 date.month ++ '-' :: padded 2 date.day ++
    'T' :: padded 2 (second / 3600) ++ ':' :: padded 2 (second / 60 % 60) ++
    ':' :: padded 2 (second % 60 + leap) ++ fractionText (places nanos) nanos

def withOffset (t : Timestamp) : String := String.ofList (t.render exactPlaces ++ "+00:00".toList)

def text (t : Timestamp) : String := String.ofList (t.render exactPlaces ++ ['Z'])

/-- The text as part of a file name: milliseconds, and dashes for colons. -/
def fileText (t : Timestamp) : String :=
  String.ofList (Text.replaceChars (· == ':') '-' (t.render (fun _ => 3) ++ ['Z']))

/-- A number of one digit up to `width` digits after blanks, and what follows it. -/
def readNumber? (width : Nat) (t : Text) : Option (Nat × Text) :=
  let t := Text.trimStart t
  let digits := (t.takeWhile Char.isDigit).take width
  if digits.isEmpty then none else some (digitsValue digits, t.drop digits.length)

/-- A year: up to four digits, or a sign and any number of them. -/
def readYear? (t : Text) : Option (Int × Text) :=
  match Text.trimStart t with
  | '-' :: rest => (signed rest).map fun (n, rest) => (-(n : Int), rest)
  | '+' :: rest => (signed rest).map fun (n, rest) => ((n : Int), rest)
  | t => (readNumber? 4 t).map fun (n, rest) => ((n : Int), rest)
where
  signed (t : Text) : Option (Nat × Text) :=
    let (digits, rest) := Decimal.takeDigits t
    if digits.isEmpty then none else some (digitsValue digits, rest)

def readMark? (mark : Char) (t : Text) : Option Text :=
  match Text.trimStart t with
  | c :: rest => if c = mark then some rest else none
  | [] => none

def readDate? (t : Text) : Option (Date × Text) := do
  let (year, t) ← readYear? t
  let t ← readMark? '-' t
  let (month, t) ← readNumber? 2 t
  let t ← readMark? '-' t
  let (day, t) ← readNumber? 2 t
  return (⟨year, month, day⟩, t)

/-- A fraction of a second in nanoseconds; digits after the ninth are passed over. -/
def readFraction? : Text → Option (Nat × Text)
  | '.' :: t =>
      let (digits, rest) := Decimal.takeDigits t
      let kept := digits.take 9
      if digits.isEmpty then none else some (digitsValue kept * Nat.pow 10 (9 - kept.length), rest)
  | t => some (0, t)

/-- A time of day and its nanoseconds. A sixtieth second is the fifty-ninth with its nanoseconds past the
thousand million. -/
def readClock? (t : Text) : Option ((Nat × Nat) × Text) := do
  let (hour, t) ← readNumber? 2 t
  let t ← readMark? ':' t
  let (minute, t) ← readNumber? 2 t
  let t ← readMark? ':' t
  let (second, t) ← readNumber? 2 t
  let (nanos, t) ← readFraction? t
  if hour < 24 ∧ minute < 60 ∧ second ≤ 60 then
    let leap := second / 60
    return ((hour * 3600 + minute * 60 + second - leap, nanos + leap * nanosPerSecond), t)
  else none

/-- Two digits that stand for a number less than `bound`. -/
def readPair? (bound : Nat) : Text → Option (Nat × Text)
  | a :: b :: rest =>
      if a.isDigit && b.isDigit && digitsValue [a, b] < bound then some (digitsValue [a, b], rest) else none
  | _ => none

/-- Hours and minutes in seconds, with any blanks and colons between them. -/
def readOffset? (t : Text) : Option (Int × Text) := do
  let (hours, t) ← readPair? 24 t
  let (minutes, t) ← readPair? 60 (t.dropWhile fun c => c == ':' || isBlank c)
  return (((hours * 60 + minutes) * 60 : Nat), t)

/-- An offset: `UTC`, `Z`, or hours and minutes with a sign. -/
def readZone? (t : Text) : Option (Int × Text) :=
  if Text.toAsciiLower (t.take 3) = "utc".toList then some (0, t.drop 3)
  else
    match t with
    | 'Z' :: rest => some (0, rest)
    | 'z' :: rest => some (0, rest)
    | '+' :: rest => readOffset? rest
    | '-' :: rest => (readOffset? rest).map fun (n, rest) => (-n, rest)
    | '−' :: rest => (readOffset? rest).map fun (n, rest) => (-n, rest)
    | _ => none

/-- Is the date one that can be reckoned with? -/
def inCalendar (d : Date) : Bool := d.isValid && -262143 ≤ d.year && d.year ≤ 262142

/-- The point in time that a text stands for: date and time of day with a `T` or a blank between them, then an
offset. Both the written date and the one that the offset leads to must be dates that can be reckoned with. -/
def parse? (text : String) : Option Timestamp := do
  let (date, t) ← readDate? text.toList
  let t ← match t with
    | c :: rest => if c = 'T' ∨ c = 't' ∨ c = ' ' then some rest else none
    | [] => none
  let ((second, nanos), t) ← readClock? t
  let (offset, t) ← readZone? (Text.trimStart t)
  let seconds := (date.dayNumber - Date.epochDay) * secondsPerDay + second - offset
  if Text.isBlankText t ∧ inCalendar date ∧
      inCalendar (Date.ofDayNumber (seconds / secondsPerDay + Date.epochDay)) then
    some ⟨seconds, nanos⟩
  else none

end Timestamp
end Autofix
