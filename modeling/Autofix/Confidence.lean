import Autofix.Number.Shortest

/-! Confidence: a number of 32 bits that says how sure a fixer is of its fix. -/
namespace Autofix

/-- A confidence, meant to lie between 0 and 1. -/
structure Confidence where
  value : Binary
deriving DecidableEq, Repr

namespace Confidence

def ofDecimal (d : Decimal) : Confidence := ⟨d.toBinary .single⟩

def hundredths (n : Nat) : Confidence := ofDecimal ⟨false, n, -2⟩

/-- The words for numbers that are not finite, in lower case. -/
def wordValue? (word : Text) : Option (Bool → Binary) :=
  if word = "inf".toList ∨ word = "infinity".toList then some .infinite
  else if word = "nan".toList then some fun _ => .nan
  else none

/-- A confidence as written on a command line: a decimal, or an infinity or `nan` in any case, with or
without a sign. -/
def parse? (text : String) : Option Confidence :=
  let (negative, word) := Decimal.takeSign text.toList
  match wordValue? (Text.toAsciiLower word) with
  | some value => some ⟨value negative⟩
  | none => (Decimal.read? text.toList).map ofDecimal

/-- Is the first confidence less than the second? Nothing is less or greater than `nan`. -/
def lt (c d : Confidence) : Bool := c.value.lt d.value

def zero : Confidence := hundredths 0

def one : Confidence := hundredths 100

def inRange (c : Confidence) : Bool :=
  c.value != .nan && !c.lt zero && !one.lt c

def sign (negative : Bool) : Text := if negative then ['-'] else []

def render (layout : Nat → Int → Text) (c : Confidence) : String :=
  String.ofList <| match c.value with
    | .nan => "NaN".toList
    | .infinite negative => sign negative ++ "inf".toList
    | .finite negative mantissa exponent => sign negative ++ layout mantissa exponent

/-- The fewest digits that read back, written without an exponent; a tie goes up. -/
def text (c : Confidence) : String :=
  c.render fun mantissa exponent => (Shortest.digits .up .single mantissa exponent).positional

/-- Two decimal places. -/
def fixed (c : Confidence) : String :=
  c.render fun mantissa exponent => twoPlaces (Ratio.scaled mantissa 2 exponent)

/-- The fewest digits that read back, with a point or an exponent: positional while the point lies
between five zeros after it and the thirteenth digit. A tie goes to the even digit. -/
def literalLayout (mantissa : Nat) (exponent : Int) : Text :=
  let d := Shortest.digits .toEven .single mantissa exponent
  if -6 < d.point ∧ d.point ≤ 13 then
    if (d.digits.length : Int) ≤ d.point then d.positional ++ ['.', '0'] else d.positional
  else d.scientific

/-- The number as JSON writes it; there is no literal for numbers that are not finite. -/
def literal? (c : Confidence) : Option String :=
  match c.value with
  | .finite .. => some (c.render literalLayout)
  | _ => none

end Confidence
end Autofix
