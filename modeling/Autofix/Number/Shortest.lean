import Autofix.Number.Decimal

/-! The fewest decimal digits that read back as a given binary number, and the ways to lay digits
out. -/
namespace Autofix

/-- Digits and the place of the decimal point: the value is `0.digits * 10 ^ point`. -/
structure Digits where
  digits : Text
  point : Int
deriving DecidableEq, Repr

/-- Where a number goes that lies halfway between two neighbours: up, or to the even one. -/
inductive Tie
  | up
  | toEven
deriving DecidableEq, Repr

namespace Shortest

/-- The fractions that round to a binary number: a lower and an upper end, part of the interval if
`closed`. -/
structure Interval where
  low : Ratio
  high : Ratio
  closed : Bool

def ratioLt (r s : Ratio) : Bool := r.num * s.den < s.num * r.den

def Interval.holds (i : Interval) (r : Ratio) : Bool :=
  if i.closed then !ratioLt r i.low && !ratioLt i.high r else ratioLt i.low r && ratioLt r i.high

/-- The interval of a number of a format. Below the least mantissa of an exponent the numbers lie
twice as close. -/
def interval (format : Format) (mantissa : Nat) (exponent : Int) : Interval :=
  let tight := mantissa == 1 <<< (format.precision - 1) && format.minExponent < exponent
  { low := if tight then Ratio.scaled (4 * mantissa - 1) 2 (exponent - 2)
           else Ratio.scaled (2 * mantissa - 1) 2 (exponent - 1)
    high := Ratio.scaled (2 * mantissa + 1) 2 (exponent - 1)
    closed := mantissa % 2 == 0 }

/-- The number of digits before the decimal point of a positive fraction; negative if zeros follow the
point first. -/
def pointOf (r : Ratio) : Int :=
  let guess : Int := ((digitsOf r.num).length : Int) - (digitsOf r.den).length
  let unit := Ratio.scaled 1 10 guess
  if ratioLt r unit then guess else guess + 1

/-- Is the lower of two neighbours the better one? The fraction is twice the distance to it, in parts of
the distance between them. -/
def prefersBelow (tie : Tie) (below : Nat) (r : Ratio) : Bool :=
  r.num < r.den || (r.num == r.den && tie == .toEven && below % 2 == 0)

/-- The multiple of `10 ^ (point - count)` next to the fraction that lies in the interval, the nearer
one if both neighbours do. -/
def onGrid? (tie : Tie) (i : Interval) (r : Ratio) (point : Int) (count : Nat) : Option Nat :=
  let unit := Ratio.scaled 1 10 (point - count)
  let quotient : Ratio := ⟨r.num * unit.den, r.den * unit.num⟩
  let below := quotient.num / quotient.den
  let value (n : Nat) := Ratio.scaled n 10 (point - count)
  let nearer := if prefersBelow tie below ⟨2 * (quotient.num % quotient.den), quotient.den⟩
    then [below, below + 1] else [below + 1, below]
  nearer.find? fun n => i.holds (value n)

/-- The first grid with a hit, from `count` digits on. -/
def search (tie : Tie) (i : Interval) (r : Ratio) (point : Int) : Nat → Nat → Nat × Nat
  | count, 0 => ((onGrid? tie i r point count).getD 0, count)
  | count, more + 1 =>
      match onGrid? tie i r point count with
      | some n => (n, count)
      | none => search tie i r point (count + 1) more

/-- The fewest digits that read back as the number of the format, and of those the nearest. Seventeen digits
tell any two numbers of a format apart. -/
def digits (tie : Tie) (format : Format) (mantissa : Nat) (exponent : Int) : Digits :=
  if mantissa = 0 then ⟨['0'], 1⟩
  else
    let r := Ratio.scaled mantissa 2 exponent
    let point := pointOf r
    let (n, count) := search tie (interval format mantissa exponent) r point 1 16
    let written := digitsOf n
    ⟨written.reverse.dropWhile (· == '0') |>.reverse, point + (written.length - count : Int)⟩

end Shortest

namespace Digits

def zeros (n : Int) : Text := List.replicate n.toNat '0'

/-- All digits written out, without exponent; a fraction part only if there is one. -/
def positional (d : Digits) : Text :=
  if d.point ≤ 0 then ['0', '.'] ++ zeros (-d.point) ++ d.digits
  else if (d.digits.length : Int) ≤ d.point then d.digits ++ zeros (d.point - d.digits.length)
  else d.digits.take d.point.toNat ++ ['.'] ++ d.digits.drop d.point.toNat

/-- One digit before the point, and an exponent. -/
def scientific (d : Digits) : Text :=
  let exponent := d.point - 1
  let fraction := if d.digits.length ≤ 1 then [] else '.' :: d.digits.drop 1
  d.digits.take 1 ++ fraction ++ ['e'] ++ (if exponent < 0 then ['-'] else []) ++
    digitsOf exponent.natAbs

end Digits

/-- A fraction with two decimal places, a tie going to the even neighbour. -/
def twoPlaces (r : Ratio) : Text :=
  let hundredths := Ratio.nearest ⟨100 * r.num, r.den⟩
  let cents := digitsOf (hundredths % 100)
  digitsOf (hundredths / 100) ++ ['.'] ++ List.replicate (2 - cents.length) '0' ++ cents

end Autofix
