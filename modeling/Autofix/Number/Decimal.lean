import Autofix.Number.Binary
import Autofix.Text.Basic

/-! Decimal literals and their nearest binary numbers. -/
namespace Autofix

def digitValue (c : Char) : Nat := c.toNat - '0'.toNat

def digitsValue (digits : Text) : Nat := digits.foldl (fun n c => 10 * n + digitValue c) 0

def digitsOf (n : Nat) : Text := Nat.toDigits 10 n

/-- The decimal `± digits * 10 ^ exponent`. -/
structure Decimal where
  negative : Bool
  digits : Nat
  exponent : Int
deriving DecidableEq, Repr

namespace Decimal

/-- No number of either format reaches this power of ten, and none but zero is as small as its
inverse. -/
def decimalBound : Int := 400

/-- The nearest number of a format. Decimals far outside the formats are not multiplied out. -/
def toBinary (format : Format) (d : Decimal) : Binary :=
  let magnitude : Int := (digitsOf d.digits).length + d.exponent
  if d.digits = 0 ∨ magnitude < -decimalBound then .finite d.negative 0 format.minExponent
  else if decimalBound < magnitude then .infinite d.negative
  else Binary.round format d.negative (Ratio.scaled d.digits 10 d.exponent)

def ofParts (negative : Bool) (whole fraction : Text) (exponent : Int) : Decimal :=
  ⟨negative, digitsValue (whole ++ fraction), exponent - fraction.length⟩

def takeSign : Text → Bool × Text
  | '-' :: rest => (true, rest)
  | '+' :: rest => (false, rest)
  | t => (false, t)

def takeDigits (t : Text) : Text × Text := (t.takeWhile Char.isDigit, t.dropWhile Char.isDigit)

/-- The exponent part, which has at least one digit; nothing written is zero. -/
def readExponent? : Text → Option Int
  | [] => some 0
  | mark :: rest =>
      let (negative, rest) := takeSign rest
      let (digits, rest) := takeDigits rest
      if (mark == 'e' || mark == 'E') && !digits.isEmpty && rest.isEmpty then
        some (if negative then -(digitsValue digits : Int) else digitsValue digits)
      else none

/-- A decimal with sign, point and exponent all optional, but with at least one digit before the
exponent. -/
def read? (t : Text) : Option Decimal :=
  let (negative, t) := takeSign t
  let (whole, t) := takeDigits t
  let (fraction, t) :=
    match t with
    | '.' :: rest => takeDigits rest
    | rest => ([], rest)
  if whole.isEmpty && fraction.isEmpty then none
  else (readExponent? t).map (ofParts negative whole fraction)

end Decimal
end Autofix
