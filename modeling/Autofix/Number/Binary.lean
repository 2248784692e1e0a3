/-! Binary floating-point numbers, kept as exact values: a sign, a mantissa and a power of two.
`Binary.round` gives the nearest number of a format, a tie going to the even mantissa. -/
namespace Autofix

/-- A format of binary numbers `mantissa * 2 ^ exponent`: the mantissa has at most `precision` bits,
the exponent lies between `minExponent` and `maxExponent`. -/
structure Format where
  precision : Nat
  minExponent : Int
  maxExponent : Int
deriving DecidableEq, Repr

def Format.single : Format := ⟨24, -149, 104⟩

def Format.double : Format := ⟨53, -1074, 971⟩

structure Ratio where
  num : Nat
  den : Nat
deriving DecidableEq, Repr

def Ratio.scaled (n b : Nat) (e : Int) : Ratio :=
  if 0 ≤ e then ⟨n * Nat.pow b e.toNat, 1⟩ else ⟨n, Nat.pow b (-e).toNat⟩

/-- The integer nearest to a fraction, a tie going to the even one. -/
def Ratio.nearest (r : Ratio) : Nat :=
  let low := r.num / r.den
  let rest := 2 * (r.num % r.den)
  if rest < r.den || (rest == r.den && low % 2 == 0) then low else low + 1

inductive Binary
  | nan
  | infinite (negative : Bool)
  | finite (negative : Bool) (mantissa : Nat) (exponent : Int)
deriving DecidableEq, Repr

namespace Binary

/-- The exponent at which a positive fraction has a mantissa of exactly `precision` bits, or the least exponent
of the format if that is larger. The logarithms fix the number of bits up to one. -/
def exponentFor (format : Format) (r : Ratio) : Int :=
  let guess : Int := (Nat.log2 r.num : Int) - Nat.log2 r.den - format.precision + 1
  let unit := Ratio.scaled 1 2 guess
  let exact := if r.num * unit.den < (r.den * unit.num) <<< (format.precision - 1) then guess - 1 else guess
  max exact format.minExponent

/-- The number of the format that is nearest to a fraction. Rounding up may need one bit more, and makes a power
of two then. -/
def round (format : Format) (negative : Bool) (r : Ratio) : Binary :=
  if r.num = 0 then .finite negative 0 format.minExponent
  else
    let exponent := exponentFor format r
    let unit := Ratio.scaled 1 2 exponent
    let mantissa := Ratio.nearest ⟨r.num * unit.den, r.den * unit.num⟩
    let full := mantissa == 1 <<< format.precision
    let mantissa := if full then 1 <<< (format.precision - 1) else mantissa
    let exponent := if full then exponent + 1 else exponent
    if format.maxExponent < exponent then .infinite negative else .finite negative mantissa exponent

/-- The same value in another format, rounded to it. -/
def convert (format : Format) : Binary → Binary
  | .finite negative mantissa exponent => round format negative (Ratio.scaled mantissa 2 exponent)
  | x => x

/-- A finite number as a multiple of `2 ^ unit`, for a unit no larger than its exponent. -/
def multipleOf (unit : Int) (negative : Bool) (mantissa : Nat) (exponent : Int) : Int :=
  let magnitude : Int := mantissa <<< (exponent - unit).toNat
  if negative then -magnitude else magnitude

/-- Is the first number less than the second? Nothing is less or greater than `nan`. -/
def lt : Binary → Binary → Bool
  | .nan, _ => false
  | _, .nan => false
  | .infinite n, .infinite m => n && !m
  | .infinite n, .finite .. => n
  | .finite .., .infinite m => !m
  | .finite n a e, .finite m b f =>
      decide (multipleOf (min e f) n a e < multipleOf (min e f) m b f)

theorem lt_irrefl (x : Binary) : lt x x = false := by
  cases x <;> simp [lt]

end Binary
end Autofix
