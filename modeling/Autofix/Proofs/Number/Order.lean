import Autofix.Number.Binary
import Mathlib.Algebra.Order.Field.Basic
import Mathlib.Data.Rat.Cast.Order
import Mathlib.Order.WithBot
import Mathlib.Tactic.Linarith
import Mathlib.Tactic.NormNum
import Mathlib.Tactic.Positivity

/-! The order of binary numbers. Two finite numbers are compared as multiples of the smaller of their
units; that is the order of their exact values, with the infinities at its ends. -/
namespace Autofix.Binary

def finiteValue (negative : Bool) (mantissa : Nat) (exponent : Int) : ℚ :=
  (if negative then -(mantissa : ℚ) else mantissa) * 2 ^ exponent

/-- The exact value; `nan` has none and stands among the infinite ones. -/
def value : Binary → WithBot (WithTop ℚ)
  | .nan => ⊥
  | .infinite true => ⊥
  | .infinite false => ((⊤ : WithTop ℚ) : WithBot (WithTop ℚ))
  | .finite negative mantissa exponent => ((finiteValue negative mantissa exponent : WithTop ℚ) : WithBot (WithTop ℚ))

lemma two_zpow_pos (e : Int) : (0 : ℚ) < 2 ^ e := zpow_pos (by norm_num) e

lemma multipleOf_mul {unit exponent : Int} (h : unit ≤ exponent) (negative : Bool) (mantissa : Nat) :
    (multipleOf unit negative mantissa exponent : ℚ) * 2 ^ unit = finiteValue negative mantissa exponent := by
  have hpow : (2 : ℚ) ^ (exponent - unit).toNat * 2 ^ unit = 2 ^ exponent := by
    rw [← zpow_natCast, ← zpow_add₀ (by norm_num), Int.toNat_of_nonneg (by omega), sub_add_cancel]
  have hshift : (((mantissa : Int) <<< (exponent - unit).toNat : Int) : ℚ) * 2 ^ unit = mantissa * 2 ^ exponent := by
    rw [Int.shiftLeft_eq]
    push_cast
    rw [mul_assoc, hpow]
  cases negative with
  | false => simpa [multipleOf, finiteValue] using hshift
  | true => simpa [multipleOf, finiteValue] using hshift

lemma lt_finite (n m : Bool) (a b : Nat) (e f : Int) :
    lt (.finite n a e) (.finite m b f) = true ↔ finiteValue n a e < finiteValue m b f := by
  rw [← multipleOf_mul (min_le_left e f), ← multipleOf_mul (min_le_right e f),
    mul_lt_mul_iff_left₀ (two_zpow_pos _), Int.cast_lt, lt, decide_eq_true_iff]

theorem lt_iff_value_lt {x y : Binary} (hx : x ≠ .nan) (hy : y ≠ .nan) : lt x y = true ↔ x.value < y.value := by
  cases x with
  | nan => exact absurd rfl hx
  | infinite n =>
    cases y with
    | nan => exact absurd rfl hy
    | infinite m => cases n <;> cases m <;> simp [lt, value]
    | finite m b f => cases n <;> simp [lt, value]
  | finite n a e =>
    cases y with
    | nan => exact absurd rfl hy
    | infinite m => cases m <;> simp [lt, value, -WithBot.coe_top, WithBot.coe_lt_coe]
    | finite m b f => rw [lt_finite, value, value, WithBot.coe_lt_coe, WithTop.coe_lt_coe]

lemma ne_nan_of_lt {x y : Binary} (h : lt x y = true) : x ≠ .nan ∧ y ≠ .nan := by
  constructor
  · rintro rfl
    cases y <;> cases h
  · rintro rfl
    cases x <;> cases h

/-- What is less than a number is less than any number that this one does not exceed. -/
theorem lt_of_lt_of_not_lt {x y z : Binary} (hz : z ≠ .nan) (hxy : lt x y = true) (hzy : lt z y = false) :
    lt x z = true := by
  obtain ⟨hx, hy⟩ := ne_nan_of_lt hxy
  rw [lt_iff_value_lt hx hy] at hxy
  rw [← Bool.not_eq_true, lt_iff_value_lt hz hy, not_lt] at hzy
  exact (lt_iff_value_lt hx hz).2 (hxy.trans_le hzy)

end Autofix.Binary
