import BoxedValues.Double.Fixed
import Mathlib.Algebra.Order.Field.Basic
import Mathlib.Algebra.Order.Field.Power
import Mathlib.Data.Rat.Cast.Order
import Mathlib.Tactic.FieldSimp
import Mathlib.Tactic.Linarith
import Mathlib.Tactic.Ring

/-!
# The rational number of a double

* `Double.value` is the exact value of a finite double;
* `Double.roundHalfEven_bounds`: rounding a quotient moves it by at most a half;
* `Double.abs_millionths_sub_le`: so a double is known up to half of a millionth from its millionths.
-/

set_option autoImplicit false

namespace BoxedValues.Double

/-- A number behind a minus sign, or as it is. -/
def signed (negative : Bool) (value : ℚ) : ℚ := if negative then -value else value

/-- A finite double without its sign, exactly, as the fields of its bits say. -/
def magnitude (x : Double) : ℚ :=
  if x.exponentField = 0 then 2 ^ (-1022 : ℤ) * (x.fractionField / 2 ^ 52)
  else 2 ^ ((x.exponentField : ℤ) - 1023) * (1 + x.fractionField / 2 ^ 52)

/-- A finite double, exactly. -/
def value (x : Double) : ℚ := signed x.isNegative x.magnitude

theorem abs_signed_sub (negative : Bool) (a b : ℚ) :
    |signed negative a - signed negative b| = |a - b| := by
  cases negative with
  | false => rfl
  | true =>
    show |-a - -b| = |a - b|
    rw [neg_sub_neg, abs_sub_comm]

theorem magnitude_eq (x : Double) : x.magnitude = x.significand * 2 ^ x.exponent := by
  -- the point of a fraction stands behind 52 bits
  have point : ∀ exponent : ℤ, (2 : ℚ) ^ (exponent + 52) = 2 ^ exponent * 2 ^ 52 := fun exponent =>
    zpow_add₀ two_ne_zero exponent 52
  rw [magnitude, significand, exponent]
  by_cases subnormal : x.exponentField = 0
  · rw [if_pos subnormal, if_pos subnormal, if_pos subnormal, show (-1022 : ℤ) = -1074 + 52 from rfl,
      point]
    ring
  · rw [if_neg subnormal, if_neg subnormal, if_neg subnormal,
      show (x.exponentField : ℤ) - 1023 = x.exponentField - 1075 + 52 by ring, point]
    simp only [Nat.pow_eq, Nat.cast_add, Nat.cast_pow, Nat.cast_ofNat]
    field_simp

/-- A power of two is a quotient of whole numbers, one of which is 1. -/
theorem two_zpow_eq_div (e : ℤ) : (2 : ℚ) ^ e = (2 ^ e.toNat : ℕ) / (2 ^ (-e).toNat : ℕ) := by
  have balanced : (e.toNat : ℤ) - (-e).toNat = e := by omega
  rw [Nat.cast_pow, Nat.cast_pow, ← zpow_natCast, ← zpow_natCast, Nat.cast_ofNat,
    ← zpow_sub₀ two_ne_zero, balanced]

theorem magnitude_eq_div (x : Double) :
    x.magnitude = x.significand * (2 ^ x.exponent.toNat : ℕ) / (2 ^ (-x.exponent).toNat : ℕ) := by
  rw [magnitude_eq, two_zpow_eq_div, mul_div_assoc]

/-! ## Rounding -/

/-- The rounded quotient is at most a half too large, and at most a half too small. -/
theorem roundHalfEven_bounds (num : Nat) {den : Nat} (pos : 0 < den) :
    2 * (den * roundHalfEven num den) ≤ 2 * num + den ∧
      2 * num ≤ 2 * (den * roundHalfEven num den) + den := by
  have split := Nat.div_add_mod num den
  have rest := Nat.mod_lt num pos
  rw [roundHalfEven]
  generalize num / den = below at split ⊢
  generalize num % den = remainder at split rest ⊢
  by_cases down : 2 * remainder < den ∨ 2 * remainder = den ∧ below % 2 = 0
  · rw [if_pos down]
    omega
  · rw [if_neg down, Nat.mul_succ]
    omega

theorem abs_roundHalfEven_sub_le (num : Nat) {den : Nat} (pos : 0 < den) :
    |(roundHalfEven num den : ℚ) - num / den| ≤ 1 / 2 := by
  obtain ⟨above, below⟩ := roundHalfEven_bounds num pos
  have pos' : (0 : ℚ) < den := Nat.cast_pos.2 pos
  have above' : 2 * ((den : ℚ) * roundHalfEven num den) ≤ 2 * num + den := by exact_mod_cast above
  have below' : 2 * (num : ℚ) ≤ 2 * (den * roundHalfEven num den) + den := by exact_mod_cast below
  rw [abs_le]
  constructor
  · rw [neg_le_sub_iff_le_add, div_le_iff₀ pos']
    linarith
  · rw [sub_le_iff_le_add, ← sub_le_iff_le_add', le_div_iff₀ pos']
    linarith

/-- The quotient that is rounded to millionths. -/
theorem scaled_millionths (x : Double) :
    ((x.significand * Nat.pow 10 6 * Nat.pow 2 x.exponent.toNat : ℕ) : ℚ) /
      (2 ^ (-x.exponent).toNat : ℕ) = x.magnitude * 10 ^ 6 := by
  rw [magnitude_eq_div]
  push_cast [Nat.pow_eq]
  ring

/-- **A double differs from its millionths by at most half of one.** -/
theorem abs_millionths_sub_le (x : Double) :
    |(x.millionths : ℚ) / 10 ^ 6 - x.magnitude| ≤ 1 / 2 / 10 ^ 6 := by
  have rounded := abs_roundHalfEven_sub_le
    (x.significand * Nat.pow 10 6 * Nat.pow 2 x.exponent.toNat) (Nat.two_pow_pos (-x.exponent).toNat)
  rw [scaled_millionths] at rounded
  have moved : (x.millionths : ℚ) / 10 ^ 6 - x.magnitude =
      (x.millionths - x.magnitude * 10 ^ 6) / 10 ^ 6 := by
    field_simp
  rw [moved, abs_div, abs_of_pos (by norm_num : (0 : ℚ) < 10 ^ 6)]
  exact div_le_div_of_nonneg_right rounded (by norm_num)

end BoxedValues.Double
