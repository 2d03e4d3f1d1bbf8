import BoxedValues.Proofs.Double.Value
import Mathlib.Tactic.NormNum

/-!
# The nearest double

Rounding a quotient to a double chooses the exponent first, so that the quotient has 53 bits in front
of the point if the exponent is not the least, and then the whole number nearest to the quotient in
this unit.

* `magnitude_ofMagnitude`: a significand that was rounded up to 54 bits is carried to the exponent;
* `quotientExponent_bounds`: the exponent that is chosen;
* `isNearest_quotientMagnitude`: **no finite double is nearer to the quotient**, unless the quotient
  is so large that it is rounded to infinity.
-/

set_option autoImplicit false

namespace BoxedValues.Double

/-! ## Fields -/

section

variable {negative : Bool} {bits : ℕ} (small : bits < 2 ^ 63)

include small

theorem toNat_ofMagnitude :
    (ofMagnitude negative bits).bits.toNat = (if negative then 2 ^ 63 else 0) + bits := by
  rw [ofMagnitude, UInt64.toNat_ofNat_of_lt']
  · cases negative <;> simp
  · cases negative <;> simp [UInt64.size] <;> omega

theorem isNegative_ofMagnitude : (ofMagnitude negative bits).isNegative = negative := by
  rw [isNegative, toNat_ofMagnitude small]
  cases negative
  · simp
    omega
  · simp

theorem exponentField_ofMagnitude : (ofMagnitude negative bits).exponentField = bits / 2 ^ 52 := by
  rw [exponentField, toNat_ofMagnitude small]
  cases negative <;> simp <;> omega

theorem fractionField_ofMagnitude : (ofMagnitude negative bits).fractionField = bits % 2 ^ 52 := by
  rw [fractionField, toNat_ofMagnitude small]
  cases negative
  · simp
  · simp
    omega

end

theorem infiniteMagnitude_lt : infiniteMagnitude < 2 ^ 63 := by decide

theorem isFinite_ofMagnitude {negative : Bool} {bits : ℕ} (finite : bits < infiniteMagnitude) :
    (ofMagnitude negative bits).isFinite = true := by
  rw [isFinite, exponentField_ofMagnitude (finite.trans infiniteMagnitude_lt), bne_iff_ne]
  have bound : bits < 2047 * 2 ^ 52 := finite
  omega

/-- A unit in the last place, for a number of exponents above the least. -/
def unit (steps : ℕ) : ℚ := 2 ^ ((steps : ℤ) - 1074)

theorem unit_pos (steps : ℕ) : 0 < unit steps := zpow_pos two_pos _

theorem unit_succ (steps : ℕ) : unit (steps + 1) = 2 * unit steps := by
  rw [unit, unit, mul_comm, ← zpow_add_one₀ two_ne_zero]
  congr 1
  push_cast
  ring

/-- What a significand stands for, also if it has 54 bits, as then all but the first are zero. -/
theorem magnitude_ofMagnitude {negative : Bool} {steps significand : ℕ}
    (normal : steps = 0 ∨ 2 ^ 52 ≤ significand) (fits : significand ≤ 2 ^ 53)
    (finite : steps * 2 ^ 52 + significand < infiniteMagnitude) :
    (ofMagnitude negative (steps * 2 ^ 52 + significand)).magnitude = significand * unit steps := by
  have small := finite.trans infiniteMagnitude_lt
  rw [magnitude_eq, Double.significand, exponent, exponentField_ofMagnitude small,
    fractionField_ofMagnitude small, Nat.pow_eq]
  rcases Nat.lt_or_ge significand (2 ^ 52) with low | high
  · have zero : steps = 0 := by omega
    rw [if_pos (by omega), if_pos (by omega), zero, Nat.zero_mul, Nat.zero_add,
      Nat.mod_eq_of_lt low]
    rfl
  rcases fits.lt_or_eq with below | full
  · have field : (steps * 2 ^ 52 + significand) / 2 ^ 52 = steps + 1 := by omega
    have bits : 2 ^ 52 + (steps * 2 ^ 52 + significand) % 2 ^ 52 = significand := by omega
    rw [field, bits, if_neg (by omega), if_neg (by omega), unit]
    congr 2
    push_cast
    ring
  · have field : (steps * 2 ^ 52 + significand) / 2 ^ 52 = steps + 2 := by omega
    have bits : 2 ^ 52 + (steps * 2 ^ 52 + significand) % 2 ^ 52 = 2 ^ 52 := by omega
    have carried : (2 : ℚ) ^ (((steps + 2 : ℕ) : ℤ) - 1075) = unit (steps + 1) := by
      rw [unit]
      congr 1
      push_cast
      ring
    rw [field, bits, if_neg (by omega), if_neg (by omega), carried, unit_succ, full]
    push_cast
    ring

/-! ## Exponents -/

section

variable {num den : ℕ} (num_pos : 0 < num) (den_pos : 0 < den)

include num_pos den_pos

/-- The quotient is known up to a factor of four from the numbers of bits. -/
theorem quotient_bounds :
    (2 : ℚ) ^ ((num.log2 : ℤ) - den.log2 - 1) < num / den ∧
      (num : ℚ) / den < 2 ^ ((num.log2 : ℤ) - den.log2 + 1) := by
  have pos : (0 : ℚ) < den := Nat.cast_pos.2 den_pos
  have low : (2 : ℚ) ^ (num.log2 : ℤ) ≤ num := by
    exact_mod_cast Nat.log2_self_le num_pos.ne'
  have high : (num : ℚ) < 2 ^ ((num.log2 : ℤ) + 1) := by
    exact_mod_cast (Nat.lt_log2_self : num < 2 ^ (num.log2 + 1))
  have low' : (2 : ℚ) ^ (den.log2 : ℤ) ≤ den := by
    exact_mod_cast Nat.log2_self_le den_pos.ne'
  have high' : (den : ℚ) < 2 ^ ((den.log2 : ℤ) + 1) := by
    exact_mod_cast (Nat.lt_log2_self : den < 2 ^ (den.log2 + 1))
  constructor
  · rw [lt_div_iff₀ pos]
    calc (2 : ℚ) ^ ((num.log2 : ℤ) - den.log2 - 1) * den
        < 2 ^ ((num.log2 : ℤ) - den.log2 - 1) * 2 ^ ((den.log2 : ℤ) + 1) :=
          mul_lt_mul_of_pos_left high' (zpow_pos two_pos _)
      _ = 2 ^ (num.log2 : ℤ) := by
          rw [← zpow_add₀ two_ne_zero]
          congr 1
          ring
      _ ≤ num := low
  · rw [div_lt_iff₀ pos]
    calc (num : ℚ) < 2 ^ ((num.log2 : ℤ) + 1) := high
      _ = 2 ^ ((num.log2 : ℤ) - den.log2 + 1) * 2 ^ (den.log2 : ℤ) := by
          rw [← zpow_add₀ two_ne_zero]
          congr 1
          ring
      _ ≤ 2 ^ ((num.log2 : ℤ) - den.log2 + 1) * den :=
          mul_le_mul_of_nonneg_left low' (zpow_pos two_pos _).le

omit num_pos in
/-- The whole numbers that are compared tell the quotient from a power of two. -/
theorem full_iff (guess : ℤ) :
    den * 2 ^ (guess.toNat + 52) ≤ num * 2 ^ (-guess).toNat ↔ (2 : ℚ) ^ 52 * 2 ^ guess ≤ num / den := by
  have pos : (0 : ℚ) < den := Nat.cast_pos.2 den_pos
  have below : (0 : ℚ) < (2 ^ (-guess).toNat : ℕ) := by positivity
  rw [two_zpow_eq_div, ← mul_div_assoc, div_le_div_iff₀ below pos, ← @Nat.cast_le ℚ]
  push_cast
  rw [pow_add]
  constructor <;> intro h <;> linarith

/-- Before it is compared with the least exponent, the exponent gives the quotient 53 bits. -/
theorem exists_exponent : ∃ e : ℤ, quotientExponent num den = max e (-1074) ∧
    (2 : ℚ) ^ 52 * 2 ^ e ≤ num / den ∧ (num : ℚ) / den < 2 ^ 53 * 2 ^ e := by
  obtain ⟨low, high⟩ := quotient_bounds num_pos den_pos
  obtain ⟨guess, same⟩ : ∃ guess : ℤ, guess = num.log2 - den.log2 - 52 := ⟨_, rfl⟩
  have point (places : ℕ) (e : ℤ) : (2 : ℚ) ^ places * 2 ^ e = 2 ^ (e + places) := by
    rw [← zpow_natCast, ← zpow_add₀ two_ne_zero, add_comm]
  unfold quotientExponent
  rw [← same]
  simp only [Nat.pow_eq, full_iff den_pos]
  by_cases full : (2 : ℚ) ^ 52 * 2 ^ guess ≤ num / den
  · refine ⟨guess, by rw [if_pos full], full, ?_⟩
    rw [point, show guess + (53 : ℕ) = num.log2 - den.log2 + 1 by push_cast; omega]
    exact high
  · refine ⟨guess - 1, by rw [if_neg full], ?_, ?_⟩
    · rw [point, show guess - 1 + (52 : ℕ) = num.log2 - den.log2 - 1 by push_cast; omega]
      exact low.le
    · rw [point] at full ⊢
      rw [show guess - 1 + (53 : ℕ) = guess + (52 : ℕ) by push_cast; omega]
      exact not_le.1 full

/-- The quotient has at most 53 bits before the point in its unit, and so many if its exponent is not
the least. -/
theorem quotientExponent_bounds : ∃ steps : ℕ, quotientExponent num den = steps - 1074 ∧
    (num : ℚ) / den < 2 ^ 53 * unit steps ∧ (steps ≠ 0 → 2 ^ 52 * unit steps ≤ num / den) := by
  obtain ⟨e, same, low, high⟩ := exists_exponent num_pos den_pos
  rcases le_total e (-1074) with least | above
  · refine ⟨0, by rw [same, max_eq_right least]; rfl, high.trans_le ?_, fun h => absurd rfl h⟩
    refine mul_le_mul_of_nonneg_left (zpow_le_zpow_right₀ one_le_two ?_) (by positivity)
    push_cast
    omega
  · have steps : ((e + 1074).toNat : ℤ) - 1074 = e := by omega
    refine ⟨(e + 1074).toNat, by rw [same, max_eq_left above, steps], ?_, fun _ => ?_⟩
    · rw [unit, steps]
      exact high
    · rw [unit, steps]
      exact low

end

/-! ## Rounding to a double -/

/-- Rounding to a significand moves a number by at most half a unit. -/
structure RoundsTo (steps significand : ℕ) (r : ℚ) : Prop where
  normal : steps = 0 ∨ 2 ^ 52 ≤ significand
  fits : significand ≤ 2 ^ 53
  finite : steps * 2 ^ 52 + significand < infiniteMagnitude
  near : |significand * unit steps - r| ≤ unit steps / 2
  low : steps ≠ 0 → 2 ^ 52 * unit steps ≤ r

/-- From this number on, the nearest double would be the one after the greatest. -/
def overflowBound : ℚ := (2 ^ 53 - 1 / 2) * unit 2045

theorem unit_mono {steps more : ℕ} (le : steps ≤ more) : unit steps ≤ unit more :=
  zpow_le_zpow_right₀ one_le_two (by omega)

/-- The quotient in a unit, as a quotient of whole numbers. -/
theorem scaled_eq (num den : ℕ) (e : ℤ) :
    ((num * 2 ^ (-e).toNat : ℕ) : ℚ) / (den * 2 ^ e.toNat : ℕ) = num / den / 2 ^ e := by
  rw [two_zpow_eq_div, Nat.cast_mul, Nat.cast_mul, div_div_eq_mul_div, div_mul_eq_mul_div, div_div]

/-- So a number is rounded that has at most 53 bits before the point in its unit, and so many if that
is not the least one. -/
theorem RoundsTo.of_near {steps s : ℕ} {q : ℚ} (near : |(s : ℚ) - q| ≤ 1 / 2) (high : q < 2 ^ 53)
    (low : steps ≠ 0 → 2 ^ 52 ≤ q) (fits : q * unit steps < overflowBound) :
    RoundsTo steps s (q * unit steps) := by
  have pos := unit_pos steps
  obtain ⟨down, up⟩ := abs_le.1 near
  have full : s ≤ 2 ^ 53 := by
    have less : (s : ℚ) < (2 ^ 53 + 1 : ℕ) := by
      push_cast
      linarith
    exact Nat.le_of_lt_succ (Nat.cast_lt.1 less)
  constructor
  case normal =>
    refine or_iff_not_imp_left.2 fun more => ?_
    have less : ((2 ^ 52 : ℕ) : ℚ) < (s + 1 : ℕ) := by
      push_cast
      linarith [low more]
    exact Nat.le_of_lt_succ (Nat.cast_lt.1 less)
  case fits => exact full
  case finite =>
    have limit : infiniteMagnitude = 2047 * 2 ^ 52 := rfl
    rcases Nat.lt_trichotomy steps 2045 with less | rfl | more
    · omega
    · have less : (s : ℚ) < (2 ^ 53 : ℕ) := by
        push_cast
        linarith [lt_of_mul_lt_mul_right fits pos.le]
      have := Nat.cast_lt.1 less
      omega
    · -- such a number has 53 bits before the point in twice the greatest unit
      have larger := unit_mono more
      rw [unit_succ] at larger
      have large := mul_le_mul_of_nonneg_right (low (by omega)) pos.le
      rw [overflowBound] at fits
      linarith [unit_pos 2045]
  case near =>
    rw [← sub_mul, abs_mul, abs_of_pos pos, ← one_div_mul_eq_div]
    exact mul_le_mul_of_nonneg_right near pos.le
  case low => exact fun more => mul_le_mul_of_nonneg_right (low more) pos.le

theorem exists_roundsTo {num den : ℕ} (num_pos : 0 < num) (den_pos : 0 < den)
    (fits : (num : ℚ) / den < overflowBound) : ∃ steps significand,
      quotientMagnitude num den = steps * 2 ^ 52 + significand ∧
        RoundsTo steps significand (num / den) := by
  obtain ⟨steps, exponent, high, low⟩ := quotientExponent_bounds num_pos den_pos
  have pos := unit_pos steps
  have cancel : (num : ℚ) / den / unit steps * unit steps = num / den :=
    div_mul_cancel₀ _ pos.ne'
  have near := abs_roundHalfEven_sub_le (num * 2 ^ (-((steps : ℤ) - 1074)).toNat)
    (show 0 < den * 2 ^ ((steps : ℤ) - 1074).toNat by positivity)
  rw [scaled_eq, ← unit] at near
  have bounded : (num : ℚ) / den / unit steps * unit steps < overflowBound := cancel.trans_lt fits
  have rounds := RoundsTo.of_near near ((div_lt_iff₀ pos).2 high)
    (fun more => (le_div_iff₀ pos).2 (low more)) bounded
  rw [cancel] at rounds
  refine ⟨steps, _, ?_, rounds⟩
  unfold quotientMagnitude
  rw [if_neg num_pos.ne', exponent]
  simp only [Nat.pow_eq, sub_add_cancel, Int.toNat_natCast]
  exact min_eq_left rounds.finite.le

/-- Of all multiples of the unit, the rounded one is nearest. -/
theorem abs_sub_le_of_half {u r : ℚ} {s : ℕ} (near : |s * u - r| ≤ u / 2) (k : ℕ) :
    |s * u - r| ≤ |k * u - r| := by
  have pos : 0 ≤ u := by linarith [abs_nonneg (s * u - r)]
  rcases eq_or_ne k s with rfl | ne
  · exact le_refl _
  · have step : (1 : ℚ) ≤ |(k : ℚ) - s| := by
      exact_mod_cast Int.one_le_abs (sub_ne_zero.2 (Nat.cast_injective.ne ne : (k : ℤ) ≠ s))
    have apart : u ≤ |k * u - s * u| := by
      rw [← sub_mul, abs_mul, abs_of_nonneg pos]
      linarith [mul_le_mul_of_nonneg_right step pos]
    have triangle := abs_sub_le (k * u) r (s * u)
    rw [abs_sub_comm r] at triangle
    linarith

/-- The double is finite, and no finite double is nearer to the number. -/
structure IsNearest (x : Double) (r : ℚ) : Prop where
  finite : x.isFinite = true
  near : ∀ y : Double, y.isFinite = true → |x.magnitude - r| ≤ |y.magnitude - r|

/-- Every double is a significand of 53 bits in some unit, of which the greatest are not finite. -/
theorem exists_magnitude_eq (x : Double) : ∃ steps significand : ℕ, significand < 2 ^ 53 ∧
    x.magnitude = significand * unit steps ∧ (x.isFinite = true → steps ≤ 2045) := by
  have bits : x.significand < 2 ^ 53 := by
    have := Nat.mod_lt x.bits.toNat (show 0 < 2 ^ 52 by decide)
    rw [significand, fractionField, Nat.pow_eq]
    split <;> omega
  have least : -1074 ≤ x.exponent := by
    rw [exponent]
    split <;> omega
  refine ⟨(x.exponent + 1074).toNat, x.significand, bits, ?_, fun finite => ?_⟩
  · rw [magnitude_eq, unit]
    congr 2
    omega
  · have field : x.exponentField < 2 ^ 11 := Nat.mod_lt _ (by decide)
    rw [isFinite, bne_iff_ne] at finite
    rw [exponent]
    split <;> omega

/-- A number that was rounded is at least as near as any other double: one with a larger unit is a
multiple of the unit, and one with a smaller unit is less than the least significand of 53 bits. -/
theorem RoundsTo.near_magnitude {steps significand : ℕ} {r : ℚ}
    (rounds : RoundsTo steps significand r) (y : Double) :
    |significand * unit steps - r| ≤ |y.magnitude - r| := by
  obtain ⟨others, t, bits, same, _⟩ := y.exists_magnitude_eq
  rw [same]
  rcases Nat.lt_or_ge others steps with finer | coarser
  · have low := rounds.low (by omega)
    have half : 2 * unit others ≤ unit steps := unit_succ others ▸ unit_mono finer
    have below : (t : ℚ) * unit others ≤ 2 ^ 52 * unit steps := by
      have : (t : ℚ) ≤ 2 ^ 53 := by exact_mod_cast bits.le
      have := mul_le_mul_of_nonneg_right this (unit_pos others).le
      linarith
    have least := abs_sub_le_of_half rounds.near (2 ^ 52)
    rw [Nat.cast_pow, Nat.cast_ofNat, abs_of_nonpos (sub_nonpos.2 low)] at least
    rw [abs_of_nonpos (sub_nonpos.2 (below.trans low))]
    linarith
  · have multiple : unit others = (2 ^ (others - steps) : ℕ) * unit steps := by
      rw [unit, unit, Nat.cast_pow, Nat.cast_ofNat, ← zpow_natCast, ← zpow_add₀ two_ne_zero]
      congr 1
      omega
    have nearest := abs_sub_le_of_half rounds.near (t * 2 ^ (others - steps))
    rwa [Nat.cast_mul, mul_assoc, ← multiple] at nearest

/-- **A quotient is rounded to a nearest double**, unless it is too large for a finite one. -/
theorem isNearest_quotientMagnitude (negative : Bool) (num : ℕ) {den : ℕ} (den_pos : 0 < den)
    (fits : (num : ℚ) / den < overflowBound) :
    IsNearest (ofMagnitude negative (quotientMagnitude num den)) (num / den) := by
  rcases Nat.eq_zero_or_pos num with rfl | num_pos
  · have zero : (ofMagnitude negative 0).magnitude = 0 := by
      have := @magnitude_ofMagnitude negative 0 0 (.inl rfl) (Nat.zero_le _) (by decide)
      simpa using this
    rw [show quotientMagnitude 0 den = 0 from rfl]
    refine ⟨isFinite_ofMagnitude (by decide), fun y _ => ?_⟩
    rw [zero]
    simp
  · obtain ⟨steps, significand, same, rounds⟩ := exists_roundsTo num_pos den_pos fits
    rw [same]
    refine ⟨isFinite_ofMagnitude rounds.finite, fun y _ => ?_⟩
    rw [magnitude_ofMagnitude rounds.normal rounds.fits rounds.finite]
    exact rounds.near_magnitude y

end BoxedValues.Double
