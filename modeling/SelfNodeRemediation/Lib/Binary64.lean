import Mathlib.Data.Int.Log
import Mathlib.Data.Rat.Floor

/-!
# Rounding to 53 bits

The rational numbers as an arithmetic of double precision rounds them: to nearest, and
to the even neighbour at a midpoint. Exponents have no bounds here, so the results are
those of the format wherever it does not overflow or lose bits to a denormal number.

* `roundEven_intCast`: an integer is not changed by rounding to integers.
* `round_intCast`: nor is one of at most 53 bits by rounding to 53 bits.
-/

namespace Binary64

/-- Round to the nearest integer, and to the even one at a midpoint. -/
def roundEven (x : ℚ) : ℤ :=
  if x - ⌊x⌋ < 1 / 2 then ⌊x⌋
  else if 1 / 2 < x - ⌊x⌋ then ⌊x⌋ + 1
  else ⌊x⌋ + ⌊x⌋ % 2

theorem roundEven_intCast (n : ℤ) : roundEven (n : ℚ) = n := by
  simp [roundEven]

/-- The place of the last of 53 bits. -/
def ulp (x : ℚ) : ℚ := 2 ^ (Int.log 2 |x| - 52)

def round (x : ℚ) : ℚ := roundEven (x / ulp x) * ulp x

theorem log_le_of_lt {n : ℤ} (h : |n| < 2 ^ 53) : Int.log 2 |(n : ℚ)| ≤ 52 := by
  by_cases hn : n = 0
  · simp [hn]
  · have hpos : 0 < |(n : ℚ)| := abs_pos.mpr (Int.cast_ne_zero.mpr hn)
    have hlt : |(n : ℚ)| < (2 : ℚ) ^ (53 : ℤ) := by exact_mod_cast h
    have hlog := (Int.lt_zpow_iff_log_lt (by decide) hpos).mp hlt
    exact Int.lt_add_one_iff.mp hlog

/-- An integer is a multiple of the place of its last bit. -/
theorem round_intCast {n : ℤ} (h : |n| < 2 ^ 53) : round (n : ℚ) = n := by
  obtain ⟨k, hk⟩ := Int.le.dest (log_le_of_lt h)
  have hulp : ulp (n : ℚ) = (2 ^ k)⁻¹ := by
    unfold ulp
    rw [show Int.log 2 |(n : ℚ)| - 52 = -(k : ℤ) by omega, zpow_neg, zpow_natCast]
  have hscaled : (n : ℚ) / (2 ^ k)⁻¹ = ((n * 2 ^ k : ℤ) : ℚ) := by
    rw [div_inv_eq_mul]
    push_cast
    rfl
  unfold round
  rw [hulp, hscaled, roundEven_intCast]
  push_cast
  exact mul_inv_cancel_right₀ (pow_ne_zero k two_ne_zero) _

end Binary64
