import Mathlib.Algebra.Order.Floor.Ring
import Mathlib.Data.Int.Log
import Mathlib.Data.Rat.Floor

/-! The double nearest to a number. -/

namespace Doubles

/-- The nearest integer, and of two the even one. -/
def roundEven (x : ℚ) : ℤ :=
  if x - ⌊x⌋ < 1 / 2 ∨ x - ⌊x⌋ = 1 / 2 ∧ ⌊x⌋ % 2 = 0 then ⌊x⌋ else ⌊x⌋ + 1

/-- The exponent of the last place of a double near `q`. -/
def lastPlace (q : ℚ) : ℤ := max (Int.log 2 |q| - 52) (-1074)

/-- The double nearest to a number that is not too large. -/
def toDouble (q : ℚ) : ℚ := roundEven (q / 2 ^ lastPlace q) * 2 ^ lastPlace q

variable {x q : ℚ}

theorem toDouble_one : toDouble 1 = 1 := by decide +kernel

theorem roundEven_le : (roundEven x : ℚ) ≤ x + 1 := by
  have hfloor := Int.floor_le x
  have hround : roundEven x ≤ ⌊x⌋ + 1 := by
    rw [roundEven]
    split
    · omega
    · omega
  have hcast : (roundEven x : ℚ) ≤ ⌊x⌋ + 1 := by exact_mod_cast hround
  linarith

/-- Below the 53-bit numbers a double is at most one further up. -/
theorem toDouble_le (h : |q| < 2 ^ 52) : toDouble q ≤ q + 1 := by
  have hlog : Int.log 2 |q| ≤ 52 := by
    rcases (abs_nonneg q).eq_or_lt with hzero | hpos
    · rw [← hzero, Int.log_zero_right]
      omega
    · have hlt := (Int.lt_zpow_iff_log_lt (b := 2) (by omega) (x := 52) hpos).mp (by exact_mod_cast h)
      omega
  have hplace : lastPlace q ≤ 0 := by
    rw [lastPlace]
    omega
  have hunit : (2 : ℚ) ^ lastPlace q ≤ 1 := zpow_le_one_of_nonpos₀ (by norm_num) hplace
  have hpos : (0 : ℚ) < 2 ^ lastPlace q := zpow_pos (by norm_num) _
  calc toDouble q ≤ (q / 2 ^ lastPlace q + 1) * 2 ^ lastPlace q :=
        mul_le_mul_of_nonneg_right roundEven_le hpos.le
    _ = q + 2 ^ lastPlace q := by field_simp
    _ ≤ q + 1 := by linarith

end Doubles
