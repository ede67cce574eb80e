import Mathlib.Tactic.Linarith
import Mathlib.Tactic.Positivity
import DataService.Lib.Doubles

/-! How far a double is from the number it stands for. -/

namespace Doubles

variable {x q : ℚ}

theorem abs_roundEven_sub_le (x : ℚ) : |roundEven x - x| ≤ 1 / 2 := by
  have hfloor := Int.floor_le x
  have hlt := Int.lt_floor_add_one x
  rw [roundEven]
  split
  · next h =>
    have hhalf : x - ⌊x⌋ ≤ 1 / 2 := h.elim le_of_lt fun h => h.1.le
    rw [abs_le]
    constructor <;> linarith
  · next h =>
    have hhalf : 1 / 2 ≤ x - ⌊x⌋ := not_lt.mp fun hlt => h (.inl hlt)
    push_cast
    rw [abs_le]
    constructor <;> linarith

/-- A double is off by half a unit in its last place at most. -/
theorem abs_toDouble_sub_le (q : ℚ) : |toDouble q - q| ≤ 2 ^ lastPlace q / 2 := by
  have hunit : (0 : ℚ) < 2 ^ lastPlace q := zpow_pos (by norm_num) _
  have hround := abs_roundEven_sub_le (q / 2 ^ lastPlace q)
  calc |toDouble q - q|
      = |(roundEven (q / 2 ^ lastPlace q) - q / 2 ^ lastPlace q) * 2 ^ lastPlace q| := by
        rw [toDouble, sub_mul, div_mul_cancel₀ _ hunit.ne']
    _ = |roundEven (q / 2 ^ lastPlace q) - q / 2 ^ lastPlace q| * 2 ^ lastPlace q := by
        rw [abs_mul, abs_of_pos hunit]
    _ ≤ 1 / 2 * 2 ^ lastPlace q := mul_le_mul_of_nonneg_right hround hunit.le
    _ = 2 ^ lastPlace q / 2 := by ring

/-- Neither zero nor too small for all its digits. -/
def Normal (q : ℚ) : Prop := 2 ^ (-1022 : ℤ) ≤ q

theorem zpow_lastPlace_le (h : Normal q) : 2 ^ lastPlace q ≤ q / 2 ^ 52 := by
  have hpos : 0 < q := lt_of_lt_of_le (zpow_pos (by norm_num) _) h
  have habs : |q| = q := abs_of_pos hpos
  have hlog : (-1022 : ℤ) ≤ Int.log 2 |q| := by
    rw [habs]
    exact (Int.zpow_le_iff_le_log (by omega) hpos).mp (by exact_mod_cast h)
  have hplace : lastPlace q = Int.log 2 |q| - 52 := by
    rw [lastPlace]
    omega
  have hle : (2 : ℚ) ^ Int.log 2 |q| ≤ q := by
    have hlogle := Int.zpow_log_le_self (b := 2) (by omega) (r := q) hpos
    rw [habs]
    exact_mod_cast hlogle
  rw [hplace, zpow_sub₀ (by norm_num)]
  exact div_le_div_of_nonneg_right hle (by norm_num)

/-- The unit of rounding errors. -/
def unitRoundoff : ℚ := 1 / 2 ^ 53

theorem abs_toDouble_sub_le_of_normal (h : Normal q) : |toDouble q - q| ≤ unitRoundoff * q := by
  have hplace := zpow_lastPlace_le h
  calc |toDouble q - q| ≤ 2 ^ lastPlace q / 2 := abs_toDouble_sub_le q
    _ ≤ unitRoundoff * q := by
        rw [unitRoundoff]
        linarith

theorem toDouble_zero : toDouble 0 = 0 := by decide +kernel

theorem toDouble_bounds (h : Normal q) :
    (1 - unitRoundoff) * q ≤ toDouble q ∧ toDouble q ≤ (1 + unitRoundoff) * q := by
  obtain ⟨hlow, hhigh⟩ := abs_le.mp (abs_toDouble_sub_le_of_normal h)
  constructor <;> linarith

theorem normal_of_le {a : ℚ} (h : (1 / 2) ^ 200 ≤ a) : Normal a := by
  have hsmall : (2 : ℚ) ^ (-1022 : ℤ) ≤ 2 ^ (-200 : ℤ) :=
    zpow_le_zpow_right₀ (by norm_num) (by norm_num)
  have heq : (2 : ℚ) ^ (-200 : ℤ) = (1 / 2) ^ 200 := by norm_num
  exact hsmall.trans (heq.trans_le h)

/-- A product of doubles of numbers is near the product of the numbers. -/
theorem abs_toDouble_mul_sub_le {a b : ℚ} (ha : a = 0 ∨ (1 / 2) ^ 100 ≤ a) (hb : b = 0 ∨ 1 ≤ b) :
    |toDouble (toDouble a * toDouble b) - a * b| ≤ 4 * unitRoundoff * (a * b) := by
  obtain rfl | ha := ha
  · simp [toDouble_zero]
  obtain rfl | hb := hb
  · simp [toDouble_zero]
  have hu : unitRoundoff = 1 / 2 ^ 53 := rfl
  have hapos : 0 < a := lt_of_lt_of_le (by positivity) ha
  have hbpos : 0 < b := by linarith
  obtain ⟨hdlow, hdhigh⟩ := toDouble_bounds (normal_of_le (le_trans (by norm_num) ha))
  obtain ⟨htlow, hthigh⟩ := toDouble_bounds (q := b) (normal_of_le (le_trans (by norm_num) hb))
  have hab : (1 / 2) ^ 100 ≤ a * b := le_trans ha (le_mul_of_one_le_right hapos.le hb)
  have hlow : (1 - unitRoundoff) ^ 2 * (a * b) ≤ toDouble a * toDouble b := by
    calc (1 - unitRoundoff) ^ 2 * (a * b) = (1 - unitRoundoff) * a * ((1 - unitRoundoff) * b) := by
          ring
      _ ≤ toDouble a * toDouble b :=
          mul_le_mul hdlow htlow (mul_nonneg (by rw [hu]; norm_num) hbpos.le)
            (le_trans (mul_nonneg (by rw [hu]; norm_num) hapos.le) hdlow)
  have hhigh : toDouble a * toDouble b ≤ (1 + unitRoundoff) ^ 2 * (a * b) := by
    calc toDouble a * toDouble b ≤ (1 + unitRoundoff) * a * ((1 + unitRoundoff) * b) :=
          mul_le_mul hdhigh hthigh
            (le_trans (mul_nonneg (by rw [hu]; norm_num) hbpos.le) htlow)
            (mul_nonneg (by rw [hu]; norm_num) hapos.le)
      _ = (1 + unitRoundoff) ^ 2 * (a * b) := by ring
  have hnormal : Normal (toDouble a * toDouble b) := by
    refine normal_of_le ?_
    calc ((1 : ℚ) / 2) ^ 200 ≤ (1 - unitRoundoff) ^ 2 * (1 / 2) ^ 100 := by rw [hu]; norm_num
      _ ≤ (1 - unitRoundoff) ^ 2 * (a * b) := mul_le_mul_of_nonneg_left hab (sq_nonneg _)
      _ ≤ toDouble a * toDouble b := hlow
  obtain ⟨hplow, hphigh⟩ := toDouble_bounds hnormal
  have hpos : 0 < a * b := mul_pos hapos hbpos
  have hcube : 1 - 4 * unitRoundoff ≤ (1 - unitRoundoff) * (1 - unitRoundoff) ^ 2 := by
    rw [hu]
    norm_num
  have hcube' : (1 + unitRoundoff) * (1 + unitRoundoff) ^ 2 ≤ 1 + 4 * unitRoundoff := by
    rw [hu]
    norm_num
  have hlow3 : (1 - 4 * unitRoundoff) * (a * b) ≤ toDouble (toDouble a * toDouble b) := by
    calc (1 - 4 * unitRoundoff) * (a * b)
        ≤ (1 - unitRoundoff) * (1 - unitRoundoff) ^ 2 * (a * b) :=
          mul_le_mul_of_nonneg_right hcube hpos.le
      _ = (1 - unitRoundoff) * ((1 - unitRoundoff) ^ 2 * (a * b)) := mul_assoc _ _ _
      _ ≤ (1 - unitRoundoff) * (toDouble a * toDouble b) :=
          mul_le_mul_of_nonneg_left hlow (by rw [hu]; norm_num)
      _ ≤ toDouble (toDouble a * toDouble b) := hplow
  have hhigh3 : toDouble (toDouble a * toDouble b) ≤ (1 + 4 * unitRoundoff) * (a * b) := by
    calc toDouble (toDouble a * toDouble b)
        ≤ (1 + unitRoundoff) * (toDouble a * toDouble b) := hphigh
      _ ≤ (1 + unitRoundoff) * ((1 + unitRoundoff) ^ 2 * (a * b)) :=
          mul_le_mul_of_nonneg_left hhigh (by rw [hu]; norm_num)
      _ = (1 + unitRoundoff) * (1 + unitRoundoff) ^ 2 * (a * b) := (mul_assoc _ _ _).symm
      _ ≤ (1 + 4 * unitRoundoff) * (a * b) := mul_le_mul_of_nonneg_right hcube' hpos.le
  rw [abs_le]
  constructor <;> linarith

end Doubles
