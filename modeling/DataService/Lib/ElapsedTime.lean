import Mathlib.Algebra.BigOperators.Intervals
import Mathlib.Algebra.Order.BigOperators.Group.Finset
import DataService.Lib.IsoDateTime

/-! The microseconds from the start of the calendar to an instant, counted through its years,
months and days. Instants are in the order of this count. -/

namespace UtcDateTime

open Finset

def daysInYear (year : Nat) : Nat := ∑ month ∈ Ico 1 13, daysInMonth year month

namespace DateTime

/-- The days of a year up to and with that of the instant. -/
def dayOfYear (t : DateTime) : Nat := ∑ month ∈ Ico 1 t.month, daysInMonth t.year month + t.day

/-- `date.toordinal` -/
def ordinal (t : DateTime) : Nat := ∑ year ∈ Ico 1 t.year, daysInYear year + t.dayOfYear

def elapsedSeconds (t : DateTime) : Nat :=
  t.ordinal * 86400 + ((t.hour * 60 + t.minute) * 60 + t.second)

variable {t u : DateTime}

/-- The days of the months up to one of them are some of those up to a later one. -/
theorem sum_months_le (year : Nat) {month month' : Nat} (h : 1 ≤ month) (h' : month < month') :
    ∑ m ∈ Ico 1 month, daysInMonth year m + daysInMonth year month ≤
      ∑ m ∈ Ico 1 month', daysInMonth year m := by
  rw [← sum_Ico_succ_top h]
  exact sum_le_sum_of_subset (Ico_subset_Ico_right h')

theorem dayOfYear_le (t : DateTime) : t.dayOfYear ≤ daysInYear t.year := by
  have hv := t.valid
  have hmonths := sum_months_le t.year hv.month_pos (show t.month < 13 by have := hv.month_le; omega)
  have hday := hv.day_le
  unfold dayOfYear daysInYear
  omega

theorem dayOfYear_pos (t : DateTime) : 0 < t.dayOfYear := by
  have hday := t.valid.day_pos
  unfold dayOfYear
  omega

theorem ordinal_lt_of_year (h : t.year < u.year) : t.ordinal < u.ordinal := by
  have hyears : ∑ y ∈ Ico 1 t.year, daysInYear y + daysInYear t.year ≤
      ∑ y ∈ Ico 1 u.year, daysInYear y := by
    rw [← sum_Ico_succ_top t.valid.year_pos]
    exact sum_le_sum_of_subset (Ico_subset_Ico_right h)
  have hday := dayOfYear_le t
  have hpos := dayOfYear_pos u
  unfold ordinal
  omega

theorem ordinal_lt_of_month (hyear : t.year = u.year) (h : t.month < u.month) :
    t.ordinal < u.ordinal := by
  have hmonths := sum_months_le t.year t.valid.month_pos h
  have hday := t.valid.day_le
  have hpos := u.valid.day_pos
  unfold ordinal dayOfYear
  rw [← hyear]
  omega

theorem ordinal_lt_of_day (hyear : t.year = u.year) (hmonth : t.month = u.month)
    (h : t.day < u.day) : t.ordinal < u.ordinal := by
  unfold ordinal dayOfYear
  rw [← hyear, ← hmonth]
  omega

end DateTime

end UtcDateTime

namespace IsoDateTime

open UtcDateTime

namespace Instant

def elapsed (t : Instant) : Nat := t.time.elapsedSeconds * 1000000 + t.micro

variable {t u : Instant}

/-- The order of the fields, the first difference decides. -/
theorem lt_iff_fields : t < u ↔ t.time.year < u.time.year ∨ t.time.year = u.time.year ∧
    (t.time.month < u.time.month ∨ t.time.month = u.time.month ∧
    (t.time.day < u.time.day ∨ t.time.day = u.time.day ∧
    (t.time.hour < u.time.hour ∨ t.time.hour = u.time.hour ∧
    (t.time.minute < u.time.minute ∨ t.time.minute = u.time.minute ∧
    (t.time.second < u.time.second ∨ t.time.second = u.time.second ∧ t.micro < u.micro))))) := by
  have hmo := t.time.valid.month_le
  have hmo' := u.time.valid.month_le
  have hd := t.time.valid.day_le.trans (DateTime.daysInMonth_le t.time.year t.time.month)
  have hd' := u.time.valid.day_le.trans (DateTime.daysInMonth_le u.time.year u.time.month)
  have hh := t.time.valid.hour_lt
  have hh' := u.time.valid.hour_lt
  have hmi := t.time.valid.minute_lt
  have hmi' := u.time.valid.minute_lt
  have hs := t.time.valid.second_lt
  have hs' := u.time.valid.second_lt
  have hmicro := t.micro_lt
  have hmicro' := u.micro_lt
  simp only [lt_def, stamp, DateTime.stamp]
  omega

theorem elapsed_lt_of_lt (h : t < u) : t.elapsed < u.elapsed := by
  have hh := t.time.valid.hour_lt
  have hmi := t.time.valid.minute_lt
  have hs := t.time.valid.second_lt
  have hmicro := t.micro_lt
  have hlater : t.time.ordinal < u.time.ordinal → t.elapsed < u.elapsed := by
    intro hday
    simp only [elapsed, DateTime.elapsedSeconds]
    omega
  rcases lt_iff_fields.mp h with hyear | ⟨hyear, hmonth | ⟨hmonth, hday | ⟨hday, htime⟩⟩⟩
  · exact hlater (DateTime.ordinal_lt_of_year hyear)
  · exact hlater (DateTime.ordinal_lt_of_month hyear hmonth)
  · exact hlater (DateTime.ordinal_lt_of_day hyear hmonth hday)
  · have hsame : t.time.ordinal = u.time.ordinal := by
      simp only [DateTime.ordinal, DateTime.dayOfYear, hyear, hmonth, hday]
    simp only [elapsed, DateTime.elapsedSeconds, hsame]
    omega

theorem elapsed_lt_iff : t.elapsed < u.elapsed ↔ t < u := by
  refine ⟨fun h => ?_, elapsed_lt_of_lt⟩
  rcases lt_trichotomy t u with hlt | rfl | hgt
  · exact hlt
  · exact absurd h (lt_irrefl _)
  · exact absurd (elapsed_lt_of_lt hgt) h.asymm

end Instant

end IsoDateTime
