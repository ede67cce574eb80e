import Mathlib.Data.String.Basic
import DataService.Lib.IsoOrder

/-! The text of an instant up to its day, its hour or the tens of its minutes names the stretch of
time that the instant lies in. -/

namespace IsoDateTime

open DecimalText UtcDateTime

inductive Width where
  | tenMinutes
  | hour
  | day
  deriving DecidableEq, Repr

namespace Width

def micros : Width → Nat
  | tenMinutes => 600000000
  | hour => 3600000000
  | day => 86400000000

/-- The characters of the text that stand before what the width leaves out. -/
def chars : Width → Nat
  | tenMinutes => 15
  | hour => 13
  | day => 10

theorem micros_pos (w : Width) : 0 < w.micros := by cases w <;> decide

end Width

def floorTenMinutes (t : DateTime) : DateTime :=
  ⟨t.year, t.month, t.day, t.hour, t.minute / 10 * 10, 0, ⟨t.valid.year_pos, t.valid.year_le,
    t.valid.month_pos, t.valid.month_le, t.valid.day_pos, t.valid.day_le, t.valid.hour_lt,
    lt_of_le_of_lt (Nat.div_mul_le_self t.minute 10) t.valid.minute_lt, Nat.zero_lt_succ 59⟩⟩

namespace Instant

/-- The start of the stretch. -/
def floor (w : Width) (t : Instant) : Instant where
  time := match w with
    | .tenMinutes => floorTenMinutes t.time
    | .hour => t.time.floorHour
    | .day => t.time.floorDay
  micro := 0
  micro_lt := zero_micro_lt

variable {t u : Instant} {w : Width}

theorem elapsed_floor : (t.floor w).elapsed = t.elapsed / w.micros * w.micros := by
  have hh := t.time.valid.hour_lt
  have hmi := t.time.valid.minute_lt
  have hs := t.time.valid.second_lt
  have hmicro := t.micro_lt
  have hordinal : (t.floor w).time.ordinal = t.time.ordinal := by cases w <;> rfl
  simp only [elapsed, DateTime.elapsedSeconds, hordinal]
  cases w with
  | tenMinutes => simp only [floor, floorTenMinutes, Width.micros]; omega
  | hour => simp only [floor, DateTime.floorHour, Width.micros]; omega
  | day => simp only [floor, DateTime.floorDay, Width.micros]; omega

theorem floor_le : (t.floor w).elapsed ≤ t.elapsed := by
  rw [elapsed_floor]
  exact Nat.div_mul_le_self _ _

theorem lt_floor_add : t.elapsed < (t.floor w).elapsed + w.micros := by
  rw [elapsed_floor]
  exact Nat.lt_div_mul_add w.micros_pos

end Instant

variable {t u : Instant} {w : Width}

theorem take_chars (w : Width) (t : Instant) : (isoformat t).take w.chars = match w with
    | .tenMinutes => pad 4 t.time.year ++ '-' :: (pad 2 t.time.month ++ '-' :: (pad 2 t.time.day ++
        'T' :: (pad 2 t.time.hour ++ ':' :: pad 1 (t.time.minute / 10))))
    | .hour => pad 4 t.time.year ++ '-' :: (pad 2 t.time.month ++ '-' :: (pad 2 t.time.day ++
        'T' :: pad 2 t.time.hour))
    | .day => pad 4 t.time.year ++ '-' :: (pad 2 t.time.month ++ '-' :: pad 2 t.time.day) := by
  rw [isoformat_eq]
  cases w <;> simp [Width.chars, pad]

theorem take_floor : (isoformat (t.floor w)).take w.chars = (isoformat t).take w.chars := by
  rw [take_chars, take_chars]
  cases w <;> simp [Instant.floor, floorTenMinutes, DateTime.floorHour, DateTime.floorDay]

theorem pad_lt_iff {n m k : Nat} (hm : m < 10 ^ n) (hk : k < 10 ^ n) :
    pad n m < pad n k ↔ m < k := by
  rw [← List.append_nil (pad n m), ← List.append_nil (pad n k), pad_append_lt_iff hm hk]
  simp

theorem take_lt_iff_floor :
    (isoformat t).take w.chars < (isoformat u).take w.chars ↔ t.floor w < u.floor w := by
  have hy := t.time.valid.year_le
  have hy' := u.time.valid.year_le
  have hmo := t.time.valid.month_le
  have hmo' := u.time.valid.month_le
  have hd := t.time.valid.day_le.trans (DateTime.daysInMonth_le t.time.year t.time.month)
  have hd' := u.time.valid.day_le.trans (DateTime.daysInMonth_le u.time.year u.time.month)
  have hh := t.time.valid.hour_lt
  have hh' := u.time.valid.hour_lt
  have hmi := t.time.valid.minute_lt
  have hmi' := u.time.valid.minute_lt
  rw [take_chars, take_chars, Instant.lt_iff_fields]
  cases w with
  | tenMinutes =>
    rw [field_lt_iff (by omega) (by omega), field_lt_iff (by omega) (by omega),
      field_lt_iff (by omega) (by omega), field_lt_iff (by omega) (by omega),
      pad_lt_iff (by omega) (by omega)]
    simp only [Instant.floor, floorTenMinutes]
    omega
  | hour =>
    rw [field_lt_iff (by omega) (by omega), field_lt_iff (by omega) (by omega),
      field_lt_iff (by omega) (by omega), pad_lt_iff (by omega) (by omega)]
    simp only [Instant.floor, DateTime.floorHour]
    omega
  | day =>
    rw [field_lt_iff (by omega) (by omega), field_lt_iff (by omega) (by omega),
      pad_lt_iff (by omega) (by omega)]
    simp only [Instant.floor, DateTime.floorDay]
    omega

theorem take_lt_iff : (isoformat t).take w.chars < (isoformat u).take w.chars ↔
    t.elapsed / w.micros < u.elapsed / w.micros := by
  rw [take_lt_iff_floor, ← Instant.elapsed_lt_iff, Instant.elapsed_floor, Instant.elapsed_floor,
    Nat.mul_lt_mul_right w.micros_pos]

theorem take_eq_iff : (isoformat t).take w.chars = (isoformat u).take w.chars ↔
    t.elapsed / w.micros = u.elapsed / w.micros := by
  have hlt := take_lt_iff (t := t) (u := u) (w := w)
  have hgt := take_lt_iff (t := u) (u := t) (w := w)
  constructor
  · intro h
    rw [h] at hlt hgt
    exact le_antisymm (not_lt.mp fun h' => lt_irrefl _ (hgt.mpr h'))
      (not_lt.mp fun h' => lt_irrefl _ (hlt.mpr h'))
  · intro h
    rw [h] at hlt hgt
    exact le_antisymm (not_lt.mp fun h' => lt_irrefl _ (hgt.mp h'))
      (not_lt.mp fun h' => lt_irrefl _ (hlt.mp h'))

/-- The texts agree up to there if and only if the one instant lies in the stretch of the other. -/
theorem take_eq_iff_floor : (isoformat t).take w.chars = (isoformat u).take w.chars ↔
    (u.floor w).elapsed ≤ t.elapsed ∧ t.elapsed < (u.floor w).elapsed + w.micros := by
  have hpos := w.micros_pos
  rw [take_eq_iff, Instant.elapsed_floor, Nat.div_eq_iff hpos]
  generalize u.elapsed / w.micros * w.micros = start
  omega

end IsoDateTime
