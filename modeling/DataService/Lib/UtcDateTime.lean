import Mathlib.Order.Basic
import Mathlib.Tactic.NormNum

/-! Instants of UTC with a resolution of one second, as fields of the proleptic Gregorian
calendar from year 1 to year 9999. A sum that leaves this range does not exist. -/

namespace UtcDateTime

def isLeap (year : Nat) : Bool :=
  decide (year % 4 = 0) && (decide (year % 100 ≠ 0) || decide (year % 400 = 0))

def daysInMonth (year month : Nat) : Nat :=
  if month = 2 then if isLeap year then 29 else 28
  else if month = 4 ∨ month = 6 ∨ month = 9 ∨ month = 11 then 30
  else 31

structure Valid (year month day hour minute second : Nat) : Prop where
  year_pos : 1 ≤ year
  year_le : year ≤ 9999
  month_pos : 1 ≤ month
  month_le : month ≤ 12
  day_pos : 1 ≤ day
  day_le : day ≤ daysInMonth year month
  hour_lt : hour < 24
  minute_lt : minute < 60
  second_lt : second < 60

theorem valid_iff (year month day hour minute second : Nat) :
    Valid year month day hour minute second ↔
      (1 ≤ year ∧ year ≤ 9999) ∧ (1 ≤ month ∧ month ≤ 12) ∧
      (1 ≤ day ∧ day ≤ daysInMonth year month) ∧ hour < 24 ∧ minute < 60 ∧ second < 60 := by
  constructor
  · intro h
    exact ⟨⟨h.year_pos, h.year_le⟩, ⟨h.month_pos, h.month_le⟩, ⟨h.day_pos, h.day_le⟩, h.hour_lt,
      h.minute_lt, h.second_lt⟩
  · intro h
    obtain ⟨⟨h1, h2⟩, ⟨h3, h4⟩, ⟨h5, h6⟩, h7, h8, h9⟩ := h
    exact ⟨h1, h2, h3, h4, h5, h6, h7, h8, h9⟩

instance (year month day hour minute second : Nat) :
    Decidable (Valid year month day hour minute second) :=
  decidable_of_iff _ (valid_iff year month day hour minute second).symm

structure DateTime where
  year : Nat
  month : Nat
  day : Nat
  hour : Nat
  minute : Nat
  second : Nat
  valid : Valid year month day hour minute second

namespace DateTime

instance : DecidableEq DateTime := fun a b =>
  decidable_of_iff (a.year = b.year ∧ a.month = b.month ∧ a.day = b.day ∧ a.hour = b.hour ∧
    a.minute = b.minute ∧ a.second = b.second) (by cases a; cases b; simp)

/-- The constructor, which refuses fields that are no date. -/
def ofFields (year month day hour minute second : Nat) : Option DateTime :=
  if h : Valid year month day hour minute second then
    some ⟨year, month, day, hour, minute, second, h⟩
  else none

theorem ofFields_self (t : DateTime) :
    ofFields t.year t.month t.day t.hour t.minute t.second = some t :=
  dif_pos t.valid

theorem ofFields_eq_some {year month day hour minute second : Nat} {t : DateTime}
    (h : ofFields year month day hour minute second = some t) :
    t.year = year ∧ t.month = month ∧ t.day = day ∧ t.hour = hour ∧ t.minute = minute ∧
      t.second = second := by
  unfold ofFields at h
  split_ifs at h with hv
  cases h
  exact ⟨rfl, rfl, rfl, rfl, rfl, rfl⟩

/-- Fields in the order in which they are compared, in one number. -/
def stamp (t : DateTime) : Nat :=
  ((((t.year * 13 + t.month) * 32 + t.day) * 24 + t.hour) * 60 + t.minute) * 60 + t.second

theorem daysInMonth_le (year month : Nat) : daysInMonth year month ≤ 31 := by
  unfold daysInMonth
  split_ifs <;> omega

theorem eq_of_fields {a b : DateTime} (hy : a.year = b.year) (hmo : a.month = b.month)
    (hd : a.day = b.day) (hh : a.hour = b.hour) (hmi : a.minute = b.minute)
    (hs : a.second = b.second) : a = b := by
  cases a
  cases b
  simp_all

theorem stamp_injective : Function.Injective stamp := by
  intro a b h
  have hmo := a.valid.month_le
  have hmo' := b.valid.month_le
  have hd := a.valid.day_le.trans (daysInMonth_le a.year a.month)
  have hd' := b.valid.day_le.trans (daysInMonth_le b.year b.month)
  have hh := a.valid.hour_lt
  have hh' := b.valid.hour_lt
  have hmi := a.valid.minute_lt
  have hmi' := b.valid.minute_lt
  have hs := a.valid.second_lt
  have hs' := b.valid.second_lt
  simp only [stamp] at h
  apply eq_of_fields <;> omega

instance : LinearOrder DateTime := LinearOrder.lift' stamp stamp_injective

theorem le_def {t u : DateTime} : t ≤ u ↔ t.stamp ≤ u.stamp := Iff.rfl

theorem lt_def {t u : DateTime} : t < u ↔ t.stamp < u.stamp := Iff.rfl

/-- The same time on the day after. -/
def addDay (t : DateTime) : Option DateTime :=
  if t.day < daysInMonth t.year t.month then
    ofFields t.year t.month (t.day + 1) t.hour t.minute t.second
  else if t.month < 12 then ofFields t.year (t.month + 1) 1 t.hour t.minute t.second
  else ofFields (t.year + 1) 1 1 t.hour t.minute t.second

/-- The hour at which this hour of the clock starts. -/
def floorHour (t : DateTime) : DateTime :=
  ⟨t.year, t.month, t.day, t.hour, 0, 0, ⟨t.valid.year_pos, t.valid.year_le, t.valid.month_pos,
    t.valid.month_le, t.valid.day_pos, t.valid.day_le, t.valid.hour_lt, by omega, by omega⟩⟩

def floorDay (t : DateTime) : DateTime :=
  ⟨t.year, t.month, t.day, 0, 0, 0, ⟨t.valid.year_pos, t.valid.year_le, t.valid.month_pos,
    t.valid.month_le, t.valid.day_pos, t.valid.day_le, by omega, by omega, by omega⟩⟩

def addHour (t : DateTime) : Option DateTime :=
  if t.hour < 23 then ofFields t.year t.month t.day (t.hour + 1) t.minute t.second
  else t.addDay.bind fun u => ofFields u.year u.month u.day 0 t.minute t.second

theorem lt_addDay {t u : DateTime} (h : t.addDay = some u) : t < u := by
  have hday := t.valid.day_le
  have hdays := daysInMonth_le t.year t.month
  have hmonth := t.valid.month_le
  rw [lt_def]
  unfold addDay at h
  split_ifs at h
  · obtain ⟨h1, h2, h3, h4, h5, h6⟩ := ofFields_eq_some h
    simp only [stamp, h1, h2, h3, h4, h5, h6]
    omega
  · obtain ⟨h1, h2, h3, h4, h5, h6⟩ := ofFields_eq_some h
    simp only [stamp, h1, h2, h3, h4, h5, h6]
    omega
  · obtain ⟨h1, h2, h3, h4, h5, h6⟩ := ofFields_eq_some h
    simp only [stamp, h1, h2, h3, h4, h5, h6]
    omega

theorem floorHour_eq_iff {x t : DateTime} (hm : t.minute = 0) (hs : t.second = 0) :
    x.floorHour = t ↔
      x.year = t.year ∧ x.month = t.month ∧ x.day = t.day ∧ x.hour = t.hour := by
  constructor
  · rintro rfl
    exact ⟨rfl, rfl, rfl, rfl⟩
  · intro h
    exact eq_of_fields h.1 h.2.1 h.2.2.1 h.2.2.2 hm.symm hs.symm

/-- The instants of the hour that starts at a full hour are those with its date and hour. -/
theorem in_hour_iff {t e x : DateTime} (hm : t.minute = 0) (hs : t.second = 0)
    (he : t.addHour = some e) : t ≤ x ∧ x < e ↔ x.floorHour = t := by
  rw [floorHour_eq_iff hm hs, le_def, lt_def]
  have hmo := t.valid.month_le
  have hd := t.valid.day_le
  have hdays := daysInMonth_le t.year t.month
  have hhour := t.valid.hour_lt
  have hmo' := x.valid.month_le
  have hmo1 := x.valid.month_pos
  have hd' := x.valid.day_le
  have hdays' := daysInMonth_le x.year x.month
  have hd1 := x.valid.day_pos
  have hhour' := x.valid.hour_lt
  have hmi' := x.valid.minute_lt
  have hs' := x.valid.second_lt
  -- Two days of one month have the same last day of the month.
  have hsame : x.year = t.year → x.month = t.month → x.day ≤ daysInMonth t.year t.month := by
    intro hy hmonth
    rw [← hy, ← hmonth]
    exact hd'
  unfold addHour at he
  split_ifs at he with hlast
  · obtain ⟨h1, h2, h3, h4, h5, h6⟩ := ofFields_eq_some he
    simp only [stamp, h1, h2, h3, h4, h5, h6, hm, hs]
    omega
  · obtain ⟨u, hu, he⟩ := Option.bind_eq_some_iff.mp he
    obtain ⟨h1, h2, h3, h4, h5, h6⟩ := ofFields_eq_some he
    have h23 : t.hour = 23 := by omega
    unfold addDay at hu
    split_ifs at hu with hday hmonth
    · obtain ⟨g1, g2, g3, -, -, -⟩ := ofFields_eq_some hu
      simp only [stamp, h1, h2, h3, h4, h5, h6, g1, g2, g3, hm, hs, h23]
      omega
    · obtain ⟨g1, g2, g3, -, -, -⟩ := ofFields_eq_some hu
      simp only [stamp, h1, h2, h3, h4, h5, h6, g1, g2, g3, hm, hs, h23]
      omega
    · obtain ⟨g1, g2, g3, -, -, -⟩ := ofFields_eq_some hu
      simp only [stamp, h1, h2, h3, h4, h5, h6, g1, g2, g3, hm, hs, h23]
      omega

theorem one_le_daysInMonth (year month : Nat) : 1 ≤ daysInMonth year month := by
  unfold daysInMonth
  split_ifs <;> omega

theorem exists_ofFields {year month day hour minute second : Nat}
    (h : Valid year month day hour minute second) :
    ∃ t, ofFields year month day hour minute second = some t :=
  ⟨_, dif_pos h⟩

theorem exists_addDay {t : DateTime} (h : t.year ≤ 9998) : ∃ u, t.addDay = some u := by
  have hv := t.valid
  unfold addDay
  split_ifs with hday hmonth
  · exact exists_ofFields ⟨hv.year_pos, hv.year_le, hv.month_pos, hv.month_le, by omega, hday,
      hv.hour_lt, hv.minute_lt, hv.second_lt⟩
  · exact exists_ofFields ⟨hv.year_pos, hv.year_le, by omega, hmonth, le_rfl,
      one_le_daysInMonth _ _, hv.hour_lt, hv.minute_lt, hv.second_lt⟩
  · exact exists_ofFields ⟨by omega, by omega, le_rfl, by omega, le_rfl,
      one_le_daysInMonth _ _, hv.hour_lt, hv.minute_lt, hv.second_lt⟩

theorem exists_addHour_of_addDay {t u : DateTime} (h : t.addDay = some u) :
    ∃ e, t.addHour = some e := by
  have hv := t.valid
  have hv' := u.valid
  unfold addHour
  split_ifs with hlast
  · exact exists_ofFields ⟨hv.year_pos, hv.year_le, hv.month_pos, hv.month_le, hv.day_pos, hv.day_le,
      by omega, hv.minute_lt, hv.second_lt⟩
  · rw [h, Option.bind_some]
    exact exists_ofFields ⟨hv'.year_pos, hv'.year_le, hv'.month_pos, hv'.month_le, hv'.day_pos,
      hv'.day_le, by omega, hv.minute_lt, hv.second_lt⟩

theorem exists_addHour {t : DateTime} (h : t.year ≤ 9998) : ∃ e, t.addHour = some e := by
  obtain ⟨u, hu⟩ := exists_addDay h
  exact exists_addHour_of_addDay hu

theorem le_daysInMonth (year month : Nat) : 28 ≤ daysInMonth year month := by
  unfold daysInMonth
  split_ifs <;> omega

theorem addDay_eq_none_iff {t : DateTime} :
    t.addDay = none ↔ t.year = 9999 ∧ t.month = 12 ∧ t.day = 31 := by
  have hv := t.valid
  have hyear := hv.year_le
  have hmonth := hv.month_le
  have hday := hv.day_le
  constructor
  · intro hnone
    have hlast : t.year = 9999 := by
      by_contra hne
      obtain ⟨u, hu⟩ := exists_addDay (t := t) (by omega)
      rw [hu] at hnone
      cases hnone
    unfold addDay at hnone
    split_ifs at hnone with hmore hless
    · obtain ⟨u, hu⟩ := exists_ofFields (⟨hv.year_pos, hv.year_le, hv.month_pos, hv.month_le,
        by omega, hmore, hv.hour_lt, hv.minute_lt, hv.second_lt⟩ :
          Valid t.year t.month (t.day + 1) t.hour t.minute t.second)
      rw [hu] at hnone
      cases hnone
    · obtain ⟨u, hu⟩ := exists_ofFields (⟨hv.year_pos, hv.year_le, by omega, hless, le_rfl,
        one_le_daysInMonth _ _, hv.hour_lt, hv.minute_lt, hv.second_lt⟩ :
          Valid t.year (t.month + 1) 1 t.hour t.minute t.second)
      rw [hu] at hnone
      cases hnone
    · have hdecember : t.month = 12 := by omega
      have hdays : daysInMonth 9999 12 = 31 := by decide
      rw [hlast, hdecember, hdays] at hmore hday
      exact ⟨hlast, hdecember, by omega⟩
  · rintro ⟨h1, h2, h3⟩
    have hdays : ¬ t.day < daysInMonth t.year t.month := by
      rw [h1, h2, h3]
      decide
    have hbeyond : ¬ Valid (t.year + 1) 1 1 t.hour t.minute t.second := by
      intro hvalid
      have hle := hvalid.year_le
      omega
    rw [addDay, if_neg hdays, if_neg (by omega), ofFields, dif_neg hbeyond]

end DateTime

end UtcDateTime
