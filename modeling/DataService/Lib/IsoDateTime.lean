import DataService.Lib.DecimalText
import DataService.Lib.UtcDateTime

/-! Instants of UTC with microseconds, their ISO 8601 text, and readers of such text. What a
reader makes of other texts is its own affair; the canonical text gives back its instant. -/

namespace IsoDateTime

open DecimalText UtcDateTime

structure Instant where
  time : DateTime
  micro : Nat
  micro_lt : micro < 1000000

namespace Instant

theorem zero_micro_lt : 0 < 1000000 := by decide

def stamp (t : Instant) : Nat := t.time.stamp * 1000000 + t.micro

theorem stamp_injective : Function.Injective stamp := by
  intro a b h
  have ha := a.micro_lt
  have hb := b.micro_lt
  simp only [stamp] at h
  have htime : a.time = b.time := DateTime.stamp_injective (by omega)
  have hmicro : a.micro = b.micro := by omega
  cases a
  cases b
  simp_all

instance : LinearOrder Instant := LinearOrder.lift' stamp stamp_injective

theorem lt_def {t u : Instant} : t < u ↔ t.stamp < u.stamp := Iff.rfl

end Instant

/-- The same time on the day before. -/
def subDay (t : DateTime) : Option DateTime :=
  if 1 < t.day then DateTime.ofFields t.year t.month (t.day - 1) t.hour t.minute t.second
  else if 1 < t.month then
    DateTime.ofFields t.year (t.month - 1) (daysInMonth t.year (t.month - 1)) t.hour t.minute t.second
  else DateTime.ofFields (t.year - 1) 12 31 t.hour t.minute t.second

/-- The microseconds of a day. -/
def dayLength : Int := 86400000000

/-- The microseconds since midnight. -/
def Instant.sinceMidnight (t : Instant) : Int :=
  (((t.time.hour * 60 + t.time.minute) * 60 + t.time.second) * 1000000 + t.micro : Nat)

/-- That many microseconds into the day of `t`. -/
def atMicro (t : DateTime) (micros : Nat) : Option Instant :=
  (DateTime.ofFields t.year t.month t.day (micros / 3600000000) (micros / 60000000 % 60)
    (micros / 1000000 % 60)).map fun u => ⟨u, micros % 1000000, Nat.mod_lt _ (by omega)⟩

/-- An instant less an offset of under a day; none outside the calendar. -/
def Instant.minus (t : Instant) (offset : Int) : Option Instant :=
  let micros := t.sinceMidnight - offset
  if micros < 0 then (subDay t.time).bind fun day => atMicro day (micros + dayLength).toNat
  else if micros < dayLength then atMicro t.time micros.toNat
  else t.time.addDay.bind fun day => atMicro day (micros - dayLength).toNat

theorem atMicro_self (t : Instant) {micros : Nat} (h : micros =
    ((t.time.hour * 60 + t.time.minute) * 60 + t.time.second) * 1000000 + t.micro) :
    atMicro t.time micros = some t := by
  have hminute := t.time.valid.minute_lt
  have hsecond := t.time.valid.second_lt
  have hmicro := t.micro_lt
  have h1 : micros / 3600000000 = t.time.hour := by omega
  have h2 : micros / 60000000 % 60 = t.time.minute := by omega
  have h3 : micros / 1000000 % 60 = t.time.second := by omega
  have h4 : micros % 1000000 = t.micro := by omega
  simp only [atMicro, h1, h2, h3, h4, DateTime.ofFields_self, Option.map_some]

theorem Instant.minus_zero (t : Instant) : t.minus 0 = some t := by
  have hhour := t.time.valid.hour_lt
  have hminute := t.time.valid.minute_lt
  have hsecond := t.time.valid.second_lt
  have hmicro := t.micro_lt
  have hnonneg : ¬ t.sinceMidnight - 0 < 0 := by
    simp only [sinceMidnight]
    omega
  have hday : t.sinceMidnight - 0 < dayLength := by
    simp only [sinceMidnight, dayLength]
    omega
  simp only [minus, if_neg hnonneg, if_pos hday]
  apply atMicro_self
  simp only [sinceMidnight]
  omega

/-- The same time, days before. -/
def daysBefore : Nat → DateTime → Option DateTime
  | 0, t => some t
  | n + 1, t => (subDay t).bind (daysBefore n)

/-- An instant less a duration; none before the calendar. -/
def Instant.before (t : Instant) (micros : Nat) : Option Instant :=
  let rest := t.sinceMidnight - micros
  (daysBefore (-(rest / dayLength)).toNat t.time).bind fun day =>
    atMicro day (rest % dayLength).toNat

theorem subDay_cases (t : DateTime) :
    (subDay t = none ∧ t.year = 1 ∧ t.month = 1 ∧ t.day = 1) ∨
    ∃ u, subDay t = some u ∧
      ((u.year = t.year ∧ u.month = t.month ∧ u.day + 1 = t.day) ∨
        t.day = 1 ∧ 28 ≤ u.day ∧ (t.month = 1 → t.year ≠ 1)) := by
  have hv := t.valid
  have hdaypos := hv.day_pos
  have hmonthpos := hv.month_pos
  have hyearpos := hv.year_pos
  unfold subDay
  split_ifs with hday hmonth
  · obtain ⟨u, hu⟩ := DateTime.exists_ofFields (⟨hv.year_pos, hv.year_le, hv.month_pos, hv.month_le,
      by omega, by have := hv.day_le; omega, hv.hour_lt, hv.minute_lt, hv.second_lt⟩ :
        Valid t.year t.month (t.day - 1) t.hour t.minute t.second)
    obtain ⟨h1, h2, h3, -⟩ := DateTime.ofFields_eq_some hu
    exact .inr ⟨u, hu, .inl ⟨h1, h2, by omega⟩⟩
  · have hlong := DateTime.le_daysInMonth t.year (t.month - 1)
    have hmonthle := hv.month_le
    obtain ⟨u, hu⟩ := DateTime.exists_ofFields (⟨hv.year_pos, hv.year_le, by omega, by omega,
      by omega, le_rfl, hv.hour_lt, hv.minute_lt, hv.second_lt⟩ :
        Valid t.year (t.month - 1) (daysInMonth t.year (t.month - 1)) t.hour t.minute t.second)
    obtain ⟨-, -, h3, -⟩ := DateTime.ofFields_eq_some hu
    exact .inr ⟨u, hu, .inr ⟨by omega, by omega, by omega⟩⟩
  · by_cases hfirst : t.year = 1
    · refine .inl ⟨?_, hfirst, by omega, by omega⟩
      have hbefore : ¬ Valid (t.year - 1) 12 31 t.hour t.minute t.second := by
        intro hvalid
        have hpos := hvalid.year_pos
        omega
      rw [DateTime.ofFields, dif_neg hbefore]
    · have hdays : daysInMonth (t.year - 1) 12 = 31 := by simp [daysInMonth]
      have hyearle := hv.year_le
      obtain ⟨u, hu⟩ := DateTime.exists_ofFields (⟨by omega, by omega, by omega, by omega, by omega,
        by rw [hdays], hv.hour_lt, hv.minute_lt, hv.second_lt⟩ :
          Valid (t.year - 1) 12 31 t.hour t.minute t.second)
      obtain ⟨-, -, h3, -⟩ := DateTime.ofFields_eq_some hu
      exact .inr ⟨u, hu, .inr ⟨by omega, by omega, fun _ => hfirst⟩⟩

/-- Some days back are too many only in the first month of the calendar. -/
theorem daysBefore_eq_none_iff {n : Nat} (hn : n < 28) {t : DateTime} :
    daysBefore n t = none ↔ t.year = 1 ∧ t.month = 1 ∧ t.day ≤ n := by
  induction n generalizing t with
  | zero =>
    have hpos := t.valid.day_pos
    refine iff_of_false (by simp [daysBefore]) ?_
    omega
  | succ n ih =>
    rw [daysBefore]
    rcases subDay_cases t with ⟨hnone, hyear, hmonth, hday⟩ | ⟨u, hu, hcase⟩
    · rw [hnone]
      exact iff_of_true rfl ⟨hyear, hmonth, by omega⟩
    · rw [hu, Option.bind_some, ih (by omega)]
      rcases hcase with ⟨h1, h2, h3⟩ | ⟨h1, h2, h3⟩
      · omega
      · constructor
        · rintro ⟨-, -, h⟩
          omega
        · rintro ⟨hyear, hmonth, -⟩
          exact absurd hyear (h3 hmonth)

theorem exists_atMicro (t : DateTime) (micros : Nat) (h : micros < 86400000000) :
    ∃ u, atMicro t micros = some u := by
  have hv := t.valid
  obtain ⟨u, hu⟩ := DateTime.exists_ofFields (⟨hv.year_pos, hv.year_le, hv.month_pos, hv.month_le,
    hv.day_pos, hv.day_le, by omega, by omega, by omega⟩ : Valid t.year t.month t.day
      (micros / 3600000000) (micros / 60000000 % 60) (micros / 1000000 % 60))
  exact ⟨_, by rw [atMicro, hu, Option.map_some]⟩

/-- Under four weeks before an instant is out of the calendar exactly if the calendar starts
after that. -/
theorem before_eq_none_iff {t : Instant} {micros : Nat} (h : micros ≤ 2332800000000) :
    t.before micros = none ↔ t.time.year = 1 ∧ t.time.month = 1 ∧
      (t.time.day - 1 : Int) * dayLength + t.sinceMidnight < micros := by
  have hmidnight : 0 ≤ t.sinceMidnight := Int.natCast_nonneg _
  have hlast : t.sinceMidnight < dayLength := by
    have hhour := t.time.valid.hour_lt
    have hminute := t.time.valid.minute_lt
    have hsecond := t.time.valid.second_lt
    have hmicro := t.micro_lt
    simp only [Instant.sinceMidnight, dayLength]
    omega
  simp only [dayLength] at hlast ⊢
  generalize hsince : t.sinceMidnight = since at *
  have hn : (-((since - micros) / 86400000000)).toNat < 28 := by omega
  have hbind : t.before micros = none ↔
      daysBefore (-((since - micros) / 86400000000)).toNat t.time = none := by
    simp only [Instant.before, hsince, dayLength]
    cases daysBefore (-((since - micros) / 86400000000)).toNat t.time with
    | none => simp
    | some day =>
      obtain ⟨u, hu⟩ := exists_atMicro day ((since - micros) % 86400000000).toNat (by omega)
      simp [hu]
  rw [hbind, daysBefore_eq_none_iff hn]
  omega

/-- Date and time without an offset. -/
def isoStem (t : Instant) : List Char :=
  pad 4 t.time.year ++ '-' :: (pad 2 t.time.month ++ '-' :: (pad 2 t.time.day ++ 'T' ::
    (pad 2 t.time.hour ++ ':' :: (pad 2 t.time.minute ++ ':' :: (pad 2 t.time.second ++
      if t.micro = 0 then [] else '.' :: pad 6 t.micro)))))

/-- `isoformat` of an instant with the offset of UTC -/
def isoformat (t : Instant) : List Char := isoStem t ++ "+00:00".toList

/-- A reader of ISO text: a date and a time, and an offset if there is one. -/
structure IsoReader where
  fromisoformat : List Char → Option (Instant × Option Int)
  fromisoformat_isoformat : ∀ t, fromisoformat (isoformat t) = some (t, some 0)

/-- `str.replace`, where `skip` characters of a match are still to be passed over -/
def replaceText (old new : List Char) (skip : Nat) : List Char → List Char
  | [] => []
  | c :: cs =>
    if 0 < skip then replaceText old new (skip - 1) cs
    else if old <+: c :: cs then new ++ replaceText old new (old.length - 1) cs
    else c :: replaceText old new 0 cs

section Text

variable {t : Instant} {c : Char}

theorem mem_pad {w n : Nat} (h : c ∈ pad w n) : 48 ≤ c.toNat ∧ c.toNat < 58 := by
  induction w with
  | zero => cases h
  | succ w ih =>
    rcases List.mem_cons.mp h with rfl | h
    · have hlt : n / 10 ^ w % 10 < 10 := Nat.mod_lt _ (by omega)
      rw [Nat.toNat_digitChar_of_lt_ten hlt]
      omega
    · exact ih h

theorem notMem_isoStem (hc : ¬ (48 ≤ c.toNat ∧ c.toNat < 58)) (hsigns : c ∉ ['-', 'T', ':', '.']) :
    c ∉ isoStem t := by
  have hpad : ∀ w n, c ∉ pad w n := fun w n h => hc (mem_pad h)
  simp only [List.mem_cons, List.not_mem_nil, or_false, not_or] at hsigns
  have hmicro : c ∉ (if t.micro = 0 then [] else '.' :: pad 6 t.micro) := by
    split
    · simp
    · simp [hsigns, hpad]
  simp [isoStem, hpad, hsigns, hmicro]

theorem replaceText_append {old new cs : List Char} (h : c ∉ cs) (hold : old.head? = some c)
    (rest : List Char) : replaceText old new 0 (cs ++ rest) = cs ++ replaceText old new 0 rest := by
  induction cs with
  | nil => rfl
  | cons d cs ih =>
    have hnot : ¬ old <+: d :: (cs ++ rest) := by
      intro hstart
      obtain ⟨o, os, rfl⟩ : ∃ o os, old = o :: os := by
        cases old with
        | nil => cases hold
        | cons o os => exact ⟨o, os, rfl⟩
      obtain rfl : o = c := by simpa using hold
      exact h (by simp [(List.cons_prefix_cons.mp hstart).1])
    have htail := ih fun hm => h (List.mem_cons_of_mem d hm)
    simp only [List.cons_append, replaceText, lt_irrefl, if_false, if_neg hnot, htail]

/-- The offset of UTC becomes a `Z`. -/
theorem replaceText_isoformat :
    replaceText "+00:00".toList ['Z'] 0 (isoformat t) = isoStem t ++ ['Z'] := by
  have hplus : '+' ∉ isoStem t := notMem_isoStem (by decide) (by decide)
  rw [isoformat, replaceText_append hplus rfl]
  rfl

end Text

section Canonical

variable (D : DigitTable)

/-- A number of fixed width and the sign behind it. -/
def readField (w : Nat) (sign : Char) (cs : List Char) : Option (Nat × List Char) :=
  (readDigits D w 0 cs).bind fun p => (readChar sign p.2).map fun rest => (p.1, rest)

/-- No offset, or one of hours and minutes. -/
def readOffset : List Char → Option (Option Int)
  | [] => some none
  | c :: cs =>
    (readField D 2 ':' cs).bind fun hours =>
      (readDigits D 2 0 hours.2).bind fun minutes =>
        if minutes.2 = [] ∧ minutes.1 < 60 ∧ hours.1 < 24 then
          let offset : Int := ((hours.1 * 60 + minutes.1) * 60000000 : Nat)
          if c = '+' then some (some offset) else if c = '-' then some (some (-offset)) else none
        else none

def readMicro : List Char → Option (Nat × List Char)
  | '.' :: cs => readDigits D 6 0 cs
  | cs => some (0, cs)

/-- The texts that `isoformat` writes, with any offset of minutes. -/
def readCanonical (cs : List Char) : Option (Instant × Option Int) :=
  (readField D 4 '-' cs).bind fun year =>
  (readField D 2 '-' year.2).bind fun month =>
  (readField D 2 'T' month.2).bind fun day =>
  (readField D 2 ':' day.2).bind fun hour =>
  (readField D 2 ':' hour.2).bind fun minute =>
  (readDigits D 2 0 minute.2).bind fun second =>
  (readMicro D second.2).bind fun micro =>
  (readOffset D micro.2).bind fun offset =>
  (DateTime.ofFields year.1 month.1 day.1 hour.1 minute.1 second.1).bind fun time =>
    if h : micro.1 < 1000000 then some (⟨time, micro.1, h⟩, offset) else none

variable {D}

theorem readField_pad {w n : Nat} (h : n < 10 ^ w) (sign : Char) (cs : List Char) :
    readField D w sign (pad w n ++ sign :: cs) = some (n, cs) := by
  rw [readField, read_pad D h, Option.bind_some, readChar_cons, Option.map_some]

theorem readOffset_zero : readOffset D "+00:00".toList = some (some 0) := by
  have hzeros : "+00:00".toList = '+' :: (pad 2 0 ++ ':' :: (pad 2 0 ++ [])) := rfl
  rw [hzeros, readOffset, readField_pad (by omega), Option.bind_some, read_pad D (by omega)]
  rfl

theorem readMicro_pad {micro : Nat} (h : micro < 1000000) :
    readMicro D ((if micro = 0 then [] else '.' :: pad 6 micro) ++ "+00:00".toList) =
      some (micro, "+00:00".toList) := by
  split
  · rename_i hzero
    rw [hzero]
    rfl
  · rw [List.cons_append, readMicro, read_pad D (by omega)]

variable (D) in
theorem readCanonical_isoformat (t : Instant) :
    readCanonical D (isoformat t) = some (t, some 0) := by
  obtain ⟨time, micro, hmicro⟩ := t
  have hv := time.valid
  have hyear := hv.year_le
  have hmonth := hv.month_le
  have hday := hv.day_le.trans (DateTime.daysInMonth_le time.year time.month)
  have hhour := hv.hour_lt
  have hminute := hv.minute_lt
  have hsecond := hv.second_lt
  have htext : isoformat ⟨time, micro, hmicro⟩ =
      pad 4 time.year ++ '-' :: (pad 2 time.month ++ '-' :: (pad 2 time.day ++ 'T' ::
        (pad 2 time.hour ++ ':' :: (pad 2 time.minute ++ ':' :: (pad 2 time.second ++
          ((if micro = 0 then [] else '.' :: pad 6 micro) ++ "+00:00".toList)))))) := by
    simp only [isoformat, isoStem, List.append_assoc, List.cons_append]
  rw [htext, readCanonical, readField_pad (by omega), Option.bind_some, readField_pad (by omega),
    Option.bind_some, readField_pad (by omega), Option.bind_some, readField_pad (by omega),
    Option.bind_some, readField_pad (by omega), Option.bind_some, read_pad D (by omega),
    Option.bind_some, readMicro_pad hmicro, Option.bind_some, readOffset_zero, Option.bind_some,
    DateTime.ofFields_self, Option.bind_some, dif_pos hmicro]

/-- A reader of these texts and no others. -/
def IsoReader.canonical : IsoReader where
  fromisoformat := readCanonical .asciiOnly
  fromisoformat_isoformat := readCanonical_isoformat .asciiOnly

end Canonical

end IsoDateTime
