import DataService.Lib.ElapsedTime

/-! The text of instants is in the order of the instants. Two texts have their signs at the same
places up to the seconds; behind them a fraction is later than none, and the point of a fraction
comes after the plus sign of the offset. -/

namespace DecimalText

variable {w m n : Nat} {cs ds : List Char}

theorem digitChar_lt_iff {d e : Nat} (hd : d < 10) (he : e < 10) :
    Nat.digitChar d < Nat.digitChar e ↔ d < e := by
  have hchars : Nat.digitChar d < Nat.digitChar e ↔
      (Nat.digitChar d).toNat < (Nat.digitChar e).toNat := Iff.rfl
  rw [hchars, Nat.toNat_digitChar_of_lt_ten hd, Nat.toNat_digitChar_of_lt_ten he]
  omega

theorem digitChar_eq_iff {d e : Nat} (hd : d < 10) (he : e < 10) :
    Nat.digitChar d = Nat.digitChar e ↔ d = e := by
  rw [← Char.toNat_inj, Nat.toNat_digitChar_of_lt_ten hd, Nat.toNat_digitChar_of_lt_ten he]
  omega

/-- The last `w` digits are compared before what follows them. -/
theorem pad_append_lt_mod (w m n : Nat) : pad w m ++ cs < pad w n ++ ds ↔
    m % 10 ^ w < n % 10 ^ w ∨ m % 10 ^ w = n % 10 ^ w ∧ cs < ds := by
  induction w with
  | zero => simp [pad, Nat.mod_one]
  | succ w ih =>
    have hm : m / 10 ^ w % 10 < 10 := Nat.mod_lt _ (by omega)
    have hn : n / 10 ^ w % 10 < 10 := Nat.mod_lt _ (by omega)
    have hpos : 0 < 10 ^ w := by positivity
    have hmlow : m % 10 ^ w < 10 ^ w := Nat.mod_lt _ hpos
    have hnlow : n % 10 ^ w < 10 ^ w := Nat.mod_lt _ hpos
    rw [pad, pad, List.cons_append, List.cons_append, List.cons_lt_cons_iff, ih,
      digitChar_lt_iff hm hn, digitChar_eq_iff hm hn, Nat.mod_pow_succ, Nat.mod_pow_succ]
    generalize m / 10 ^ w % 10 = d at *
    generalize n / 10 ^ w % 10 = e at *
    generalize m % 10 ^ w = r at *
    generalize n % 10 ^ w = q at *
    generalize 10 ^ w = k at *
    rcases Nat.lt_trichotomy d e with hlt | rfl | hgt
    · have hmul : k * (d + 1) ≤ k * e := Nat.mul_le_mul_left k hlt
      rw [Nat.mul_add, Nat.mul_one] at hmul
      exact iff_of_true (.inl hlt) (.inl (by omega))
    · simp
    · have hmul : k * (e + 1) ≤ k * d := Nat.mul_le_mul_left k hgt
      rw [Nat.mul_add, Nat.mul_one] at hmul
      refine iff_of_false (by omega) (by omega)

theorem pad_append_lt_iff (hm : m < 10 ^ w) (hn : n < 10 ^ w) :
    pad w m ++ cs < pad w n ++ ds ↔ m < n ∨ m = n ∧ cs < ds := by
  rw [pad_append_lt_mod, Nat.mod_eq_of_lt hm, Nat.mod_eq_of_lt hn]

/-- A field of fixed width and the sign behind it. -/
theorem field_lt_iff (hm : m < 10 ^ w) (hn : n < 10 ^ w) (sign : Char) :
    pad w m ++ sign :: cs < pad w n ++ sign :: ds ↔ m < n ∨ m = n ∧ cs < ds := by
  rw [pad_append_lt_iff hm hn, List.cons_lt_cons_iff]
  simp

end DecimalText

namespace IsoDateTime

open DecimalText UtcDateTime

/-- What stands behind the seconds. -/
def fraction (micro : Nat) : List Char :=
  (if micro = 0 then [] else '.' :: pad 6 micro) ++ "+00:00".toList

theorem fraction_lt_iff {m n : Nat} (hm : m < 1000000) (hn : n < 1000000) :
    fraction m < fraction n ↔ m < n := by
  unfold fraction
  split <;> split
  · simp_all
  · rename_i hzero hne
    have hsign : '+' < '.' := by decide
    exact iff_of_true (List.cons_lt_cons_iff.mpr (.inl hsign)) (by omega)
  · rename_i hne hzero
    have hsign : ¬ ('.' < '+' ∨ '.' = '+' ∧ pad 6 m ++ "+00:00".toList < "00:00".toList) := by simp
    exact iff_of_false (fun h => hsign (List.cons_lt_cons_iff.mp h)) (by omega)
  · rw [List.cons_append, List.cons_append, List.cons_lt_cons_iff,
      pad_append_lt_iff (by omega) (by omega)]
    simp

theorem isoformat_eq (t : Instant) : isoformat t =
    pad 4 t.time.year ++ '-' :: (pad 2 t.time.month ++ '-' :: (pad 2 t.time.day ++ 'T' ::
      (pad 2 t.time.hour ++ ':' :: (pad 2 t.time.minute ++ ':' :: (pad 2 t.time.second ++
        fraction t.micro))))) := by
  simp only [isoformat, isoStem, fraction, List.append_assoc, List.cons_append]

/-- The lexicographic order of the texts is the order of the instants. -/
theorem isoformat_lt_iff {t u : Instant} : isoformat t < isoformat u ↔ t < u := by
  have hy := t.time.valid.year_le
  have hy' := u.time.valid.year_le
  have hmo := t.time.valid.month_le
  have hmo' := u.time.valid.month_le
  have hd := t.time.valid.day_le.trans (DateTime.daysInMonth_le t.time.year t.time.month)
  have hd' := u.time.valid.day_le.trans (DateTime.daysInMonth_le u.time.year u.time.month)
  have hh := t.time.valid.hour_lt
  have hh' := u.time.valid.hour_lt
  have hmi := t.time.valid.minute_lt
  have hmi' := u.time.valid.minute_lt
  have hs := t.time.valid.second_lt
  have hs' := u.time.valid.second_lt
  rw [isoformat_eq, isoformat_eq, field_lt_iff (by omega) (by omega),
    field_lt_iff (by omega) (by omega), field_lt_iff (by omega) (by omega),
    field_lt_iff (by omega) (by omega), field_lt_iff (by omega) (by omega),
    pad_append_lt_iff (by omega) (by omega), fraction_lt_iff t.micro_lt u.micro_lt,
    Instant.lt_iff_fields]

end IsoDateTime
