import DataService.Sync.WrfSync

/-! The names of WRF runs and steps. Tags have one width, so that the order of the names, of
the times and of the scores is one. -/

namespace DataService.Sync

open NumberText

/-- `YYYYMMDD_HHmmss` -/
def IsInitTag (name : String) : Prop :=
  name.toList.length = 15 ∧ name.toList[8]? = some '_' ∧
    ∀ c ∈ name.toList.take 8 ++ name.toList.drop 9, IsAsciiDigit c

/-- `F` and digits -/
def IsStepTag (name : String) : Prop :=
  name.toList.head? = some 'F' ∧ name.toList.drop 1 ≠ [] ∧
    ∀ c ∈ name.toList.drop 1, IsAsciiDigit c

instance (name : String) : Decidable (IsInitTag name) :=
  inferInstanceAs (Decidable (_ ∧ _ ∧ _))

instance (name : String) : Decidable (IsStepTag name) :=
  inferInstanceAs (Decidable (_ ∧ _ ∧ _))

theorem IsInitTag.split {name : String} (h : IsInitTag name) : ∃ date time : List Char,
    name.toList = date ++ '_' :: time ∧ date.length = 8 ∧ time.length = 6 ∧
      ∀ c ∈ date ++ time, IsAsciiDigit c := by
  obtain ⟨hlength, hunderscore, hdigits⟩ := h
  obtain ⟨hlt, heq⟩ := List.getElem?_eq_some_iff.mp hunderscore
  refine ⟨name.toList.take 8, name.toList.drop 9, ?_, by simp [hlength], by simp [hlength], hdigits⟩
  rw [← heq, ← List.drop_eq_getElem_cons hlt, List.take_append_drop]

theorem not_isAsciiDigit_underscore : ¬ IsAsciiDigit '_' := by decide

/-- The digits of a tag. -/
theorem filter_tag {date time : List Char} (h : ∀ c ∈ date ++ time, IsAsciiDigit c) :
    (date ++ '_' :: time).filter (· ≠ '_') = date ++ time := by
  have hne : ∀ c ∈ date ++ time, decide (c ≠ '_') = true := by
    intro c hc
    apply decide_eq_true
    rintro rfl
    exact not_isAsciiDigit_underscore (h _ hc)
  rw [List.filter_append, List.filter_cons_of_neg (by simp), ← List.filter_append]
  exact List.filter_eq_self.mpr hne

theorem extractWrfInitScore_tag {reader : NumberReader} {name : String} {date time : List Char}
    (hname : name.toList = date ++ '_' :: time) (hdate : date.length = 8) (htime : time.length = 6)
    (h : ∀ c ∈ date ++ time, IsAsciiDigit c) :
    extractWrfInitScore reader name = some ((digitsValue (date ++ time) : Nat) : Int) := by
  have hlength : (date ++ time).length = 14 := by simp [hdate, htime]
  have hne : date ++ time ≠ [] := by
    intro hnil
    simp [hnil] at hlength
  rw [extractWrfInitScore, hname, filter_tag h]
  exact reader.float_digits _ hne (by omega) h

theorem initTag_scores {reader : NumberReader} {name name' : String} {score score' : Int}
    (h : IsInitTag name) (h' : IsInitTag name') (hlt : name' < name)
    (hscore : extractWrfInitScore reader name = some score)
    (hscore' : extractWrfInitScore reader name' = some score') : score' ≤ score := by
  obtain ⟨date, time, hname, hdate, htime, hdigits⟩ := h.split
  obtain ⟨date', time', hname', hdate', htime', hdigits'⟩ := h'.split
  rw [extractWrfInitScore_tag hname hdate htime hdigits, Option.some.injEq] at hscore
  rw [extractWrfInitScore_tag hname' hdate' htime' hdigits', Option.some.injEq] at hscore'
  have hchars := String.lt_iff_toList_lt.mp hlt
  rw [hname, hname', parted_lt_iff (hdate'.trans hdate.symm)] at hchars
  have hlength : (date' ++ time').length = (date ++ time).length := by
    simp [hdate, hdate', htime, htime']
  have hvalue := (digitsValue_lt_iff hlength hdigits' hdigits).mpr hchars
  omega

end DataService.Sync
