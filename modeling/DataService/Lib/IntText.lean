import DataService.Lib.FloatText

/-! Integers in text, as a language reads them: spaces around the number, a sign, digits with
underscores between them, and no more digits than a limit. Every numeral of that length that has
no leading zero is read back. -/

namespace IntText

open DecimalText FloatText NumberText

/-- The digits that are taken. -/
def maxStrDigits : Nat := 4300

variable (R : FloatReader)

/-- `int` of a string; none where it raises. -/
def int (text : List Char) : Option Int :=
  (dropUnderscores R false (trim R text)).bind fun cs =>
    (digits R (splitSign cs).2).bind fun ds =>
      if ds = [] ∨ maxStrDigits < ds.length then none
      else some (if (splitSign cs).1 then -(valueOf ds : Int) else valueOf ds)

/-- A number without sign and leading zeros. -/
def IsCanonical (text : List Char) : Prop := ∃ n : Nat, text = Nat.toDigits 10 n

section Rules

variable {R} {cs : List Char}

theorem trim_digits (h : ∀ c ∈ cs, IsAsciiDigit c) : trim R cs = cs :=
  trim_self (fun c hc => isSpace_digit (h c (List.mem_of_mem_head? hc)))
    fun c hc => isSpace_digit (h c (List.mem_of_mem_getLast? hc))

theorem splitSign_digits (h : ∀ c ∈ cs, IsAsciiDigit c) : splitSign cs = (false, cs) := by
  unfold splitSign
  split
  · exact absurd (h '-' List.mem_cons_self) (by decide)
  · exact absurd (h '+' List.mem_cons_self) (by decide)
  · rfl

theorem int_ascii (h : ∀ c ∈ cs, IsAsciiDigit c) :
    int R cs = if cs = [] ∨ maxStrDigits < cs.length then none else some (digitsValue cs : Int) := by
  have hunderscore : '_' ∉ cs := fun hmem => absurd (h '_' hmem) (by decide)
  simp only [int, trim_digits h, dropUnderscores_self hunderscore, Option.bind_some,
    splitSign_digits h, digits_ascii h, List.map_eq_nil_iff, List.length_map, valueOf_map]
  rfl

theorem isAsciiDigit_of_mem_toDigits {n : Nat} {c : Char} (h : c ∈ Nat.toDigits 10 n) :
    IsAsciiDigit c := by
  have hdigit := Char.isDigit_iff_toNat.mp (Nat.isDigit_of_mem_toDigits (by omega) (by omega) h)
  have hzero : '0'.toNat = 48 := rfl
  have hnine : '9'.toNat = 57 := rfl
  exact ⟨by omega, by omega⟩

theorem digitsValue_toDigits (n : Nat) : digitsValue (Nat.toDigits 10 n) = n :=
  Nat.ofDigitChars_toDigits (by omega) (by omega)

theorem int_toDigits (n : Nat) : int R (Nat.toDigits 10 n) =
    if (Nat.toDigits 10 n).length ≤ maxStrDigits then some (n : Int) else none := by
  have hne : Nat.toDigits 10 n ≠ [] := Nat.toDigits_ne_nil
  rw [int_ascii fun c => isAsciiDigit_of_mem_toDigits, digitsValue_toDigits]
  by_cases hlong : (Nat.toDigits 10 n).length ≤ maxStrDigits
  · rw [if_pos hlong, if_neg (not_or.mpr ⟨hne, by omega⟩)]
  · rw [if_neg hlong, if_pos (.inr (by omega))]

end Rules

/-- A reader whose `int` is that of the language. -/
def withInt (reader : NumberReader) : NumberReader where
  isDigit := reader.isDigit
  float := reader.float
  int := int R
  floatOfInt := reader.floatOfInt
  isDigit_ascii := reader.isDigit_ascii
  float_digits := reader.float_digits
  int_digits cs hne hlength hcs := by
    have hshort : ¬ (cs = [] ∨ maxStrDigits < cs.length) := by
      unfold maxStrDigits
      exact not_or.mpr ⟨hne, by omega⟩
    rw [int_ascii hcs, if_neg hshort]
    rfl
  floatOfInt_short := reader.floatOfInt_short

end IntText
