import Mathlib.Data.Rat.Defs
import Mathlib.Algebra.Order.Field.Rat
import Mathlib.Data.List.TakeWhile
import Mathlib.Tactic.Ring
import DataService.Lib.DecimalText
import DataService.Lib.NumberText

/-! Floating-point numbers in text, as a language reads them: spaces around the number, a sign,
digits with underscores between them, a fraction, an exponent, or the words for the values that
are no numbers. The number is exact; it is rounded afterwards. -/

namespace FloatText

open DecimalText NumberText

/-- A float before rounding. -/
inductive Reading where
  | number (q : ℚ)
  | infinity
  | nan
  deriving DecidableEq, Repr

/-- Half a unit in the last place above the largest double. -/
@[irreducible] def overflowBound : Nat := 2 ^ 1024 - 2 ^ 970

/-- What rounds to a double that is a number. -/
def Reading.Finite : Reading → Prop
  | .number q => |q| < overflowBound
  | .infinity | .nan => False

structure FloatReader extends DigitTable where
  isSpace : Char → Bool
  isSpace_ascii : ∀ c : Char, c.toNat < 128 →
    isSpace c = decide (9 ≤ c.toNat ∧ c.toNat ≤ 13 ∨ 28 ≤ c.toNat ∧ c.toNat ≤ 32)

def FloatReader.asciiOnly : FloatReader where
  toDigitTable := .asciiOnly
  isSpace c := decide (9 ≤ c.toNat ∧ c.toNat ≤ 13 ∨ 28 ≤ c.toNat ∧ c.toNat ≤ 32)
  isSpace_ascii _ _ := rfl

variable (R : FloatReader)

def strip (cs : List Char) : List Char :=
  ((cs.dropWhile R.isSpace).reverse.dropWhile R.isSpace).reverse

/-- The spaces that may stand around a number: the separators of ASCII are none. -/
def isNumberSpace (c : Char) : Bool := R.isSpace c && !(28 ≤ c.toNat && c.toNat < 32)

def trim (cs : List Char) : List Char :=
  ((cs.dropWhile (isNumberSpace R)).reverse.dropWhile (isNumberSpace R)).reverse

/-- Underscores may stand between two digits. -/
def dropUnderscores (afterDigit : Bool) : List Char → Option (List Char)
  | [] => some []
  | c :: cs =>
    if c = '_' then
      if afterDigit && cs.head?.any (fun d => (R.value d).isSome) then dropUnderscores false cs
      else none
    else (dropUnderscores (R.value c).isSome cs).map (c :: ·)

/-- The digits of a part that may be empty. -/
def digits (cs : List Char) : Option (List Nat) := cs.mapM R.value

def valueOf (ds : List Nat) : Nat := ds.foldl (fun n d => 10 * n + d) 0

def splitSign : List Char → Bool × List Char
  | '-' :: cs => (true, cs)
  | '+' :: cs => (false, cs)
  | cs => (false, cs)

def readExponent : List Char → Option Int
  | [] => some 0
  | _ :: cs =>
    (digits R (splitSign cs).2).bind fun ds =>
      if ds = [] then none
      else some (if (splitSign cs).1 then -(valueOf ds : Int) else valueOf ds)

def isExponentMark (c : Char) : Bool := c = 'e' || c = 'E'

def readDecimal (cs : List Char) : Option ℚ :=
  let mantissa := cs.takeWhile (!isExponentMark ·)
  let whole := mantissa.takeWhile (· ≠ '.')
  (digits R whole).bind fun w =>
    (digits R (mantissa.drop (whole.length + 1))).bind fun f =>
      if w = [] ∧ f = [] then none
      else
        (readExponent R (cs.drop mantissa.length)).map fun e =>
          (valueOf (w ++ f) : ℚ) * 10 ^ (e - (f.length : Int))

/-- The words for infinity and for no number, in any case. -/
def readWord (cs : List Char) : Option Reading :=
  let lower := cs.map Char.toLower
  if lower = "inf".toList ∨ lower = "infinity".toList then some .infinity
  else if lower = "nan".toList then some .nan
  else none

/-- `float` of a string; none where it raises. -/
def float (text : List Char) : Option Reading :=
  (dropUnderscores R false (trim R text)).bind fun cs =>
    match readWord (splitSign cs).2 with
    | some x => some x
    | none => (readDecimal R (splitSign cs).2).map fun q =>
      .number (if (splitSign cs).1 then -q else q)

section Rules

variable {R} {cs ds before after : List Char} {c : Char}

theorem value_ascii (h : IsAsciiDigit c) : R.value c = some (c.toNat - 48) := by
  have hlt := h.2
  rw [R.ascii c (by omega)]
  exact if_pos h

theorem value_dot : R.value '.' = none := by
  rw [R.ascii '.' (by decide)]
  decide

theorem isSpace_digit (h : IsAsciiDigit c) : R.isSpace c = false := by
  rw [R.isSpace_ascii c (by have := h.2; omega)]
  apply decide_eq_false
  have := h.1
  omega

theorem isSpace_minus : R.isSpace '-' = false := by
  rw [R.isSpace_ascii '-' (by decide)]
  decide

theorem dropWhile_spaces (h : ∀ c ∈ before, R.isSpace c = true) :
    (before ++ cs).dropWhile R.isSpace = cs.dropWhile R.isSpace := by
  induction before with
  | nil => rfl
  | cons c before ih =>
    rw [List.cons_append, List.dropWhile_cons_of_pos (h c List.mem_cons_self)]
    exact ih fun d hd => h d (List.mem_cons_of_mem c hd)

theorem dropWhile_self {p : Char → Bool} (h : ∀ c ∈ cs.head?, p c = false) :
    cs.dropWhile p = cs := by
  cases cs with
  | nil => rfl
  | cons c cs => rw [List.dropWhile_cons_of_neg (by simp [h c rfl])]

/-- A text that starts and ends with no space is what `strip` leaves. -/
theorem strip_spaces (hbefore : ∀ c ∈ before, R.isSpace c = true)
    (hafter : ∀ c ∈ after, R.isSpace c = true) (hhead : ∀ c ∈ cs.head?, R.isSpace c = false)
    (hlast : ∀ c ∈ cs.getLast?, R.isSpace c = false) : strip R (before ++ cs ++ after) = cs := by
  have hhead' : ∀ c ∈ cs.reverse.head?, R.isSpace c = false := by
    rwa [List.head?_reverse]
  cases hcs : cs with
  | nil =>
    have hall : (before ++ after).dropWhile R.isSpace = [] := by
      rw [dropWhile_spaces hbefore]
      exact List.dropWhile_eq_nil_iff.mpr hafter
    simp [strip, hall]
  | cons c l =>
    rw [← hcs]
    have hfront : (cs ++ after).dropWhile R.isSpace = cs ++ after := by
      apply dropWhile_self
      rw [hcs] at hhead ⊢
      exact hhead
    have hback : ∀ c ∈ after.reverse, R.isSpace c = true := fun c hc =>
      hafter c (List.mem_reverse.mp hc)
    rw [strip, List.append_assoc, dropWhile_spaces hbefore, hfront, List.reverse_append,
      dropWhile_spaces hback, dropWhile_self hhead', List.reverse_reverse]

theorem strip_self (hhead : ∀ c ∈ cs.head?, R.isSpace c = false)
    (hlast : ∀ c ∈ cs.getLast?, R.isSpace c = false) : strip R cs = cs := by
  have h := strip_spaces (R := R) (List.forall_mem_nil _) (List.forall_mem_nil _) hhead hlast
  simpa using h

theorem isNumberSpace_of_isSpace (h : R.isSpace c = false) : isNumberSpace R c = false := by
  rw [isNumberSpace, h, Bool.false_and]

theorem trim_self (hhead : ∀ c ∈ cs.head?, R.isSpace c = false)
    (hlast : ∀ c ∈ cs.getLast?, R.isSpace c = false) : trim R cs = cs := by
  have hfront : ∀ c ∈ cs.head?, isNumberSpace R c = false := fun c hc =>
    isNumberSpace_of_isSpace (hhead c hc)
  have hback : ∀ c ∈ cs.reverse.head?, isNumberSpace R c = false := by
    rw [List.head?_reverse]
    exact fun c hc => isNumberSpace_of_isSpace (hlast c hc)
  rw [trim, dropWhile_self hfront, dropWhile_self hback, List.reverse_reverse]

theorem dropUnderscores_self (h : '_' ∉ cs) (afterDigit : Bool) :
    dropUnderscores R afterDigit cs = some cs := by
  induction cs generalizing afterDigit with
  | nil => rfl
  | cons c cs ih =>
    have hc : c ≠ '_' := fun he => h (by simp [he])
    have hcs : '_' ∉ cs := fun hmem => h (List.mem_cons_of_mem c hmem)
    rw [dropUnderscores, if_neg hc, ih hcs]
    rfl

theorem digits_ascii (h : ∀ c ∈ cs, IsAsciiDigit c) :
    digits R cs = some (cs.map fun c => c.toNat - 48) := by
  induction cs with
  | nil => rfl
  | cons c cs ih =>
    have htail := ih fun d hd => h d (List.mem_cons_of_mem c hd)
    rw [digits] at htail
    rw [digits, List.mapM_cons, value_ascii (h c List.mem_cons_self), htail]
    rfl

theorem digits_of_mem_dot (h : '.' ∈ cs) : digits R cs = none := by
  induction cs with
  | nil => cases h
  | cons c cs ih =>
    rw [digits, List.mapM_cons]
    rcases List.mem_cons.mp h with rfl | h
    · rw [value_dot]
      rfl
    · rw [digits] at ih
      cases hc : R.value c with
      | none => rfl
      | some d =>
        rw [ih h]
        rfl

theorem valueOf_map (cs : List Char) : valueOf (cs.map fun c => c.toNat - 48) = digitsValue cs := by
  rw [valueOf, digitsValue, List.foldl_map]

theorem digit_ne {d : Char} (h : IsAsciiDigit c) (hd : ¬ IsAsciiDigit d) : c ≠ d := by
  rintro rfl
  exact hd h

theorem readDecimal_whole (hne : cs ≠ []) (h : ∀ c ∈ cs, IsAsciiDigit c) :
    readDecimal R cs = some (digitsValue cs) := by
  have hmantissa : cs.takeWhile (!isExponentMark ·) = cs := by
    refine List.takeWhile_eq_self_iff.mpr fun c hc => ?_
    have he := digit_ne (d := 'e') (h c hc) (by decide)
    have hE := digit_ne (d := 'E') (h c hc) (by decide)
    simp [isExponentMark, he, hE]
  have hwhole : cs.takeWhile (· ≠ '.') = cs := by
    refine List.takeWhile_eq_self_iff.mpr fun c hc => ?_
    simp [digit_ne (d := '.') (h c hc) (by decide)]
  have hmap : cs.map (fun c => c.toNat - 48) ≠ [] := by simpa using hne
  simp only [readDecimal, hmantissa, hwhole, List.drop_length, digits_ascii h]
  have hrest : cs.drop (cs.length + 1) = [] := List.drop_eq_nil_of_le (by omega)
  rw [hrest]
  simp [digits, readExponent, hne, valueOf_map]

/-- A decimal with a point and no exponent; what stands behind the point may hold another. -/
theorem readDecimal_point (hne : cs ≠ []) (h : ∀ c ∈ cs, IsAsciiDigit c)
    (hds : ∀ c ∈ ds, IsAsciiDigit c ∨ c = '.') :
    readDecimal R (cs ++ '.' :: ds) =
      if '.' ∈ ds then none else some ((digitsValue (cs ++ ds) : ℚ) / 10 ^ ds.length) := by
  have hmark : ∀ c, IsAsciiDigit c ∨ c = '.' → isExponentMark c = false := by
    rintro c (hc | rfl)
    · have he := digit_ne (d := 'e') hc (by decide)
      have hE := digit_ne (d := 'E') hc (by decide)
      simp [isExponentMark, he, hE]
    · decide
  have hmantissa : (cs ++ '.' :: ds).takeWhile (!isExponentMark ·) = cs ++ '.' :: ds := by
    refine List.takeWhile_eq_self_iff.mpr fun c hc => ?_
    have hkind : IsAsciiDigit c ∨ c = '.' := by
      rcases List.mem_append.mp hc with hc | hc
      · exact .inl (h c hc)
      · rcases List.mem_cons.mp hc with hc | hc
        · exact .inr hc
        · exact hds c hc
    simp [hmark c hkind]
  have hwhole : (cs ++ '.' :: ds).takeWhile (· ≠ '.') = cs := by
    have hall : ∀ c ∈ cs, decide (c ≠ '.') = true := fun c hc =>
      decide_eq_true (digit_ne (h c hc) (by decide))
    rw [List.takeWhile_append_of_pos hall]
    simp
  have hdrop : (cs ++ '.' :: ds).drop (cs.length + 1) = ds := by
    rw [← List.drop_drop, List.drop_left]
    rfl
  have hend : (cs ++ '.' :: ds).drop (cs ++ '.' :: ds).length = [] := List.drop_length
  simp only [readDecimal, hmantissa, hwhole, hdrop, hend, digits_ascii h, Option.bind_some]
  split
  · rename_i hdot
    rw [digits_of_mem_dot hdot]
    rfl
  · rename_i hdot
    have hdigits : ∀ c ∈ ds, IsAsciiDigit c := fun c hc =>
      (hds c hc).resolve_right fun he => hdot (he ▸ hc)
    rw [digits_ascii hdigits, Option.bind_some, if_neg (by simp [hne]), ← List.map_append,
      valueOf_map]
    simp [readExponent, div_eq_mul_inv]

/-- The reading of a text that starts with a digit, behind an optional minus sign. -/
theorem float_signed (negative : Bool) (hplain : '_' ∉ cs)
    (hhead : ∃ c, cs.head? = some c ∧ IsAsciiDigit c)
    (hlast : ∃ c, cs.getLast? = some c ∧ IsAsciiDigit c) :
    float R ((if negative then ['-'] else []) ++ cs) =
      (readDecimal R cs).map fun q => .number (if negative then -q else q) := by
  obtain ⟨first, hfirst, hdigit⟩ := hhead
  obtain ⟨last, hend, hdigit'⟩ := hlast
  obtain ⟨rest, rfl⟩ : ∃ rest, cs = first :: rest := by
    cases cs with
    | nil => cases hfirst
    | cons c l =>
      obtain rfl : c = first := by simpa using hfirst
      exact ⟨l, rfl⟩
  have hword : readWord (first :: rest) = none := by
    have hlower : first.toLower = first := by
      unfold Char.toLower
      split
      · rename_i hupper
        have hA : (65 : Nat) ≤ first.toNat := hupper.1
        have hlt := hdigit.2
        omega
      · rfl
    have hi := digit_ne (d := 'i') hdigit (by decide)
    have hn := digit_ne (d := 'n') hdigit (by decide)
    simp [readWord, hlower, hi, hn]
  have hsign : splitSign (first :: rest) = (false, first :: rest) := by
    have hminus := digit_ne (d := '-') hdigit (by decide)
    have hplus := digit_ne (d := '+') hdigit (by decide)
    unfold splitSign
    split
    · rename_i heq
      exact absurd (List.cons.inj heq).1 hminus
    · rename_i heq
      exact absurd (List.cons.inj heq).1 hplus
    · rfl
  cases negative with
  | false =>
    have htrim : trim R (first :: rest) = first :: rest := by
      refine trim_self (by simpa using isSpace_digit hdigit) ?_
      rw [hend]
      simpa using isSpace_digit hdigit'
    simp [float, htrim, dropUnderscores_self hplain, hsign, hword]
  | true =>
    have hplain' : '_' ∉ '-' :: first :: rest := by
      simpa using hplain
    have htrim : trim R ('-' :: first :: rest) = '-' :: first :: rest := by
      refine trim_self (by simpa using isSpace_minus) ?_
      rw [List.getLast?_cons_cons, hend]
      simpa using isSpace_digit hdigit'
    have hminus : splitSign ('-' :: first :: rest) = (true, first :: rest) := rfl
    simp [float, htrim, dropUnderscores_self hplain', hminus, hword]

end Rules

end FloatText
