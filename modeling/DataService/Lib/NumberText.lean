import Mathlib.Data.List.Lex
import Mathlib.Data.Char
import Mathlib.Tactic.Ring

/-! Numbers that a language reads from text. Beyond ASCII a language has digits of its own,
and a long number may be rounded or refused; on short ASCII digits all readers agree. -/

namespace NumberText

def IsAsciiDigit (c : Char) : Prop := 48 ≤ c.toNat ∧ c.toNat < 58

instance (c : Char) : Decidable (IsAsciiDigit c) := inferInstanceAs (Decidable (_ ∧ _))

-- Character by character, not over all characters there are.
instance (cs : List Char) : Decidable (∀ c ∈ cs, IsAsciiDigit c) := List.decidableBAll _ cs

/-- The number that ASCII digits spell. -/
def digitsValue (cs : List Char) : Nat := cs.foldl (fun n c => 10 * n + (c.toNat - 48)) 0

/-- How a language tells digits and reads numbers; none where it raises, or where what it reads is
no number (nan) and raises when it is used as one. -/
structure NumberReader where
  isDigit : Char → Bool
  float : List Char → Option Int
  int : List Char → Option Int
  floatOfInt : Int → Option Int
  isDigit_ascii : ∀ c : Char, c.toNat < 128 → isDigit c = decide (IsAsciiDigit c)
  float_digits : ∀ cs, cs ≠ [] → cs.length ≤ 15 → (∀ c ∈ cs, IsAsciiDigit c) →
    float cs = some (digitsValue cs)
  int_digits : ∀ cs, cs ≠ [] → cs.length ≤ 15 → (∀ c ∈ cs, IsAsciiDigit c) →
    int cs = some (digitsValue cs)
  floatOfInt_short : ∀ n : Nat, n < 10 ^ 15 → floatOfInt n = some n

/-- A reader that knows ASCII digits and no limits. -/
def NumberReader.asciiOnly : NumberReader where
  isDigit c := decide (IsAsciiDigit c)
  float cs := if cs ≠ [] ∧ ∀ c ∈ cs, IsAsciiDigit c then some (digitsValue cs) else none
  int cs := if cs ≠ [] ∧ ∀ c ∈ cs, IsAsciiDigit c then some (digitsValue cs) else none
  floatOfInt n := some n
  isDigit_ascii _ _ := rfl
  float_digits _ hne _ hcs := if_pos ⟨hne, hcs⟩
  int_digits _ hne _ hcs := if_pos ⟨hne, hcs⟩
  floatOfInt_short _ _ := rfl

theorem foldl_digits (cs : List Char) (n : Nat) :
    cs.foldl (fun n c => 10 * n + (c.toNat - 48)) n = n * 10 ^ cs.length + digitsValue cs := by
  induction cs generalizing n with
  | nil => simp [digitsValue]
  | cons c cs ih =>
    have htail : digitsValue (c :: cs) = (c.toNat - 48) * 10 ^ cs.length + digitsValue cs := by
      refine (ih _).trans ?_
      simp only [Nat.mul_zero, Nat.zero_add]
    rw [List.foldl_cons, ih, htail, List.length_cons, Nat.pow_succ]
    ring

theorem digitsValue_cons (c : Char) (cs : List Char) :
    digitsValue (c :: cs) = (c.toNat - 48) * 10 ^ cs.length + digitsValue cs := by
  refine (foldl_digits cs _).trans ?_
  simp only [Nat.mul_zero, Nat.zero_add]

theorem digitsValue_lt {cs : List Char} (h : ∀ c ∈ cs, IsAsciiDigit c) :
    digitsValue cs < 10 ^ cs.length := by
  induction cs with
  | nil => simp [digitsValue]
  | cons c cs ih =>
    have hc := h c List.mem_cons_self
    have htail := ih fun d hd => h d (List.mem_cons_of_mem c hd)
    have hdigit : c.toNat - 48 ≤ 9 := by
      have := hc.2
      omega
    have hmul : (c.toNat - 48) * 10 ^ cs.length ≤ 9 * 10 ^ cs.length := Nat.mul_le_mul_right _ hdigit
    rw [digitsValue_cons, List.length_cons, Nat.pow_succ]
    omega

/-- Digits of one length are in the order of the numbers that they spell. -/
theorem digitsValue_lt_iff {cs ds : List Char} (hlength : cs.length = ds.length)
    (hcs : ∀ c ∈ cs, IsAsciiDigit c) (hds : ∀ d ∈ ds, IsAsciiDigit d) :
    digitsValue cs < digitsValue ds ↔ cs < ds := by
  induction cs generalizing ds with
  | nil =>
    obtain rfl : ds = [] := List.length_eq_zero_iff.mp hlength.symm
    simp
  | cons c cs ih =>
    cases ds with
    | nil => cases hlength
    | cons d ds =>
      have hlength' : cs.length = ds.length := by simpa using hlength
      have hc := hcs c List.mem_cons_self
      have hd := hds d List.mem_cons_self
      have hcs' : ∀ x ∈ cs, IsAsciiDigit x := fun x hx => hcs x (List.mem_cons_of_mem c hx)
      have hds' : ∀ x ∈ ds, IsAsciiDigit x := fun x hx => hds x (List.mem_cons_of_mem d hx)
      have hlc := digitsValue_lt hcs'
      have hld := digitsValue_lt hds'
      rw [hlength'] at hlc
      rw [digitsValue_cons, digitsValue_cons, hlength', List.cons_lt_cons_iff,
        ← ih hlength' hcs' hds']
      rcases Nat.lt_trichotomy c.toNat d.toNat with hlt | heq | hgt
      · have hmul : (c.toNat - 48 + 1) * 10 ^ ds.length ≤ (d.toNat - 48) * 10 ^ ds.length :=
          Nat.mul_le_mul_right _ (by have := hc.1; omega)
        rw [Nat.add_mul, Nat.one_mul] at hmul
        exact iff_of_true (by omega) (.inl hlt)
      · obtain rfl := Char.toNat_inj.mp heq
        simp
      · have hmul : (d.toNat - 48 + 1) * 10 ^ ds.length ≤ (c.toNat - 48) * 10 ^ ds.length :=
          Nat.mul_le_mul_right _ (by have := hd.1; omega)
        rw [Nat.add_mul, Nat.one_mul] at hmul
        refine iff_of_false (by omega) ?_
        rintro (hlt | ⟨rfl, -⟩)
        · exact Nat.lt_asymm hgt hlt
        · exact Nat.lt_irrefl _ hgt

/-- Texts with the same sign at the same place are in the order of what stands around it. -/
theorem parted_lt_iff {cs ds cs' ds' : List Char} {sign : Char} (h : cs.length = ds.length) :
    cs ++ sign :: cs' < ds ++ sign :: ds' ↔ cs ++ cs' < ds ++ ds' := by
  induction cs generalizing ds with
  | nil =>
    obtain rfl : ds = [] := List.length_eq_zero_iff.mp h.symm
    simp
  | cons c cs ih =>
    cases ds with
    | nil => cases h
    | cons d ds =>
      have hlength : cs.length = ds.length := by simpa using h
      simp only [List.cons_append, List.cons_lt_cons_iff, ih hlength]

end NumberText
