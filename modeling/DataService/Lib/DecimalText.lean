import Mathlib.Data.Nat.Digits.Defs

/-! Numbers of fixed width in decimal text, written and read back. A reader takes every
character that its table calls a decimal digit, which on ASCII are the ten digits. -/

namespace DecimalText

structure DigitTable where
  value : Char → Option Nat
  ascii : ∀ c : Char, c.toNat < 128 →
    value c = if 48 ≤ c.toNat ∧ c.toNat < 58 then some (c.toNat - 48) else none

def DigitTable.asciiOnly : DigitTable where
  value c := if 48 ≤ c.toNat ∧ c.toNat < 58 then some (c.toNat - 48) else none
  ascii _ _ := rfl

variable (D : DigitTable)

/-- The last `w` digits of `n`, with leading zeros. -/
def pad : Nat → Nat → List Char
  | 0, _ => []
  | w + 1, n => Nat.digitChar (n / 10 ^ w % 10) :: pad w n

/-- Read `w` digits behind what is read already. -/
def readDigits : Nat → Nat → List Char → Option (Nat × List Char)
  | 0, acc, cs => some (acc, cs)
  | _ + 1, _, [] => none
  | w + 1, acc, c :: cs => (D.value c).bind fun d => readDigits w (10 * acc + d) cs

/-- Read one given character. -/
def readChar (c : Char) : List Char → Option (List Char)
  | [] => none
  | x :: cs => if x = c then some cs else none

@[simp] theorem length_pad (w n : Nat) : (pad w n).length = w := by
  induction w with
  | zero => rfl
  | succ w ih => simp [pad, ih]

theorem value_digitChar {d : Nat} (h : d < 10) : D.value (Nat.digitChar d) = some d := by
  have hc : (Nat.digitChar d).toNat = d + 48 := by
    rw [Nat.toNat_digitChar_of_lt_ten h]
    omega
  have hascii := D.ascii (Nat.digitChar d) (by omega)
  rw [hascii, if_pos (by omega), hc, Nat.add_sub_cancel]

theorem readDigits_pad (w acc n : Nat) (cs : List Char) :
    readDigits D w acc (pad w n ++ cs) = some (acc * 10 ^ w + n % 10 ^ w, cs) := by
  induction w generalizing acc with
  | zero => simp [pad, readDigits, Nat.mod_one]
  | succ w ih =>
    have hdigit : n / 10 ^ w % 10 < 10 := Nat.mod_lt _ (by omega)
    have hmod : n % 10 ^ (w + 1) = n % 10 ^ w + 10 ^ w * (n / 10 ^ w % 10) := Nat.mod_pow_succ
    have hsum : (10 * acc + n / 10 ^ w % 10) * 10 ^ w + n % 10 ^ w =
        acc * 10 ^ (w + 1) + n % 10 ^ (w + 1) := by
      rw [hmod]
      ring
    simp only [pad, List.cons_append, readDigits, value_digitChar D hdigit, Option.bind_some, ih,
      hsum]

theorem read_pad {w n : Nat} (h : n < 10 ^ w) (cs : List Char) :
    readDigits D w 0 (pad w n ++ cs) = some (n, cs) := by
  rw [readDigits_pad, Nat.mod_eq_of_lt h, Nat.zero_mul, Nat.zero_add]

theorem digitChar_of_value {c : Char} {d : Nat} (hc : c.toNat < 128) (h : D.value c = some d) :
    d < 10 ∧ c = Nat.digitChar d := by
  rw [D.ascii c hc] at h
  split_ifs at h with hrange
  obtain rfl : c.toNat - 48 = d := Option.some.inj h
  refine ⟨by omega, Char.toNat_inj.mp ?_⟩
  rw [Nat.toNat_digitChar_of_lt_ten (by omega)]
  omega

/-- Only the last `w` digits count. -/
theorem pad_add_mul (w n k : Nat) : pad w (n + k * 10 ^ w) = pad w n := by
  induction w generalizing k with
  | zero => rfl
  | succ w ih =>
    have hpos : 0 < 10 ^ w := by positivity
    have hsplit : n + k * 10 ^ (w + 1) = n + 10 * k * 10 ^ w := by ring
    have hdigit : (n + 10 * k * 10 ^ w) / 10 ^ w % 10 = n / 10 ^ w % 10 := by
      rw [Nat.add_mul_div_right _ _ hpos]
      omega
    rw [hsplit, pad, pad, hdigit, ih]

/-- What is read from ASCII text is what was written there. -/
theorem pad_of_readDigits {w acc n : Nat} {cs rest : List Char} (hcs : ∀ c ∈ cs, c.toNat < 128)
    (h : readDigits D w acc cs = some (n, rest)) :
    ∃ m < 10 ^ w, n = acc * 10 ^ w + m ∧ cs = pad w m ++ rest := by
  induction w generalizing acc cs with
  | zero =>
    simp only [readDigits, Option.some.injEq, Prod.mk.injEq] at h
    obtain ⟨rfl, rfl⟩ := h
    exact ⟨0, by simp, by simp, rfl⟩
  | succ w ih =>
    cases cs with
    | nil => cases h
    | cons c cs =>
      obtain ⟨d, hd, hrest⟩ := Option.bind_eq_some_iff.mp h
      obtain ⟨hd10, hc⟩ := digitChar_of_value D (hcs c (by simp)) hd
      obtain ⟨m, hm, hn, hcs'⟩ := ih (fun x hx => hcs x (by simp [hx])) hrest
      have hpos : 0 < 10 ^ w := by positivity
      have hpow : (10 : Nat) ^ (w + 1) = 10 * 10 ^ w := by ring
      have hhead : (m + d * 10 ^ w) / 10 ^ w % 10 = d := by
        rw [Nat.add_mul_div_right _ _ hpos, Nat.div_eq_of_lt hm, Nat.zero_add,
          Nat.mod_eq_of_lt hd10]
      refine ⟨m + d * 10 ^ w, ?_, ?_, ?_⟩
      · rw [hpow]
        nlinarith
      · rw [hn, hpow]
        ring
      · rw [pad, hhead, pad_add_mul, List.cons_append, hc, hcs']

@[simp] theorem readChar_cons (c : Char) (cs : List Char) : readChar c (c :: cs) = some cs :=
  if_pos rfl

theorem readChar_eq_some {c : Char} {cs rest : List Char} (h : readChar c cs = some rest) :
    cs = c :: rest := by
  cases cs with
  | nil => cases h
  | cons x cs =>
    by_cases hx : x = c
    · rw [readChar, if_pos hx] at h
      cases h
      rw [hx]
    · rw [readChar, if_neg hx] at h
      cases h

end DecimalText
