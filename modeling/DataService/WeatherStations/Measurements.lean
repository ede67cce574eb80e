import DataService.Lib.JsonValue

/-! How a measurement of the SMN feed is read: a number, or a text in which a comma stands
before the fraction and dots between groups of three digits. -/

namespace DataService

open FloatText JsonValue NumberText

/-- The exceptions that the weather-station code meets. -/
inductive PyError where
  | overflowError
  | valueError
  | attributeError
  | typeError
  deriving DecidableEq, Repr

/-- `str.replace` of one character. -/
def replaceChar (c : Char) (by' : List Char) (cs : List Char) : List Char :=
  cs.flatMap fun d => if d = c then by' else [d]

variable (R : FloatReader)

/-- The text that `to_float` hands to `float`. -/
def decimalPointText (text : List Char) : List Char :=
  if ',' ∈ text ∧ '.' ∈ text then replaceChar ',' ['.'] (replaceChar '.' [] text)
  else replaceChar ',' ['.'] text

/-- `to_float`. A number that is too large for a float raises. -/
def toFloat : Json → Except PyError (Option Reading)
  | .int n => if overflowBound ≤ n.natAbs then .error .overflowError else .ok (some (.number n))
  | .float x => .ok (some x)
  | .str s =>
    let text := strip R s.toList
    if text = [] then .ok none else .ok (float R (decimalPointText text))
  | .null | .bool _ | .arr _ | .obj _ => .ok none

/-- A dot before every group of three digits but the first. -/
def groupDigits : List Char → List Char
  | [] => []
  | c :: cs => if cs ≠ [] ∧ cs.length % 3 = 0 then c :: '.' :: groupDigits cs else c :: groupDigits cs

/-- An es-AR rendering of a decimal number: its digits, whether the integer digits are grouped,
a fraction or none, a sign, and the spaces around it. -/
structure EsArText where
  before : List Char
  negative : Bool
  whole : List Char
  grouped : Bool
  fraction : Option (List Char)
  after : List Char
  before_space : ∀ c ∈ before, R.isSpace c = true
  whole_ne : whole ≠ []
  whole_digits : ∀ c ∈ whole, IsAsciiDigit c
  fraction_ne : fraction ≠ some []
  fraction_digits : ∀ cs ∈ fraction, ∀ c ∈ cs, IsAsciiDigit c
  after_space : ∀ c ∈ after, R.isSpace c = true

namespace EsArText

variable {R} (t : EsArText R)

def integerText : List Char := if t.grouped then groupDigits t.whole else t.whole

def fractionText : List Char :=
  match t.fraction with
  | some cs => ',' :: cs
  | none => []

def signText : List Char := if t.negative then ['-'] else []

def text : List Char :=
  t.before ++ (t.signText ++ (t.integerText ++ t.fractionText)) ++ t.after

def fractionDigits : List Char := t.fraction.getD []

def signed (q : ℚ) : ℚ := if t.negative then -q else q

/-- The number that is rendered. -/
def value : ℚ :=
  t.signed ((digitsValue (t.whole ++ t.fractionDigits) : ℚ) / 10 ^ t.fractionDigits.length)

/-- Dots and no comma: several groups of digits and no fraction. -/
def OnlyDots : Prop := t.grouped = true ∧ 3 < t.whole.length ∧ t.fraction = none

instance : Decidable t.OnlyDots := inferInstanceAs (Decidable (_ ∧ _ ∧ _))

end EsArText

section Grouping

variable {cs : List Char} {c : Char}

theorem mem_groupDigits (h : c ∈ groupDigits cs) : c ∈ cs ∨ c = '.' := by
  induction cs with
  | nil => cases h
  | cons d cs ih =>
    rw [groupDigits] at h
    split at h
    · rcases List.mem_cons.mp h with rfl | h
      · exact .inl List.mem_cons_self
      · rcases List.mem_cons.mp h with rfl | h
        · exact .inr rfl
        · exact (ih h).imp_left (List.mem_cons_of_mem d)
    · rcases List.mem_cons.mp h with rfl | h
      · exact .inl List.mem_cons_self
      · exact (ih h).imp_left (List.mem_cons_of_mem d)

theorem groupDigits_short (h : cs.length ≤ 3) : groupDigits cs = cs := by
  induction cs with
  | nil => rfl
  | cons c cs ih =>
    rw [List.length_cons] at h
    have hnot : ¬ (cs ≠ [] ∧ cs.length % 3 = 0) := by
      rintro ⟨hne, hmod⟩
      have hpos := List.length_pos_of_ne_nil hne
      omega
    rw [groupDigits, if_neg hnot, ih (by omega)]

/-- Up to six digits there is one dot, before the last three. -/
theorem groupDigits_split (h : 3 < cs.length) : ∃ first rest, cs = first ++ rest ∧ first ≠ [] ∧
    groupDigits cs = first ++ '.' :: groupDigits rest ∧ rest.length % 3 = 0 ∧ 3 ≤ rest.length ∧
      first.length ≤ 3 := by
  induction cs with
  | nil => simp at h
  | cons c cs ih =>
    rw [List.length_cons] at h
    by_cases hmod : cs.length % 3 = 0
    · have hne : cs ≠ [] := by
        rintro rfl
        simp at h
      refine ⟨[c], cs, rfl, by simp, ?_, hmod, by omega, by simp⟩
      rw [groupDigits, if_pos ⟨hne, hmod⟩]
      rfl
    · obtain ⟨first, rest, rfl, hfirst, hgroup, hrest, hlong, hshort⟩ := ih (by omega)
      rw [List.length_append] at hmod
      refine ⟨c :: first, rest, rfl, by simp, ?_, hrest, hlong, ?_⟩
      · rw [groupDigits, if_neg (fun hh => hmod (by rw [← List.length_append]; exact hh.2)), hgroup]
        rfl
      · simp only [List.length_cons]
        omega

theorem mem_dot_groupDigits (hcs : ∀ c ∈ cs, IsAsciiDigit c) :
    '.' ∈ groupDigits cs ↔ 3 < cs.length := by
  constructor
  · intro h
    by_contra hshort
    rw [groupDigits_short (by omega)] at h
    exact absurd (hcs '.' h) (by decide)
  · intro h
    obtain ⟨first, rest, -, -, hgroup, -⟩ := groupDigits_split h
    rw [hgroup]
    simp

theorem head?_groupDigits : (groupDigits cs).head? = cs.head? := by
  cases cs with
  | nil => rfl
  | cons c cs =>
    rw [groupDigits]
    split <;> rfl

theorem getLast?_groupDigits : (groupDigits cs).getLast? = cs.getLast? := by
  induction cs with
  | nil => rfl
  | cons c cs ih =>
    have hnil : groupDigits cs = [] ↔ cs = [] := by
      rw [← List.head?_eq_none_iff, head?_groupDigits, List.head?_eq_none_iff]
    rw [groupDigits, List.getLast?_cons, ← ih]
    split
    · rename_i h
      rw [List.getLast?_cons, List.getLast?_cons]
      cases hlast : (groupDigits cs).getLast? with
      | none => exact absurd (hnil.mp (List.getLast?_eq_none_iff.mp hlast)) h.1
      | some d => rfl
    · rw [List.getLast?_cons]

theorem replaceChar_append (by' cs ds : List Char) :
    replaceChar c by' (cs ++ ds) = replaceChar c by' cs ++ replaceChar c by' ds :=
  List.flatMap_append

theorem replaceChar_cons (by' : List Char) (d : Char) :
    replaceChar c by' (d :: cs) = (if d = c then by' else [d]) ++ replaceChar c by' cs := rfl

theorem replaceChar_self {by' : List Char} (h : c ∉ cs) : replaceChar c by' cs = cs := by
  induction cs with
  | nil => rfl
  | cons d cs ih =>
    have hd : d ≠ c := fun he => h (by simp [he])
    rw [replaceChar_cons, if_neg hd, ih fun hm => h (List.mem_cons_of_mem d hm)]
    rfl

theorem replaceChar_groupDigits (hcs : ∀ c ∈ cs, IsAsciiDigit c) :
    replaceChar '.' [] (groupDigits cs) = cs := by
  induction cs with
  | nil => rfl
  | cons c cs ih =>
    have hc := digit_ne (d := '.') (hcs c List.mem_cons_self) (by decide)
    have htail := ih fun d hd => hcs d (List.mem_cons_of_mem c hd)
    rw [groupDigits]
    split <;> simp [replaceChar_cons, hc, htail]

end Grouping

namespace EsArText

variable {R} (t : EsArText R)

theorem mem_integerText {c : Char} (h : c ∈ t.integerText) : IsAsciiDigit c ∨ c = '.' := by
  unfold integerText at h
  split at h
  · exact (mem_groupDigits h).imp_left (t.whole_digits c)
  · exact .inl (t.whole_digits c h)

theorem head_integerText : ∃ c, t.integerText.head? = some c ∧ IsAsciiDigit c := by
  obtain ⟨c, cs, hwhole⟩ := List.exists_cons_of_ne_nil t.whole_ne
  refine ⟨c, ?_, t.whole_digits c (by rw [hwhole]; exact List.mem_cons_self)⟩
  unfold integerText
  split
  · rw [head?_groupDigits, hwhole]
    rfl
  · rw [hwhole]
    rfl

theorem last_integerText : ∃ c, t.integerText.getLast? = some c ∧ IsAsciiDigit c := by
  have hlast := List.getLast?_eq_some_getLast t.whole_ne
  refine ⟨t.whole.getLast t.whole_ne, ?_, t.whole_digits _ (List.getLast_mem t.whole_ne)⟩
  unfold integerText
  split
  · rw [getLast?_groupDigits, hlast]
  · exact hlast

theorem strip_text : strip R t.text = t.signText ++ (t.integerText ++ t.fractionText) := by
  obtain ⟨first, hfirst, hdigit⟩ := t.head_integerText
  obtain ⟨last, hlast, hdigit'⟩ := t.last_integerText
  apply strip_spaces t.before_space t.after_space
  · intro c hc
    unfold signText at hc
    split at hc
    · obtain rfl : '-' = c := by simpa using hc
      exact isSpace_minus
    · obtain rfl : first = c := by simpa [hfirst] using hc
      exact isSpace_digit hdigit
  · intro c hc
    cases hf : t.fraction with
    | none =>
      obtain rfl : last = c := by simpa [fractionText, hf, hlast] using hc
      exact isSpace_digit hdigit'
    | some cs =>
      have hne : cs ≠ [] := fun he => t.fraction_ne (he ▸ hf)
      have hend := List.getLast?_eq_some_getLast hne
      obtain rfl : cs.getLast hne = c := by
        simpa [fractionText, hf, List.getLast?_cons, hend] using hc
      exact isSpace_digit (t.fraction_digits cs hf _ (List.getLast_mem hne))

theorem notMem_signText {c : Char} (h : c ≠ '-') : c ∉ t.signText := by
  unfold signText
  split <;> simp [h]

/-- With a fraction the dots go and the comma becomes the point. -/
theorem decimalPointText_fraction {cs : List Char} (hf : t.fraction = some cs) :
    decimalPointText (t.signText ++ (t.integerText ++ t.fractionText)) =
      t.signText ++ (t.whole ++ '.' :: cs) := by
  have hsigndot : '.' ∉ t.signText := t.notMem_signText (by decide)
  have hsigncomma : ',' ∉ t.signText := t.notMem_signText (by decide)
  have hcsdot : '.' ∉ cs := fun h => absurd (t.fraction_digits cs hf _ h) (by decide)
  have hcscomma : ',' ∉ cs := fun h => absurd (t.fraction_digits cs hf _ h) (by decide)
  have hwholecomma : ',' ∉ t.whole := fun h => absurd (t.whole_digits _ h) (by decide)
  have hwholedot : '.' ∉ t.whole := fun h => absurd (t.whole_digits _ h) (by decide)
  have hcomma : ',' ∈ t.signText ++ (t.integerText ++ t.fractionText) := by
    simp [fractionText, hf]
  have hpoint : replaceChar ',' ['.'] (t.signText ++ (t.whole ++ ',' :: cs)) =
      t.signText ++ (t.whole ++ '.' :: cs) := by
    simp [replaceChar_append, replaceChar_cons, replaceChar_self hsigncomma,
      replaceChar_self hwholecomma, replaceChar_self hcscomma]
  have hinteger : replaceChar '.' [] t.integerText = t.whole := by
    unfold integerText
    split
    · exact replaceChar_groupDigits t.whole_digits
    · exact replaceChar_self hwholedot
  unfold decimalPointText
  split
  · have hfraction : replaceChar '.' [] t.fractionText = ',' :: cs := by
      simp [fractionText, hf, replaceChar_cons, replaceChar_self hcsdot]
    have hdots : replaceChar '.' [] (t.signText ++ (t.integerText ++ t.fractionText)) =
        t.signText ++ (t.whole ++ ',' :: cs) := by
      rw [replaceChar_append, replaceChar_append, replaceChar_self hsigndot, hinteger, hfraction]
    rw [hdots]
    exact hpoint
  · rename_i hnot
    have hnodot : '.' ∉ t.integerText := fun h => hnot ⟨hcomma, by simp [h]⟩
    rw [replaceChar_self hnodot] at hinteger
    rw [hinteger]
    simpa [fractionText, hf] using hpoint

theorem decimalPointText_whole (hf : t.fraction = none) :
    decimalPointText (t.signText ++ (t.integerText ++ t.fractionText)) =
      t.signText ++ t.integerText := by
  have hcomma : ',' ∉ t.signText ++ t.integerText := by
    intro h
    rcases List.mem_append.mp h with h | h
    · exact t.notMem_signText (by decide) h
    · rcases t.mem_integerText h with h | h
      · exact absurd h (by decide)
      · exact absurd h (by decide)
  have hfraction : t.fractionText = [] := by simp [fractionText, hf]
  rw [hfraction, List.append_nil, decimalPointText, if_neg fun h => hcomma h.1,
    replaceChar_self hcomma]

theorem float_integer {ds : List Char} (hkind : ∀ c ∈ ds, IsAsciiDigit c ∨ c = '.')
    (hhead : ∃ c, ds.head? = some c ∧ IsAsciiDigit c)
    (hlast : ∃ c, ds.getLast? = some c ∧ IsAsciiDigit c) :
    float R (t.signText ++ ds) = (readDecimal R ds).map fun q => .number (t.signed q) := by
  refine float_signed t.negative (fun h => ?_) hhead hlast
  rcases hkind '_' h with h | h
  · exact absurd h (by decide)
  · exact absurd h (by decide)

end EsArText

/-- A rendering is read as its number, but for a grouped number without a fraction: one dot
counts as the point before a fraction, and a text with more dots is no number. -/
theorem toFloat_esAr (t : EsArText R) : toFloat R (.str (String.ofList t.text)) =
    .ok (if t.OnlyDots then
      if t.whole.length ≤ 6 then some (.number (t.value / 1000)) else none
    else some (.number t.value)) := by
  have hne : t.signText ++ (t.integerText ++ t.fractionText) ≠ [] := by
    obtain ⟨c, hc, -⟩ := t.head_integerText
    intro h
    have hnil : t.integerText = [] := (List.append_eq_nil_iff.mp (List.append_eq_nil_iff.mp h).2).1
    rw [hnil] at hc
    cases hc
  have hread : toFloat R (.str (String.ofList t.text)) =
      .ok (float R (decimalPointText (t.signText ++ (t.integerText ++ t.fractionText)))) := by
    simp only [toFloat, String.toList_ofList, t.strip_text, if_neg hne]
  rw [hread]
  congr 1
  cases hf : t.fraction with
  | some cs =>
    have hcs : ∀ c ∈ cs, IsAsciiDigit c := t.fraction_digits cs hf
    have hnot : ¬ t.OnlyDots := by simp [EsArText.OnlyDots, hf]
    have hcsne : cs ≠ [] := fun he => t.fraction_ne (he ▸ hf)
    have hdot : '.' ∉ cs := fun h => absurd (hcs _ h) (by decide)
    have hpoint : readDecimal R (t.whole ++ '.' :: cs) =
        some ((digitsValue (t.whole ++ cs) : ℚ) / 10 ^ cs.length) := by
      rw [readDecimal_point t.whole_ne t.whole_digits fun c hc => .inl (hcs c hc), if_neg hdot]
    obtain ⟨first, rest, hwhole⟩ := List.exists_cons_of_ne_nil t.whole_ne
    have hhead : ∃ c, (t.whole ++ '.' :: cs).head? = some c ∧ IsAsciiDigit c :=
      ⟨first, by simp [hwhole], t.whole_digits first (by simp [hwhole])⟩
    have hlast : ∃ c, (t.whole ++ '.' :: cs).getLast? = some c ∧ IsAsciiDigit c := by
      refine ⟨cs.getLast hcsne, ?_, hcs _ (List.getLast_mem hcsne)⟩
      simp [List.getLast?_append, List.getLast?_cons, List.getLast?_eq_some_getLast hcsne]
    have hkind : ∀ c ∈ t.whole ++ '.' :: cs, IsAsciiDigit c ∨ c = '.' := by
      intro c hc
      rcases List.mem_append.mp hc with hc | hc
      · exact .inl (t.whole_digits c hc)
      · rcases List.mem_cons.mp hc with hc | hc
        · exact .inr hc
        · exact .inl (hcs c hc)
    rw [t.decimalPointText_fraction hf, t.float_integer hkind hhead hlast, hpoint, if_neg hnot]
    simp [EsArText.value, EsArText.fractionDigits, hf]
  | none =>
    have hvalue : t.value = t.signed (digitsValue t.whole) := by
      simp [EsArText.value, EsArText.fractionDigits, hf]
    rw [t.decimalPointText_whole hf, t.float_integer (fun c hc => t.mem_integerText hc)
      t.head_integerText t.last_integerText]
    by_cases honly : t.OnlyDots
    · obtain ⟨hgrouped, hlong, -⟩ := id honly
      obtain ⟨first, rest, hsplit, hfirst, hgroup, hmod, hrest, hshort⟩ := groupDigits_split hlong
      have hinteger : t.integerText = first ++ '.' :: groupDigits rest := by
        rw [EsArText.integerText, if_pos hgrouped, hgroup]
      have hfirstdigits : ∀ c ∈ first, IsAsciiDigit c := fun c hc =>
        t.whole_digits c (by rw [hsplit]; exact List.mem_append_left _ hc)
      have hrestdigits : ∀ c ∈ rest, IsAsciiDigit c := fun c hc =>
        t.whole_digits c (by rw [hsplit]; exact List.mem_append_right _ hc)
      have hlength : t.whole.length = first.length + rest.length := by
        rw [hsplit, List.length_append]
      rw [hinteger, readDecimal_point hfirst hfirstdigits fun c hc =>
        (mem_groupDigits hc).imp_left (hrestdigits c), if_pos honly]
      have hpos := List.length_pos_of_ne_nil hfirst
      by_cases hsix : t.whole.length ≤ 6
      · have hthree : rest.length = 3 := by omega
        have hdot : '.' ∉ groupDigits rest := by
          rw [mem_dot_groupDigits hrestdigits]
          omega
        rw [if_neg hdot, if_pos hsix, groupDigits_short (by omega), ← hsplit, hthree, hvalue]
        unfold EsArText.signed
        split
        · rw [neg_div]
          norm_num
        · norm_num
      · have hdot : '.' ∈ groupDigits rest := by
          rw [mem_dot_groupDigits hrestdigits]
          omega
        rw [if_pos hdot, if_neg hsix]
        rfl
    · have hinteger : t.integerText = t.whole := by
        unfold EsArText.integerText
        split
        · rename_i hgrouped
          apply groupDigits_short
          by_contra hlong
          exact honly ⟨hgrouped, by omega, hf⟩
        · rfl
      rw [hinteger, readDecimal_whole t.whole_ne t.whole_digits, if_neg honly, hvalue]
      rfl

/-- A thousand and thirteen, grouped. -/
def groupedThousand : EsArText .asciiOnly where
  before := []
  negative := false
  whole := "1013".toList
  grouped := true
  fraction := none
  after := []
  before_space := by simp
  whole_ne := by decide
  whole_digits := by simp [IsAsciiDigit]
  fraction_ne := by simp
  fraction_digits := by simp
  after_space := by simp

/-- The dot of a grouped integer is read as the point. -/
theorem grouped_integer_misread : ¬ ∀ (R : FloatReader) (t : EsArText R),
    toFloat R (.str (String.ofList t.text)) = .ok (some (.number t.value)) := by
  intro h
  have hall := h .asciiOnly groupedThousand
  have hread : toFloat .asciiOnly (.str (String.ofList groupedThousand.text)) =
      .ok (some (.number (1013 / 1000))) := by decide +kernel
  have hvalue : groupedThousand.value = 1013 := by decide +kernel
  rw [hread, hvalue] at hall
  have hbad : (1013 / 1000 : ℚ) = 1013 := by simpa using hall
  norm_num at hbad

end DataService
