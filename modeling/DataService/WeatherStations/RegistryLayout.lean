import Mathlib.Data.List.Chain
import DataService.Lib.IntText
import DataService.WeatherStations.RegistryLines

/-! The layout of the registry: two header lines, and each station on a row of its own with
the rest of its name on continuation lines. The tail of a row is matched field by field. -/

namespace DataService.RegistryText

open DecimalText FloatText IntText NumberText

/-- Text on one line. -/
def Unbroken (cs : List Char) : Prop := '\n' ∉ cs ∧ '\r' ∉ cs

instance (cs : List Char) : Decidable (Unbroken cs) := inferInstanceAs (Decidable (_ ∧ _))

/-- A station as the registry knows it. -/
structure Entry (R : FloatReader) where
  name : List Char
  province : List Char
  latDeg : Int
  latMin : Nat
  lonDeg : Int
  lonMin : Nat
  altura : Int
  nro : Nat
  oaci : Option (List Char)
  name_ne : name ≠ []
  name_trimmed : strip R name = name
  province_ne : province ≠ []
  province_trimmed : strip R province = province
  province_single : province.IsChain fun c d => ¬ (R.isSpace c = true ∧ R.isSpace d = true)
  latMin_lt : latMin < 60
  lonMin_lt : lonMin < 60
  oaci_ne : oaci ≠ some []
  oaci_chars : ∀ code ∈ oaci, ∀ c ∈ code, isOaci c = true

/-- The sign is that of the degrees. -/
def degrees (deg : Int) (minutes : Nat) : ℚ := deg + (if deg < 0 then -1 else 1) * (minutes / 60)

def Entry.metadata {R : FloatReader} (e : Entry R) : StationMetadata :=
  ⟨e.nro, e.name, e.province, degrees e.latDeg e.latMin, degrees e.lonDeg e.lonMin, e.altura, e.oaci⟩

/-- An entry with the widths of what stands before its fields and at the ends of its lines. -/
structure Row (R : FloatReader) extends Entry R where
  gap : Group → Nat
  trail : Nat
  continued : Nat
  gap_two : ∀ group, group ≠ .province → 2 ≤ gap group

def blanks (n : Nat) : List Char := List.replicate n ' '

def sign (n : Int) : List Char := if n < 0 then ['-'] else []

def natText (n : Nat) : List Char := Nat.toDigits 10 n

/-- A name cut into pieces of the width of its column, at most so many. -/
def pieces : Nat → List Char → List (List Char)
  | 0, _ => []
  | n + 1, cs =>
    if cs = [] then [] else cs.take nameColumnWidth :: pieces n (cs.drop nameColumnWidth)

namespace Row

variable {R : FloatReader} (r : Row R)

def field (group : Group) (text : List Char) : List Char := blanks (r.gap group) ++ text

def oaciField : List Char :=
  match r.oaci with
  | none => []
  | some code => r.field .oaci code

/-- What stands behind the name column. -/
def tail : List Char :=
  r.field .province r.province ++ (r.field .latDeg (sign r.latDeg ++ natText r.latDeg.natAbs) ++
    (r.field .latMin (natText r.latMin) ++
    (r.field .lonDeg (sign r.lonDeg ++ natText r.lonDeg.natAbs) ++
    (r.field .lonMin (natText r.lonMin) ++
    (r.field .altura (sign r.altura ++ natText r.altura.natAbs) ++
    (r.field .nro (natText r.nro) ++ (r.oaciField ++ blanks r.trail)))))))

def line : List Char := padded (r.name.take nameColumnWidth) ++ r.tail

def namePieces : List (List Char) := pieces r.name.length r.name

def lines : List (List Char) := r.line :: r.namePieces.tail.map (· ++ blanks r.continued)

/-- The fields, as the pattern finds them. -/
def found : List (Group × List Char) :=
  (.province, r.province) :: (.latDeg, sign r.latDeg) :: (.latDeg, natText r.latDeg.natAbs) ::
    (.latMin, natText r.latMin) :: (.lonDeg, sign r.lonDeg) :: (.lonDeg, natText r.lonDeg.natAbs) ::
    (.lonMin, natText r.lonMin) :: (.altura, sign r.altura) ::
    (.altura, natText r.altura.natAbs) :: (.nro, natText r.nro) ::
    r.oaci.toList.map fun code => (.oaci, code)

end Row

structure Header where
  titles : List Char
  units : List Char
  titles_unbroken : Unbroken titles
  units_unbroken : Unbroken units

def render {R : FloatReader} (header : Header) (rows : List (Row R)) : List Char :=
  List.intercalate ['\n'] (header.titles :: header.units :: rows.flatMap Row.lines)

namespace Pattern

variable {γ : Type} {group : Option γ} {cls : Char → Bool} {least : Nat} {most : Option Nat}
  {next : Pattern γ} {taken rest cs : List Char} {found : List (γ × List Char)}

theorem takeWhile_taken (htaken : ∀ c ∈ taken, cls c = true)
    (hrest : ∀ c ∈ rest.head?, cls c = false) : (taken ++ rest).takeWhile cls = taken := by
  rw [List.takeWhile_append_of_pos htaken]
  cases rest with
  | nil => rw [List.takeWhile_nil, List.append_nil]
  | cons c rest => rw [List.takeWhile_cons_of_neg (by simp [hrest c rfl]), List.append_nil]

/-- A greedy repetition takes all that is in its class if the rest matches then. -/
theorem captures_greedy (htaken : ∀ c ∈ taken, cls c = true)
    (hrest : ∀ c ∈ rest.head?, cls c = false) (hleast : least ≤ taken.length)
    (hmost : ∀ m ∈ most, taken.length ≤ m) (hnext : next.captures rest = some found) :
    (rep group cls least most true next).captures (taken ++ rest) =
      some ((group.map fun g => (g, taken)).toList ++ found) := by
  have havailable : most.elim taken.length (min taken.length) = taken.length := by
    cases most with
    | none => rfl
    | some m => exact min_eq_left (hmost m rfl)
  have hlengths : lengths cls least most true (taken ++ rest) = taken.length ::
      ((List.range taken.length).filter (least ≤ ·)).reverse := by
    simp only [lengths, takeWhile_taken htaken hrest, havailable, if_true]
    rw [List.range_succ, List.filter_append, List.reverse_append]
    simp [hleast]
  rw [captures, hlengths, List.findSome?_cons, List.drop_left, hnext, List.take_left]
  rfl

theorem captures_lazy (hne : taken ≠ []) (htaken : ∀ c ∈ taken, cls c = true)
    (hshort : ∀ n, 1 ≤ n → n < taken.length → next.captures (taken.drop n ++ rest) = none)
    (hnext : next.captures rest = some found) :
    (rep group cls 1 none false next).captures (taken ++ rest) =
      some ((group.map fun g => (g, taken)).toList ++ found) := by
  obtain ⟨more, hmore⟩ : ∃ more, ((taken ++ rest).takeWhile cls).length = taken.length + more := by
    rw [List.takeWhile_append_of_pos htaken, List.length_append]
    exact ⟨_, rfl⟩
  have hpos : 1 ≤ taken.length := List.length_pos_iff.mpr hne
  have hone : decide (1 ≤ taken.length) = true := decide_eq_true hpos
  have hlengths : lengths cls 1 none false (taken ++ rest) =
      (List.range taken.length).filter (1 ≤ ·) ++ taken.length ::
        ((List.range more).map (taken.length + 1 + ·)).filter (1 ≤ ·) := by
    have hrange : List.range (taken.length + more + 1) = List.range taken.length ++ taken.length ::
        (List.range more).map (taken.length + 1 + ·) := by
      rw [show taken.length + more + 1 = taken.length + 1 + more by omega, List.range_add,
        List.range_succ, List.append_assoc]
      rfl
    simp only [lengths, Option.elim_none, hmore]
    rw [hrange, List.filter_append, List.filter_cons_of_pos (p := fun n => decide (1 ≤ n)) hone]
    rfl
  rw [captures, hlengths, List.findSome?_eq_some_iff]
  refine ⟨_, _, _, rfl, ?_, ?_⟩
  · rw [List.drop_left, hnext, List.take_left]
    rfl
  · intro n hn
    obtain ⟨hrange, hone⟩ := List.mem_filter.mp hn
    have hlt := List.mem_range.mp hrange
    rw [List.drop_append_of_le_length hlt.le, hshort n (by simpa using hone) hlt]
    rfl

theorem captures_few {greedy : Bool} (h : (cs.takeWhile cls).length < least) :
    (rep group cls least most greedy next).captures cs = none := by
  have hempty : lengths cls least most greedy cs = [] := by
    have hnone : (List.range (most.elim (cs.takeWhile cls).length
        (min (cs.takeWhile cls).length) + 1)).filter (least ≤ ·) = [] := by
      rw [List.filter_eq_nil_iff]
      intro n hn hle
      have hlt := List.mem_range.mp hn
      have hle' := of_decide_eq_true hle
      cases most with
      | none =>
        simp only [Option.elim_none] at hlt
        omega
      | some m =>
        simp only [Option.elim_some] at hlt
        omega
    simp only [lengths, hnone]
    split <;> rfl
  rw [captures, hempty]
  rfl

end Pattern

section Tail

variable {R : FloatReader} {group : Group} {next : Pattern Group} {rest cs : List Char}
    {k least : Nat}
  {found : List (Group × List Char)}

theorem strip_head (h : strip R cs = cs) : ∀ c ∈ cs.head?, R.isSpace c = false := by
  intro c hc
  rw [← h] at hc
  exact head_strip c hc

theorem strip_last (h : strip R cs = cs) : ∀ c ∈ cs.getLast?, R.isSpace c = false := by
  intro c hc
  rw [← h] at hc
  exact last_rstrip c hc

theorem isSpace_blank : R.isSpace ' ' = true := by
  rw [R.isSpace_ascii ' ' (by decide)]
  decide

theorem isDigit_blank : isDigit R ' ' = false := by
  rw [isDigit, R.ascii ' ' (by decide)]
  decide

theorem isDigit_natText {n : Nat} {c : Char} (h : c ∈ natText n) : isDigit R c = true := by
  rw [isDigit, value_ascii (isAsciiDigit_of_mem_toDigits h)]
  rfl

theorem eq_blank {c : Char} (h : c ∈ blanks k) : c = ' ' := List.eq_of_mem_replicate h

theorem isSpace_blanks {c : Char} (h : c ∈ blanks k) : R.isSpace c = true := by
  rw [eq_blank h]
  exact isSpace_blank

theorem head_blanks (hk : 0 < k) (cs : List Char) : (blanks k ++ cs).head? = some ' ' := by
  obtain ⟨m, rfl⟩ := Nat.exists_eq_add_of_lt hk
  rfl

theorem captures_spaces (hleast : least ≤ k) (hcs : ∀ c ∈ cs.head?, R.isSpace c = false)
    (hnext : next.captures cs = some found) :
    (spaces R least next).captures (blanks k ++ cs) = some found := by
  refine Pattern.captures_greedy (fun c => isSpace_blanks) hcs ?_ nofun hnext
  rwa [blanks, List.length_replicate]

theorem captures_natText (n : Nat) (hrest : ∀ c ∈ rest.head?, c = ' ')
    (hnext : next.captures rest = some found) :
    (numeral R group false next).captures (natText n ++ rest) =
      some ((group, natText n) :: found) := by
  refine Pattern.captures_greedy (fun c => isDigit_natText) (fun c hc => ?_) ?_ nofun hnext
  · rw [hrest c hc]
    exact isDigit_blank
  · exact Nat.length_toDigits_pos

theorem head_natText (n : Nat) (rest : List Char) :
    ∃ c ∈ natText n, (natText n ++ rest).head? = some c := by
  cases h : natText n with
  | nil => exact absurd h Nat.toDigits_ne_nil
  | cons c cs => exact ⟨c, List.mem_cons_self, rfl⟩

theorem captures_signed (n : Int) (hrest : ∀ c ∈ rest.head?, c = ' ')
    (hnext : next.captures rest = some found) :
    (numeral R group true next).captures (sign n ++ natText n.natAbs ++ rest) =
      some ((group, sign n) :: (group, natText n.natAbs) :: found) := by
  rw [List.append_assoc]
  refine Pattern.captures_greedy ?_ ?_ (Nat.zero_le _) ?_ (captures_natText _ hrest hnext)
  · intro c hc
    unfold sign at hc
    split at hc
    · simpa using hc
    · cases hc
  · intro c hc
    obtain ⟨d, hd, hhead⟩ := head_natText n.natAbs rest
    obtain rfl : d = c := Option.some.inj (hhead.symm.trans hc)
    have hminus := digit_ne (d := '-') (isAsciiDigit_of_mem_toDigits hd) (by decide)
    simpa using hminus
  · intro m hm
    obtain rfl : 1 = m := by simpa using hm
    unfold sign
    split <;> decide

theorem isSpace_oaci {c : Char} (h : isOaci c = true) : R.isSpace c = false := by
  have hrange : 48 ≤ c.toNat ∧ c.toNat ≤ 90 := by
    rcases Bool.or_eq_true_iff.mp h with h | h
    · have hupper : 'A'.val ≤ c.val ∧ c.val ≤ 'Z'.val := of_decide_eq_true h
      have hA : (65 : Nat) ≤ c.toNat := hupper.1
      have hZ : c.toNat ≤ 90 := hupper.2
      omega
    · have hdigit := Char.isDigit_iff_toNat.mp h
      have hzero : '0'.toNat = 48 := rfl
      have hnine : '9'.toNat = 57 := rfl
      omega
  rw [R.isSpace_ascii c (by omega)]
  apply decide_eq_false
  omega

theorem isSpace_natText (n : Nat) (rest : List Char) :
    ∀ c ∈ (natText n ++ rest).head?, R.isSpace c = false := by
  intro c hc
  obtain ⟨d, hd, hhead⟩ := head_natText n rest
  obtain rfl : d = c := Option.some.inj (hhead.symm.trans hc)
  exact isSpace_digit (isAsciiDigit_of_mem_toDigits hd)

theorem isSpace_signed (n : Int) (rest : List Char) :
    ∀ c ∈ (sign n ++ natText n.natAbs ++ rest).head?, R.isSpace c = false := by
  unfold sign
  split
  · intro c hc
    obtain rfl : '-' = c := by simpa using hc
    exact isSpace_minus
  · rw [List.nil_append]
    exact isSpace_natText _ rest

/-- Without two spaces in a row and a space at its end, a text has no gap. -/
theorem takeWhile_single (hne : cs ≠ [])
    (hsingle : cs.IsChain fun c d => ¬ (R.isSpace c = true ∧ R.isSpace d = true))
    (hlast : ∀ c ∈ cs.getLast?, R.isSpace c = false) (rest : List Char) :
    ((cs ++ rest).takeWhile R.isSpace).length < 2 := by
  cases cs with
  | nil => exact absurd rfl hne
  | cons c cs =>
    cases cs with
    | nil => simp [hlast c rfl]
    | cons d cs =>
      have hpair := (List.isChain_cons_cons.mp hsingle).1
      by_cases hc : R.isSpace c = true
      · have hd : R.isSpace d = false := by simpa [hc] using hpair
        simp [hc, hd]
      · simp [hc]

variable {r : Row R}

theorem captures_trail (k : Nat) : (spaces R 0 .done).captures (blanks k) = some [] := by
  have h : (spaces R 0 .done).captures (blanks k ++ []) = some [] :=
    captures_spaces (Nat.zero_le k) nofun rfl
  rwa [List.append_nil] at h

theorem captures_oaci (r : Row R) : (Pattern.opt
    (spaces R 1 <| .rep (some .oaci) isOaci 1 none true <| spaces R 0 .done)
    (spaces R 0 .done)).captures (r.oaciField ++ blanks r.trail) =
      some (r.oaci.toList.map fun code => (.oaci, code)) := by
  have hblank : isOaci ' ' = false := by decide
  cases hoaci : r.oaci with
  | none =>
    have hnone : (spaces R 1 <| .rep (some .oaci) isOaci 1 none true <| spaces R 0 .done).captures
        (blanks r.trail) = none := by
      rw [spaces, Pattern.captures, List.findSome?_eq_none_iff]
      intro n _
      have hfew : (((blanks r.trail).drop n).takeWhile isOaci).length < 1 := by
        rw [blanks, List.drop_replicate]
        cases r.trail - n with
        | zero => simp
        | succ m => simp [List.replicate_succ, hblank]
      rw [Pattern.captures_few hfew]
      rfl
    rw [Pattern.captures, Row.oaciField, hoaci, List.nil_append, hnone, captures_trail]
    rfl
  | some code =>
    have hchars : ∀ c ∈ code, isOaci c = true := r.oaci_chars code hoaci
    have hne : code ≠ [] := by
      rintro rfl
      exact r.oaci_ne hoaci
    have hgap : 1 ≤ r.gap .oaci := Nat.le_of_succ_le (r.gap_two .oaci (by decide))
    have hrest : ∀ c ∈ (blanks r.trail).head?, isOaci c = false := by
      intro c hc
      rw [eq_blank (List.mem_of_mem_head? hc)]
      exact hblank
    have hhead : ∀ c ∈ (code ++ blanks r.trail).head?, R.isSpace c = false := by
      intro c hc
      obtain ⟨d, ds, rfl⟩ := List.exists_cons_of_ne_nil hne
      obtain rfl : d = c := by simpa using hc
      exact isSpace_oaci (hchars d List.mem_cons_self)
    have hcode : (Pattern.rep (some Group.oaci) isOaci 1 none true (spaces R 0 .done)).captures
        (code ++ blanks r.trail) = some [(.oaci, code)] :=
      Pattern.captures_greedy hchars hrest (List.length_pos_iff.mpr hne) nofun
        (captures_trail r.trail)
    have hfield : r.oaciField ++ blanks r.trail =
        blanks (r.gap .oaci) ++ (code ++ blanks r.trail) := by
      simp [Row.oaciField, Row.field, hoaci]
    rw [Pattern.captures, hfield, captures_spaces hgap hhead hcode]
    rfl

section Fields

variable (r) (group) (hgroup : group ≠ .province) (least) (hleast : least ≤ 2)

include hgroup in
theorem head_field (text : List Char) : ∀ c ∈ (r.field group text ++ rest).head?, c = ' ' := by
  intro c hc
  rw [Row.field, List.append_assoc,
    head_blanks (Nat.lt_of_lt_of_le Nat.zero_lt_two (r.gap_two group hgroup))] at hc
  exact (Option.some.inj hc).symm

include hgroup hleast in
theorem captures_natField (n : Nat) (hrest : ∀ c ∈ rest.head?, c = ' ')
    (hnext : next.captures rest = some found) :
    (spaces R least <| numeral R group false next).captures
      (r.field group (natText n) ++ rest) = some ((group, natText n) :: found) := by
  rw [Row.field, List.append_assoc]
  exact captures_spaces (hleast.trans (r.gap_two group hgroup)) (isSpace_natText n rest)
    (captures_natText n hrest hnext)

include hgroup hleast in
theorem captures_signedField (n : Int) (hrest : ∀ c ∈ rest.head?, c = ' ')
    (hnext : next.captures rest = some found) :
    (spaces R least <| numeral R group true next).captures
      (r.field group (sign n ++ natText n.natAbs) ++ rest) =
        some ((group, sign n) :: (group, natText n.natAbs) :: found) := by
  rw [Row.field, List.append_assoc]
  exact captures_spaces (hleast.trans (r.gap_two group hgroup)) (isSpace_signed n rest)
    (captures_signed n hrest hnext)

end Fields

theorem head_oaciField : ∀ c ∈ (r.oaciField ++ blanks r.trail).head?, c = ' ' := by
  cases hoaci : r.oaci with
  | none =>
    have hfield : r.oaciField = [] := by simp [Row.oaciField, hoaci]
    rw [hfield, List.nil_append]
    exact fun c hc => eq_blank (List.mem_of_mem_head? hc)
  | some code =>
    have hfield : r.oaciField = r.field .oaci code := by simp [Row.oaciField, hoaci]
    rw [hfield]
    exact head_field .oaci r (by decide) code

/-- The pattern finds the fields of every row whose province is on one line. -/
theorem captures_tail (hunbroken : Unbroken r.province) :
    (rowTailRe R).captures r.tail = some r.found := by
  have hnro := captures_natField .nro 1 r (by decide) (by decide) r.nro head_oaciField
    (captures_oaci r)
  have haltura := captures_signedField .altura 1 r (by decide) (by decide) r.altura
    (head_field .nro r (by decide) _) hnro
  have hlonMin := captures_natField .lonMin 1 r (by decide) (by decide) r.lonMin
    (head_field .altura r (by decide) _) haltura
  have hlonDeg := captures_signedField .lonDeg 1 r (by decide) (by decide) r.lonDeg
    (head_field .lonMin r (by decide) _) hlonMin
  have hlatMin := captures_natField .latMin 1 r (by decide) (by decide) r.latMin
    (head_field .lonDeg r (by decide) _) hlonDeg
  -- the province ends where two spaces stand before the first number
  have hlatDeg := captures_signedField .latDeg 2 r (by decide) (by decide) r.latDeg
    (head_field .latMin r (by decide) _) hlatMin
  have hhead := strip_head r.province_trimmed
  have hlast := strip_last r.province_trimmed
  have hprovince := @Pattern.captures_lazy Group (some .province) (· ≠ '\n') _ r.province _ _
    r.province_ne ?_ ?_ hlatDeg
  · have hspace : ∀ rest, ∀ c ∈ (r.province ++ rest).head?, R.isSpace c = false := by
      intro rest c hc
      rw [List.head?_append_of_ne_nil _ r.province_ne] at hc
      exact hhead c hc
    have hwhole := @captures_spaces R _ _ (r.gap .province) 0 _ (Nat.zero_le _) (hspace _) hprovince
    rw [← List.append_assoc] at hwhole
    exact hwhole
  · intro c hc
    have hne : c ≠ '\n' := by
      rintro rfl
      exact hunbroken.1 hc
    simpa using hne
  · intro n _ hn
    apply Pattern.captures_few
    refine takeWhile_single ?_ (r.province_single.drop n) ?_ _
    · simpa using hn
    · intro c hc
      rw [List.getLast?_drop, if_neg (by omega)] at hc
      exact hlast c hc

end Tail

end DataService.RegistryText
