import DataService.WeatherStations.RegistryLayout

/-! What the parser reads from the lines of one row: its numbers as far as they can be converted,
and the pieces of its name without the spaces at their ends. -/

namespace DataService.RegistryText

open DecimalText FloatText IntText NumberText Raising

variable {R : FloatReader} {r : Row R} {cs : List Char} {ps : List StationMetadata}

namespace Row

/-- The coordinates are within the floats and the other numbers within the digits of `int`. -/
def Fits (r : Row R) : Prop :=
  r.latDeg.natAbs < overflowBound ∧ r.lonDeg.natAbs < overflowBound ∧
    (natText r.altura.natAbs).length ≤ maxStrDigits ∧ (natText r.nro).length ≤ maxStrDigits

/-- No piece of the name ends with a space. -/
def CutCleanly (r : Row R) : Prop := ∀ piece ∈ r.namePieces, ∀ c ∈ piece.getLast?, R.isSpace c = false

def text (r : Row R) : Group → List Char
  | .province => r.province
  | .latDeg => sign r.latDeg ++ natText r.latDeg.natAbs
  | .latMin => natText r.latMin
  | .lonDeg => sign r.lonDeg ++ natText r.lonDeg.natAbs
  | .lonMin => natText r.lonMin
  | .altura => sign r.altura ++ natText r.altura.natAbs
  | .nro => natText r.nro
  | .oaci => r.oaci.getD []

/-- The station without the spaces at the ends of the pieces of its name. -/
def read (r : Row R) : StationMetadata :=
  { r.metadata with name := (r.namePieces.map (rstrip R)).flatten }

end Row

section Numbers

variable {n : Nat} {z : Int}

theorem groupText_found (r : Row R) (group : Group) :
    (groupText r.found group).getD [] = r.text group := by
  cases hoaci : r.oaci with
  | none => cases group <;> simp [groupText, Row.found, Row.text, hoaci]
  | some code => cases group <;> simp [groupText, Row.found, Row.text, hoaci]

theorem groupText_oaci (r : Row R) : groupText r.found .oaci = r.oaci := by
  cases hoaci : r.oaci with
  | none => simp [groupText, Row.found, hoaci]
  | some code => simp [groupText, Row.found, hoaci]

theorem int_of_splitSign {negative : Bool} (h : splitSign cs = (negative, natText n)) :
    int R cs = if maxStrDigits < (natText n).length then .error .valueError
      else .ok (if negative then -(n : Int) else n) := by
  have hdigits : ∀ c ∈ natText n, IsAsciiDigit c := fun c => isAsciiDigit_of_mem_toDigits
  obtain ⟨d, ds, hcons⟩ := List.exists_cons_of_ne_nil (Nat.toDigits_ne_nil (n := n) (b := 10))
  have hmap : (natText n).map (fun c => c.toNat - 48) =
      (d.toNat - 48) :: ds.map fun c => c.toNat - 48 := by
    rw [natText, hcons, List.map_cons]
  have hvalue : valueOf ((d.toNat - 48) :: ds.map fun c => c.toNat - 48) = n := by
    rw [← hmap, valueOf_map, natText, digitsValue_toDigits]
  simp only [int, h, digits_ascii hdigits, hmap, hvalue]

theorem int_natText : int R (natText n) =
    if maxStrDigits < (natText n).length then .error .valueError else .ok (n : Int) :=
  int_of_splitSign (splitSign_digits fun _ => isAsciiDigit_of_mem_toDigits)

theorem int_signed : int R (sign z ++ natText z.natAbs) =
    if maxStrDigits < (natText z.natAbs).length then .error .valueError else .ok z := by
  by_cases hz : z < 0
  · have hsplit : splitSign (sign z ++ natText z.natAbs) = (true, natText z.natAbs) := by
      rw [sign, if_pos hz]
      rfl
    have hvalue : -(z.natAbs : Int) = z := by omega
    rw [int_of_splitSign hsplit, if_pos rfl, hvalue]
  · have hsign : sign z = [] := if_neg hz
    rw [hsign, List.nil_append, int_natText, Int.natAbs_of_nonneg (by omega)]

theorem int_natText_ok {v : Int} : int R (natText n) = .ok v ↔
    (natText n).length ≤ maxStrDigits ∧ v = n := by
  rw [int_natText]
  by_cases hlong : maxStrDigits < (natText n).length
  · simp [hlong]
  · simp [hlong, not_lt.mp hlong, eq_comm]

theorem int_signed_ok {v : Int} : int R (sign z ++ natText z.natAbs) = .ok v ↔
    (natText z.natAbs).length ≤ maxStrDigits ∧ v = z := by
  rw [int_signed]
  by_cases hlong : maxStrDigits < (natText z.natAbs).length
  · simp [hlong]
  · simp [hlong, not_lt.mp hlong, eq_comm]

theorem length_natText_le (h : n < overflowBound) : (natText n).length ≤ maxStrDigits := by
  have hshort : (Nat.toDigits 10 overflowBound).length ≤ maxStrDigits := by decide +kernel
  have hpos : 0 < maxStrDigits := by decide
  have hbound := (Nat.length_toDigits_le_iff (by omega) hpos).mp hshort
  exact (Nat.length_toDigits_le_iff (by omega) hpos).mpr (Nat.lt_trans h hbound)

theorem minutes_lt {m : Nat} (h : m < 60) : m < overflowBound := by
  have hbound : 60 ≤ overflowBound := by decide +kernel
  omega

theorem dmsToDecimal_degrees {deg : Int} {minutes : Nat} (hminutes : minutes < 60) {q : ℚ} :
    dmsToDecimal deg minutes = .ok q ↔ deg.natAbs < overflowBound ∧ q = degrees deg minutes := by
  have hsmall : ¬ overflowBound ≤ minutes := not_le.mpr (minutes_lt hminutes)
  rw [dmsToDecimal, degrees]
  by_cases hdeg : overflowBound ≤ deg.natAbs
  · simp [hsmall, hdeg]
  · simp [hsmall, hdeg, not_le.mp hdeg, eq_comm]

theorem stationOf_ok {line : List Char} {station : StationMetadata} :
    stationOf R line r.found = .ok station ↔ r.Fits ∧ station =
      { r.metadata with name := strip R ((padded line).take nameColumnWidth) } := by
  have hlatMin := length_natText_le (minutes_lt r.latMin_lt)
  have hlonMin := length_natText_le (minutes_lt r.lonMin_lt)
  have hpure : ∀ s : StationMetadata, (pure s : Except PyError StationMetadata) = .ok station ↔
      s = station := fun s => Except.ok.injEq s station ▸ Iff.rfl
  simp only [stationOf, groupText_found, groupText_oaci, bind_eq_ok, Row.text, int_natText_ok,
    int_signed_ok, r.province_trimmed, hpure]
  constructor
  · rintro ⟨_, ⟨hnro, rfl⟩, _, ⟨-, rfl⟩, _, ⟨-, rfl⟩, _, hlat, _, ⟨-, rfl⟩, _, ⟨-, rfl⟩, _, hlon, _,
      ⟨haltura, rfl⟩, rfl⟩
    obtain ⟨hlatDeg, rfl⟩ := (dmsToDecimal_degrees r.latMin_lt).mp hlat
    obtain ⟨hlonDeg, rfl⟩ := (dmsToDecimal_degrees r.lonMin_lt).mp hlon
    exact ⟨⟨hlatDeg, hlonDeg, haltura, hnro⟩, rfl⟩
  · rintro ⟨⟨hlat, hlon, haltura, hnro⟩, rfl⟩
    exact ⟨_, ⟨hnro, rfl⟩, _, ⟨length_natText_le hlat, rfl⟩, _, ⟨hlatMin, rfl⟩, _,
      (dmsToDecimal_degrees r.latMin_lt).mpr ⟨hlat, rfl⟩, _, ⟨length_natText_le hlon, rfl⟩, _,
      ⟨hlonMin, rfl⟩, _, (dmsToDecimal_degrees r.lonMin_lt).mpr ⟨hlon, rfl⟩, _, ⟨haltura, rfl⟩, rfl⟩

end Numbers

section Pieces

variable {n k : Nat} {piece : List Char} {station : StationMetadata}

theorem rstrip_prefix : rstrip R cs <+: cs := by
  rw [rstrip, ← List.reverse_suffix, List.reverse_reverse]
  exact List.dropWhile_suffix _

theorem rstrip_blanks (cs : List Char) (k : Nat) : rstrip R (cs ++ blanks k) = rstrip R cs := by
  have hspaces : ∀ c ∈ (blanks k).reverse, R.isSpace c = true := fun c hc =>
    isSpace_blanks (List.mem_reverse.mp hc)
  rw [rstrip, rstrip, List.reverse_append, dropWhile_spaces hspaces]

theorem rstrip_self_iff : rstrip R cs = cs ↔ ∀ c ∈ cs.getLast?, R.isSpace c = false := by
  constructor
  · intro h c hc
    rw [← h] at hc
    exact last_rstrip c hc
  · intro h
    have hhead : ∀ c ∈ cs.reverse.head?, R.isSpace c = false := by rwa [List.head?_reverse]
    rw [rstrip, dropWhile_self hhead, List.reverse_reverse]

theorem strip_eq_rstrip (h : ∀ c ∈ cs.head?, R.isSpace c = false) : strip R cs = rstrip R cs := by
  rw [strip, dropWhile_self h]
  rfl

theorem strip_blanks (k : Nat) : strip R (blanks k) = [] := by
  have hall : (blanks k).dropWhile R.isSpace = [] :=
    List.dropWhile_eq_nil_iff.mpr fun c => isSpace_blanks
  rw [strip, hall]
  rfl

theorem spaces_of_strip (h : strip R cs = []) : ∀ c ∈ cs, R.isSpace c = true := by
  have hrest : ∀ c ∈ cs.dropWhile R.isSpace, R.isSpace c = true := fun c hc =>
    List.dropWhile_eq_nil_iff.mp (List.reverse_eq_nil_iff.mp h) c (List.mem_reverse.mpr hc)
  apply List.dropWhile_eq_nil_iff.mp
  cases hcs : cs.dropWhile R.isSpace with
  | nil => rfl
  | cons c rest =>
    have hnot := List.head?_dropWhile_not R.isSpace cs
    rw [hcs] at hnot hrest
    exact absurd (hrest c List.mem_cons_self) (by simpa using hnot)

theorem rstrip_eq_nil (h : strip R cs = []) : rstrip R cs = [] := by
  have hall : cs.reverse.dropWhile R.isSpace = [] :=
    List.dropWhile_eq_nil_iff.mpr fun c hc => spaces_of_strip h c (List.mem_reverse.mp hc)
  rw [rstrip, hall]
  rfl

theorem pieces_length (h : piece ∈ pieces n cs) : piece.length ≤ nameColumnWidth := by
  induction n generalizing cs with
  | zero => cases h
  | succ n ih =>
    rw [pieces] at h
    split at h
    · cases h
    · rcases List.mem_cons.mp h with rfl | h
      · exact List.length_take_le _ _
      · exact ih h

theorem pieces_flatten (h : cs.length ≤ n) : (pieces n cs).flatten = cs := by
  induction n generalizing cs with
  | zero =>
    obtain rfl := List.length_eq_zero_iff.mp (Nat.le_zero.mp h)
    rfl
  | succ n ih =>
    rw [pieces]
    split
    · rename_i hcs
      rw [hcs]
      rfl
    · rename_i hcs
      have hpos := List.length_pos_iff.mpr hcs
      have hrest : (cs.drop nameColumnWidth).length ≤ n := by
        rw [List.length_drop, nameColumnWidth]
        omega
      rw [List.flatten_cons, ih hrest, List.take_append_drop]

/-- Pieces lose something unless none of them ends with a space. -/
theorem flatten_rstrip_iff {ps : List (List Char)} :
    (ps.map (rstrip R)).flatten = ps.flatten ↔ ∀ p ∈ ps, rstrip R p = p := by
  have hle : ∀ qs : List (List Char), (qs.map (rstrip R)).flatten.length ≤ qs.flatten.length := by
    intro qs
    induction qs with
    | nil => exact le_rfl
    | cons q qs ih =>
      rw [List.map_cons, List.flatten_cons, List.flatten_cons, List.length_append,
        List.length_append]
      exact Nat.add_le_add rstrip_prefix.length_le ih
  constructor
  · intro h
    induction ps with
    | nil => exact List.forall_mem_nil _
    | cons p ps ih =>
      rw [List.map_cons, List.flatten_cons, List.flatten_cons] at h
      have hlengths := congrArg List.length h
      rw [List.length_append, List.length_append] at hlengths
      have hp : (rstrip R p).length ≤ p.length := rstrip_prefix.length_le
      have hps := hle ps
      obtain ⟨hfirst, hrest⟩ := List.append_inj h (by omega)
      exact List.forall_mem_cons.mpr ⟨hfirst, ih hrest⟩
  · intro h
    have hmap : ps.map (rstrip R) = ps.map id := List.map_congr_left h
    rw [hmap, List.map_id]

end Pieces

section Lines

variable {k : Nat} {piece : List Char} {station : StationMetadata}

theorem padded_self (h : nameColumnWidth ≤ cs.length) : padded cs = cs := by
  rw [padded, Nat.sub_eq_zero_of_le h, List.replicate_zero, List.append_nil]

theorem length_padded (h : cs.length ≤ nameColumnWidth) : (padded cs).length = nameColumnWidth := by
  rw [padded, List.length_append, List.length_replicate]
  omega

theorem padded_line (r : Row R) : (padded r.line).take nameColumnWidth =
    padded (r.name.take nameColumnWidth) ∧ (padded r.line).drop nameColumnWidth = r.tail := by
  have hcolumn := length_padded (List.length_take_le nameColumnWidth r.name)
  have hline : padded r.line = r.line := by
    apply padded_self
    rw [Row.line, List.length_append, hcolumn]
    exact Nat.le_add_right _ _
  rw [hline, Row.line]
  exact ⟨List.take_left' hcolumn, List.drop_left' hcolumn⟩

/-- A continuation line has a piece of the name and nothing else. -/
theorem padded_continuation (h : piece.length ≤ nameColumnWidth) :
    rstrip R ((padded (piece ++ blanks k)).take nameColumnWidth) = rstrip R piece ∧
      strip R ((padded (piece ++ blanks k)).drop nameColumnWidth) = [] := by
  have hline : ∃ m, padded (piece ++ blanks k) = piece ++ blanks m := by
    refine ⟨k + (nameColumnWidth - (piece ++ blanks k).length), ?_⟩
    rw [padded, List.append_assoc, blanks, blanks, List.replicate_append_replicate]
  obtain ⟨m, hm⟩ := hline
  have htake : (piece ++ blanks m).take nameColumnWidth =
      piece ++ blanks (min (nameColumnWidth - piece.length) m) := by
    rw [List.take_append, List.take_of_length_le h, blanks, blanks, List.take_replicate]
  have hdrop : (piece ++ blanks m).drop nameColumnWidth =
      blanks (m - (nameColumnWidth - piece.length)) := by
    rw [List.drop_append, List.drop_eq_nil_of_le h, List.nil_append, blanks, blanks,
      List.drop_replicate]
  rw [hm, htake, hdrop]
  exact ⟨rstrip_blanks _ _, strip_blanks _⟩

theorem name_head (r : Row R) : ∀ c ∈ r.name.head?, R.isSpace c = false :=
  strip_head r.name_trimmed

theorem strip_line_ne (r : Row R) : strip R r.line ≠ [] := by
  intro hblank
  obtain ⟨c, cs, hname⟩ := List.exists_cons_of_ne_nil r.name_ne
  have hspace := spaces_of_strip hblank c (by simp [Row.line, padded, nameColumnWidth, hname])
  rw [name_head r c (by simp [hname])] at hspace
  cases hspace

theorem strip_tail_ne (r : Row R) : strip R r.tail ≠ [] := by
  intro hblank
  obtain ⟨c, cs, hprovince⟩ := List.exists_cons_of_ne_nil r.province_ne
  have hspace := spaces_of_strip hblank c (by simp [Row.tail, Row.field, hprovince])
  rw [strip_head r.province_trimmed c (by simp [hprovince])] at hspace
  cases hspace

theorem strip_column (r : Row R) :
    strip R (padded (r.name.take nameColumnWidth)) = rstrip R (r.name.take nameColumnWidth) := by
  have hhead : ∀ c ∈ (padded (r.name.take nameColumnWidth)).head?, R.isSpace c = false := by
    intro c hc
    obtain ⟨d, ds, hname⟩ := List.exists_cons_of_ne_nil r.name_ne
    refine name_head r c ?_
    rw [hname] at hc ⊢
    exact hc
  rw [strip_eq_rstrip hhead]
  exact rstrip_blanks _ _

/-- The station of a row, as long as its numbers can be read. -/
theorem stationOfLine_line (hunbroken : Unbroken r.province) :
    stationOfLine R r.line = some station ↔ r.Fits ∧ station =
      { r.metadata with name := rstrip R (r.name.take nameColumnWidth) } := by
  obtain ⟨hcolumn, htail⟩ := padded_line r
  have hstation : stationOf R r.line r.found = .ok station ↔ _ := stationOf_ok
  rw [hcolumn, strip_column] at hstation
  rw [stationOfLine, htail, if_neg (not_or.mpr ⟨strip_line_ne r, strip_tail_ne r⟩),
    captures_tail hunbroken, Option.bind_some, ← hstation]
  cases stationOf R r.line r.found with
  | error e => simp [Except.toOption]
  | ok s => simp [Except.toOption]

theorem isRow_line (hunbroken : Unbroken r.province) : IsRow R r.line ↔ r.Fits := by
  rw [IsRow, Option.isSome_iff_exists]
  simp [stationOfLine_line hunbroken]

theorem not_overflows_line (hunbroken : Unbroken r.province) (hfits : r.Fits) :
    ¬ Overflows R r.line := by
  rintro ⟨-, -, found, hfound, hlarge⟩
  rw [(padded_line r).2, captures_tail hunbroken] at hfound
  obtain rfl := Option.some.inj hfound
  have hraises : stationOf R r.line r.found = .error .overflowError :=
    (stationOf_error (by decide)).mpr ⟨rfl, hlarge⟩
  rw [stationOf_ok.mpr ⟨hfits, rfl⟩] at hraises
  cases hraises

theorem not_overflows_continuation (h : piece.length ≤ nameColumnWidth) :
    ¬ Overflows R (piece ++ blanks k) := fun hover => hover.2.1 (padded_continuation h).2

theorem not_isRow_continuation (h : piece.length ≤ nameColumnWidth) :
    ¬ IsRow R (piece ++ blanks k) := by
  rw [IsRow, stationOfLine, if_pos (.inr (padded_continuation h).2)]
  exact Bool.false_ne_true

/-- A continuation line gives the last name its piece without the spaces at the end. -/
theorem addParsed_continuation (h : piece.length ≤ nameColumnWidth) (hne : station.name ≠ [])
    (hhead : ∀ c ∈ station.name.head?, R.isSpace c = false) :
    addParsed R (ps ++ [station]) (piece ++ blanks k) =
      ps ++ [{ station with name := station.name ++ rstrip R piece }] := by
  rw [addParsed_notRow (not_isRow_continuation h), continuationOf]
  simp only [(padded_continuation (R := R) (k := k) h).1]
  by_cases hsuffix : rstrip R piece = []
  · simp [hsuffix]
  · have hline : strip R (piece ++ blanks k) ≠ [] := by
      intro hblank
      have hrstrip := rstrip_eq_nil hblank
      rw [rstrip_blanks] at hrstrip
      exact hsuffix hrstrip
    have hself : strip R (station.name ++ rstrip R piece) = station.name ++ rstrip R piece := by
      refine strip_self ?_ ?_
      · rwa [List.head?_append_of_ne_nil _ hne]
      · rw [List.getLast?_append_of_ne_nil _ hsuffix]
        exact last_rstrip
    rw [if_pos ⟨hline, (padded_continuation h).2, hsuffix⟩]
    simp [continueName, hself]

theorem foldl_continuations {pieces : List (List Char)}
    (h : ∀ piece ∈ pieces, piece.length ≤ nameColumnWidth) (hne : station.name ≠ [])
    (hhead : ∀ c ∈ station.name.head?, R.isSpace c = false) :
    (pieces.map (· ++ blanks k)).foldl (addParsed R) (ps ++ [station]) =
      ps ++ [{ station with name := station.name ++ (pieces.map (rstrip R)).flatten }] := by
  induction pieces generalizing station with
  | nil => simp
  | cons piece pieces ih =>
    have hpieces := fun p hp => h p (List.mem_cons_of_mem piece hp)
    have hgrown : station.name ++ rstrip R piece ≠ [] := List.append_ne_nil_of_left_ne_nil hne _
    have hgrownHead : ∀ c ∈ (station.name ++ rstrip R piece).head?, R.isSpace c = false := by
      rwa [List.head?_append_of_ne_nil _ hne]
    rw [List.map_cons, List.foldl_cons, addParsed_continuation (h piece List.mem_cons_self) hne hhead,
      ih hpieces hgrown hgrownHead]
    simp

theorem namePieces_eq (r : Row R) :
    r.namePieces = r.name.take nameColumnWidth :: r.namePieces.tail := by
  obtain ⟨c, cs, hname⟩ := List.exists_cons_of_ne_nil r.name_ne
  rw [Row.namePieces, hname, List.length_cons, pieces, if_neg (List.cons_ne_nil c cs)]
  rfl

theorem length_piece {piece : List Char} (h : piece ∈ r.namePieces.tail) :
    piece.length ≤ nameColumnWidth :=
  pieces_length (List.mem_of_mem_tail h)

/-- The lines of a row are read as one station. -/
theorem foldl_lines (hunbroken : Unbroken r.province) (hfits : r.Fits) :
    r.lines.foldl (addParsed R) ps = ps ++ [r.read] := by
  have hrow := (isRow_line hunbroken).mpr hfits
  obtain ⟨station, hstation, happend⟩ := addParsed_row hrow
  obtain ⟨-, rfl⟩ := (stationOfLine_line hunbroken).mp hstation
  have hhead : ∀ c ∈ (rstrip R (r.name.take nameColumnWidth)).head?, R.isSpace c = false := by
    rw [← strip_column]
    exact head_strip
  have hne : rstrip R (r.name.take nameColumnWidth) ≠ [] := by
    rw [← strip_column]
    intro hblank
    obtain ⟨c, cs, hname⟩ := List.exists_cons_of_ne_nil r.name_ne
    have hspace := spaces_of_strip hblank c (by simp [padded, nameColumnWidth, hname])
    rw [name_head r c (by simp [hname])] at hspace
    cases hspace
  rw [Row.lines, List.foldl_cons, happend, foldl_continuations (fun _ => length_piece) hne hhead,
    Row.read]
  conv_rhs => rw [namePieces_eq r]
  rfl

/-- The name is read whole exactly if it is cut cleanly. -/
theorem read_eq_iff : r.read = r.metadata ↔ r.CutCleanly := by
  have hflatten : r.namePieces.flatten = r.name := pieces_flatten le_rfl
  have hname : r.read = r.metadata ↔
      (r.namePieces.map (rstrip R)).flatten = r.namePieces.flatten := by
    rw [hflatten]
    simp [Row.read, Entry.metadata]
  rw [hname, flatten_rstrip_iff, Row.CutCleanly]
  exact forall₂_congr fun piece _ => rstrip_self_iff

end Lines

end DataService.RegistryText
