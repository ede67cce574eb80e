import DataService.Lib.Segments
import DataService.WeatherStations.RegistryReading

/-! A registry that is written and read again. Nothing with a line break in it comes back, and
what the parser does not read of one row is lost to the whole. -/

namespace DataService.RegistryText

open FloatText IntText IsoDateTime Raising

variable {R : FloatReader} {r : Row R} {cs : List Char} {ps : List StationMetadata}

structure Row.Readable (r : Row R) : Prop where
  name_unbroken : Unbroken r.name
  province_unbroken : Unbroken r.province
  fits : r.Fits
  cutCleanly : r.CutCleanly

section Breaks

variable {a b : List Char} {line : List Char} {lines : List (List Char)}

theorem Unbroken.subset (h : Unbroken a) (hsub : b ⊆ a) : Unbroken b :=
  ⟨fun hmem => h.1 (hsub hmem), fun hmem => h.2 (hsub hmem)⟩

theorem unbroken_append : Unbroken (a ++ b) ↔ Unbroken a ∧ Unbroken b := by
  simp only [Unbroken, List.mem_append, not_or]
  tauto

theorem unbroken_blanks (k : Nat) : Unbroken (blanks k) :=
  ⟨fun h => absurd (eq_blank h) (by decide), fun h => absurd (eq_blank h) (by decide)⟩

theorem unbroken_natText (n : Nat) : Unbroken (natText n) :=
  ⟨fun h => absurd (isAsciiDigit_of_mem_toDigits h) (by decide),
    fun h => absurd (isAsciiDigit_of_mem_toDigits h) (by decide)⟩

theorem unbroken_sign (z : Int) : Unbroken (sign z) := by
  unfold sign
  split <;> decide

theorem unbroken_field {group : Group} : Unbroken (r.field group a) ↔ Unbroken a := by
  rw [Row.field, unbroken_append]
  exact and_iff_right (unbroken_blanks _)

theorem unbroken_oaciField (r : Row R) : Unbroken r.oaciField := by
  cases hoaci : r.oaci with
  | none =>
    have hfield : r.oaciField = [] := by simp [Row.oaciField, hoaci]
    rw [hfield]
    decide
  | some code =>
    have hchars := r.oaci_chars code hoaci
    have hfield : r.oaciField = r.field .oaci code := by simp [Row.oaciField, hoaci]
    rw [hfield]
    exact unbroken_field.mpr ⟨fun h => absurd (hchars _ h) (by decide),
      fun h => absurd (hchars _ h) (by decide)⟩

theorem unbroken_padded : Unbroken (padded a) ↔ Unbroken a := by
  rw [padded, unbroken_append]
  exact and_iff_left (unbroken_blanks _)

theorem unbroken_lines (hname : Unbroken r.name) (hprovince : Unbroken r.province) :
    ∀ line ∈ r.lines, Unbroken line := by
  intro line hline
  rcases List.mem_cons.mp hline with rfl | hline
  · have hcolumn : Unbroken (padded (r.name.take nameColumnWidth)) :=
      unbroken_padded.mpr (hname.subset (List.take_subset _ _))
    simp only [Row.line, Row.tail, unbroken_append, unbroken_field, unbroken_natText, unbroken_sign,
      unbroken_oaciField, unbroken_blanks, hcolumn, hprovince, and_self]
  · obtain ⟨piece, hpiece, rfl⟩ := List.mem_map.mp hline
    refine unbroken_append.mpr ⟨hname.subset ?_, unbroken_blanks _⟩
    have hflatten : r.namePieces.flatten = r.name := pieces_flatten le_rfl
    rw [← hflatten]
    exact fun c hc => List.mem_flatten_of_mem (List.mem_of_mem_tail hpiece) hc

theorem dataLines_render {header : Header} {rows : List (Row R)}
    (h : ∀ r ∈ rows, ∀ line ∈ r.lines, Unbroken line) :
    dataLines (render header rows) = rows.flatMap Row.lines := by
  have hall : ∀ line ∈ header.titles :: header.units :: rows.flatMap Row.lines, Unbroken line := by
    intro line hline
    rcases List.mem_cons.mp hline with rfl | hline
    · exact header.titles_unbroken
    · rcases List.mem_cons.mp hline with rfl | hline
      · exact header.units_unbroken
      · obtain ⟨r, hr, hline⟩ := List.mem_flatMap.mp hline
        exact h r hr line hline
  have hreturn : '\r' ∉ render header rows := by
    intro hmem
    rcases Segments.mem_intercalate hmem with h | ⟨line, hline, h⟩
    · exact absurd h (by decide)
    · exact (hall line hline).2 h
  have hreplaced : replaceText ['\r', '\n'] ['\n'] 0 (render header rows) = render header rows := by
    have happend : replaceText ['\r', '\n'] ['\n'] 0 (render header rows ++ []) =
        render header rows ++ [] := replaceText_append hreturn rfl []
    rwa [List.append_nil] at happend
  rw [dataLines, rawLines, hreplaced, replaceChar_self hreturn, render,
    List.splitOn_intercalate '\n' (fun line hline => (hall line hline).1) (List.cons_ne_nil _ _)]
  rfl

theorem captures_subset {γ : Type} {pattern : Pattern γ} {found : List (γ × List Char)}
    (h : pattern.captures cs = some found) : ∀ p ∈ found, p.2 ⊆ cs := by
  induction pattern generalizing cs found with
  | done =>
    rw [Pattern.captures] at h
    split at h
    · obtain rfl := Option.some.inj h
      exact List.forall_mem_nil _
    · cases h
  | rep group cls least most greedy next ih =>
    rw [Pattern.captures] at h
    obtain ⟨n, -, hn⟩ := List.exists_of_findSome?_eq_some h
    obtain ⟨rest, hrest, rfl⟩ := Option.map_eq_some_iff.mp hn
    intro p hp
    rcases List.mem_append.mp hp with hp | hp
    · obtain ⟨g, -, rfl⟩ := Option.map_eq_some_iff.mp (Option.mem_toList.mp hp)
      exact List.take_subset n cs
    · exact List.Subset.trans (ih hrest p hp) (List.drop_subset n cs)
  | opt taken skipped ihTaken ihSkipped =>
    rw [Pattern.captures] at h
    rcases Option.or_eq_some_iff.mp h with h | h
    · exact ihTaken h
    · exact ihSkipped h.2

theorem groupText_subset {found : List (Group × List Char)} {group : Group} {all : List Char}
    (h : ∀ p ∈ found, p.2 ⊆ all) : (groupText found group).getD [] ⊆ all := by
  rw [groupText]
  split
  · intro c hc
    obtain ⟨p, hp, hc⟩ := List.mem_flatMap.mp hc
    exact h p (List.mem_of_mem_filter hp) hc
  · exact List.nil_subset _

theorem strip_subset : strip R cs ⊆ cs := by
  intro c hc
  exact (List.dropWhile_suffix _).subset (List.mem_reverse.mp
    ((List.dropWhile_suffix _).subset (List.mem_reverse.mp hc)))

/-- The names and provinces that are read have no line breaks. -/
def AllUnbroken (ps : List StationMetadata) : Prop :=
  ∀ s ∈ ps, Unbroken s.name ∧ Unbroken s.province

theorem unbroken_stationOfLine {station : StationMetadata} (hline : Unbroken line)
    (h : stationOfLine R line = some station) :
    Unbroken station.name ∧ Unbroken station.province := by
  have hpadded := unbroken_padded.mpr hline
  obtain ⟨found, hfound, hstation⟩ := stationOfLine_eq_some h
  obtain ⟨hname, hprovince⟩ := stationOf_texts hstation
  rw [hname, hprovince]
  constructor
  · exact hpadded.subset (List.Subset.trans strip_subset (List.take_subset _ _))
  · have htail : (groupText found .province).getD [] ⊆ (padded line).drop nameColumnWidth :=
      groupText_subset (captures_subset hfound)
    exact hpadded.subset (List.Subset.trans strip_subset
      (List.Subset.trans htail (List.drop_subset _ _)))

theorem allUnbroken_addParsed (hline : Unbroken line) (hps : AllUnbroken ps) :
    AllUnbroken (addParsed R ps line) := by
  by_cases hrow : IsRow R line
  · obtain ⟨station, hstation, happend⟩ := addParsed_row hrow
    rw [happend]
    intro s hs
    rcases List.mem_append.mp hs with hs | hs
    · exact hps s hs
    · obtain rfl := List.mem_singleton.mp hs
      exact unbroken_stationOfLine hline hstation
  · rw [addParsed_notRow hrow]
    cases hsuffix : continuationOf R line with
    | none => exact hps
    | some suffix =>
      have hsub : suffix ⊆ padded line := by
        simp only [continuationOf] at hsuffix
        split_ifs at hsuffix
        obtain rfl := Option.some.inj hsuffix
        exact List.Subset.trans rstrip_prefix.subset (List.take_subset _ _)
      have hsuffixUnbroken := (unbroken_padded.mpr hline).subset hsub
      simp only [Option.map_some, Option.getD_some, continueName]
      cases hlast : ps.getLast? with
      | none => exact hps
      | some last =>
        obtain ⟨hname, hprovince⟩ := hps last (List.mem_of_getLast? hlast)
        intro s hs
        rcases List.mem_append.mp hs with hs | hs
        · exact hps s (List.dropLast_subset ps hs)
        · obtain rfl := List.mem_singleton.mp hs
          exact ⟨(unbroken_append.mpr ⟨hname, hsuffixUnbroken⟩).subset strip_subset, hprovince⟩

theorem allUnbroken_foldl (hlines : ∀ line ∈ lines, Unbroken line) (hps : AllUnbroken ps) :
    AllUnbroken (lines.foldl (addParsed R) ps) := by
  induction lines generalizing ps with
  | nil => exact hps
  | cons line lines ih =>
    refine ih (fun l hl => hlines l (List.mem_cons_of_mem line hl)) ?_
    exact allUnbroken_addParsed (hlines line List.mem_cons_self) hps

theorem unbroken_dataLines {content : List Char} (h : line ∈ dataLines content) : Unbroken line := by
  obtain ⟨hnewline, hsub⟩ := Segments.mem_splitOn (List.mem_of_mem_drop h)
  refine ⟨hnewline, fun hreturn => ?_⟩
  obtain ⟨c, -, hc⟩ := List.mem_flatMap.mp (hsub hreturn)
  split at hc
  · exact absurd hc (by decide)
  · rename_i hne
    exact hne (List.mem_singleton.mp hc).symm

end Breaks

section Rows

variable {rows : List (Row R)}

theorem foldl_rows (h : ∀ r ∈ rows, Unbroken r.province ∧ r.Fits) :
    (rows.flatMap Row.lines).foldl (addParsed R) ps = ps ++ rows.map Row.read := by
  induction rows generalizing ps with
  | nil => simp
  | cons r rows ih =>
    obtain ⟨hprovince, hfits⟩ := h r List.mem_cons_self
    rw [List.flatMap_cons, List.foldl_append, foldl_lines hprovince hfits,
      ih fun s hs => h s (List.mem_cons_of_mem r hs)]
    simp

/-- One line of each row can be a row, and it is one if its numbers can be read. -/
theorem countP_rows : (rows.flatMap Row.lines).countP (IsRow R ·) =
    rows.countP fun r => IsRow R r.line := by
  induction rows with
  | nil => rfl
  | cons r rows ih =>
    have hrest : (r.namePieces.tail.map (· ++ blanks r.continued)).countP (IsRow R ·) = 0 := by
      rw [List.countP_eq_zero]
      intro line hline
      obtain ⟨piece, hpiece, rfl⟩ := List.mem_map.mp hline
      simpa using not_isRow_continuation (length_piece hpiece)
    rw [List.flatMap_cons, List.countP_append, ih, Row.lines, List.countP_cons, hrest,
      List.countP_cons]
    omega

theorem not_overflows_lines (hprovince : Unbroken r.province) (hfits : r.Fits) {line : List Char}
    (h : line ∈ r.lines) : ¬ Overflows R line := by
  rcases List.mem_cons.mp h with rfl | h
  · exact not_overflows_line hprovince hfits
  · obtain ⟨piece, hpiece, rfl⟩ := List.mem_map.mp h
    exact not_overflows_continuation (length_piece hpiece)

/-- A rendered registry is read back exactly if each of its rows is readable. -/
theorem parse_render_iff (header : Header) (rows : List (Row R)) :
    parseEstacionesTxt R (render header rows) = .ok (rows.map fun r => r.metadata) ↔
      ∀ r ∈ rows, r.Readable := by
  rw [parseEstacionesTxt, foldlM_eq_ok]
  constructor
  · rintro ⟨-, hread⟩
    have hunbroken : ∀ r ∈ rows, Unbroken r.name ∧ Unbroken r.province := by
      have hall : AllUnbroken (rows.map fun r => r.metadata) := by
        rw [hread]
        exact allUnbroken_foldl (fun _ => unbroken_dataLines) (List.forall_mem_nil _)
      exact fun r hr => hall r.metadata (List.mem_map_of_mem hr)
    rw [dataLines_render fun r hr => unbroken_lines (hunbroken r hr).1 (hunbroken r hr).2] at hread
    have hfits : ∀ r ∈ rows, r.Fits := by
      have hlength := congrArg List.length hread
      rw [List.length_map, length_foldl, List.length_nil, Nat.zero_add, countP_rows] at hlength
      have hrows := List.countP_eq_length.mp hlength.symm
      exact fun r hr => (isRow_line (hunbroken r hr).2).mp (by simpa using hrows r hr)
    rw [foldl_rows fun r hr => ⟨(hunbroken r hr).2, hfits r hr⟩, List.nil_append] at hread
    have hnames := List.map_inj_left.mp hread
    intro r hr
    exact ⟨(hunbroken r hr).1, (hunbroken r hr).2, hfits r hr, read_eq_iff.mp (hnames r hr).symm⟩
  · intro h
    rw [dataLines_render fun r hr => unbroken_lines (h r hr).name_unbroken (h r hr).province_unbroken]
    constructor
    · intro line hline
      obtain ⟨r, hr, hline⟩ := List.mem_flatMap.mp hline
      exact not_overflows_lines (h r hr).province_unbroken (h r hr).fits hline
    · rw [foldl_rows fun r hr => ⟨(h r hr).province_unbroken, (h r hr).fits⟩, List.nil_append]
      exact List.map_inj_left.mpr fun r hr => (read_eq_iff.mpr (h r hr).cutCleanly).symm

end Rows

section Mendoza

def columnTitles : Header := ⟨"NOMBRE".toList, "[m]".toList, by decide, by decide⟩

/-- A station whose name is cut right behind a space. -/
def mendozaSur : Row .asciiOnly where
  name := "ESTACION EXPERIMENTAL MENDOZA SUR".toList
  province := "MENDOZA".toList
  latDeg := -32
  latMin := 50
  lonDeg := -68
  lonMin := 47
  altura := 704
  nro := 87418
  oaci := some "SAME".toList
  name_ne := by decide
  name_trimmed := by decide +kernel
  province_ne := by decide
  province_trimmed := by decide +kernel
  province_single := by decide +kernel
  latMin_lt := by decide
  lonMin_lt := by decide
  oaci_ne := by decide
  oaci_chars := by
    intro code hcode
    obtain rfl := Option.some.inj hcode
    exact List.all_eq_true.mp (by decide)
  gap := fun _ => 2
  trail := 0
  continued := 0
  gap_two := fun _ _ => le_rfl

theorem space_lost_at_cut : ¬ ∀ (R : FloatReader) (header : Header) (rows : List (Row R)),
    parseEstacionesTxt R (render header rows) = .ok (rows.map fun r => r.metadata) := by
  intro h
  have hnames : (parseEstacionesTxt .asciiOnly (render columnTitles [mendozaSur])).map
      (·.map (·.name)) = .ok ["ESTACION EXPERIMENTAL MENDOZASUR".toList] := by
    decide +kernel
  rw [h .asciiOnly columnTitles [mendozaSur]] at hnames
  exact absurd hnames (by decide +kernel)

end Mendoza

end DataService.RegistryText
