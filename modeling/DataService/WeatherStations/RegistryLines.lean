import DataService.WeatherStations.RegistryText

/-! What each line of the registry does to the stations before it: a row appends a station, a
continuation line lengthens the last name, and every other line does nothing. -/

namespace DataService.RegistryText

open FloatText Raising

variable (R : FloatReader)

/-- The station of a line that is a row. -/
def stationOfLine (line : List Char) : Option StationMetadata :=
  if strip R line = [] ∨ strip R ((padded line).drop nameColumnWidth) = [] then none
  else ((rowTailRe R).captures ((padded line).drop nameColumnWidth)).bind fun found =>
    (stationOf R line found).toOption

/-- The rest of a name that a continuation line holds. -/
def continuationOf (line : List Char) : Option (List Char) :=
  let suffix := rstrip R ((padded line).take nameColumnWidth)
  if strip R line ≠ [] ∧ strip R ((padded line).drop nameColumnWidth) = [] ∧ suffix ≠ [] then
    some suffix
  else none

def IsRow (line : List Char) : Prop := (stationOfLine R line).isSome

def IsContinuation (line : List Char) : Prop := (continuationOf R line).isSome

instance (line : List Char) : Decidable (IsRow R line) := inferInstanceAs (Decidable (_ = true))

instance (line : List Char) : Decidable (IsContinuation R line) :=
  inferInstanceAs (Decidable (_ = true))

/-- What a line that raises nothing does. -/
def addParsed (parsed : List StationMetadata) (line : List Char) : List StationMetadata :=
  match stationOfLine R line with
  | some station => parsed ++ [station]
  | none =>
    match continuationOf R line with
    | some suffix => continueName R suffix parsed
    | none => parsed

section Lines

variable {R} {line : List Char} {lines : List (List Char)} {parsed ps qs : List StationMetadata}

theorem addLine_ok (h : addLine R ps line = .ok qs) : qs = addParsed R ps line := by
  unfold addLine at h
  unfold addParsed stationOfLine continuationOf
  by_cases hline : strip R line = []
  · rw [if_pos hline] at h
    simpa [hline] using (Except.ok.inj h).symm
  · rw [if_neg hline] at h
    by_cases htail : strip R ((padded line).drop nameColumnWidth) = []
    · simp only [htail, if_true] at h
      by_cases hsuffix : rstrip R ((padded line).take nameColumnWidth) = []
      · rw [if_pos hsuffix] at h
        simpa [hsuffix, htail] using (Except.ok.inj h).symm
      · rw [if_neg hsuffix] at h
        simpa [hsuffix, htail, hline] using (Except.ok.inj h).symm
    · simp only [htail, if_false] at h
      cases hfound : (rowTailRe R).captures ((padded line).drop nameColumnWidth) with
      | none =>
        rw [hfound] at h
        simpa [hfound, htail, hline] using (Except.ok.inj h).symm
      | some found =>
        simp only [hfound] at h
        cases hstation : stationOf R line found with
        | ok station =>
          rw [hstation] at h
          simpa [hfound, htail, hline, hstation, Except.toOption] using (Except.ok.inj h).symm
        | error e =>
          simp only [hstation] at h
          have hsame : qs = ps := by
            cases e with
            | valueError => exact (Except.ok.inj h).symm
            | typeError => exact (Except.ok.inj h).symm
            | overflowError => cases h
            | attributeError => cases h
          simp [htail, hstation, hsame, Except.toOption]

theorem addLine_eq (h : ¬ Overflows R line) (ps : List StationMetadata) :
    addLine R ps line = .ok (addParsed R ps line) := by
  cases hok : addLine R ps line with
  | ok qs => rw [addLine_ok hok]
  | error e => exact absurd ((addLine_raises_iff ps line).mp ⟨e, hok⟩) h

/-- A parse that returns has read line after line. -/
theorem foldlM_eq_ok : lines.foldlM (addLine R) ps = .ok qs ↔
    (∀ line ∈ lines, ¬ Overflows R line) ∧ qs = lines.foldl (addParsed R) ps := by
  induction lines generalizing ps with
  | nil => simp [pure, Except.pure, eq_comm]
  | cons line lines ih =>
    rw [List.foldlM_cons, bind_eq_ok, List.forall_mem_cons, List.foldl_cons]
    constructor
    · rintro ⟨rs, hline, hrest⟩
      obtain ⟨hlines, hqs⟩ := ih.mp hrest
      have hclear : ¬ Overflows R line := by
        intro h
        obtain ⟨e, he⟩ := (addLine_raises_iff ps line).mpr h
        rw [he] at hline
        cases hline
      rw [addLine_ok hline] at hqs
      exact ⟨⟨hclear, hlines⟩, hqs⟩
    · rintro ⟨⟨hline, hlines⟩, hqs⟩
      exact ⟨_, addLine_eq hline ps, ih.mpr ⟨hlines, hqs⟩⟩

/-- Only the last station can be changed. -/
theorem addParsed_append (hne : qs ≠ []) (line : List Char) :
    addParsed R (ps ++ qs) line = ps ++ addParsed R qs line := by
  unfold addParsed
  cases stationOfLine R line with
  | some station => simp
  | none =>
    cases continuationOf R line with
    | none => rfl
    | some suffix =>
      have hlast : (ps ++ qs).getLast? = qs.getLast? := by
        rw [List.getLast?_append_of_ne_nil _ hne]
      simp only [continueName, hlast]
      cases hq : qs.getLast? with
      | none => exact absurd (List.getLast?_eq_none_iff.mp hq) hne
      | some last => simp [List.dropLast_append_of_ne_nil hne]

theorem addParsed_ne_nil (hne : qs ≠ []) (line : List Char) : addParsed R qs line ≠ [] := by
  unfold addParsed
  cases stationOfLine R line with
  | some station => simp
  | none =>
    cases continuationOf R line with
    | none => exact hne
    | some suffix =>
      unfold continueName
      cases hq : qs.getLast? with
      | none => exact hne
      | some last => simp

theorem foldl_append (hne : qs ≠ []) :
    lines.foldl (addParsed R) (ps ++ qs) = ps ++ lines.foldl (addParsed R) qs := by
  induction lines generalizing qs with
  | nil => rfl
  | cons line lines ih =>
    rw [List.foldl_cons, List.foldl_cons, addParsed_append hne, ih (addParsed_ne_nil hne line)]

theorem addParsed_row (h : IsRow R line) : ∃ station, stationOfLine R line = some station ∧
    ∀ ps, addParsed R ps line = ps ++ [station] := by
  obtain ⟨station, hstation⟩ := Option.isSome_iff_exists.mp h
  refine ⟨station, hstation, fun ps => ?_⟩
  simp only [addParsed, hstation]

theorem addParsed_notRow (h : ¬ IsRow R line) (ps : List StationMetadata) :
    addParsed R ps line =
      ((continuationOf R line).map fun suffix => continueName R suffix ps).getD ps := by
  have hnone : stationOfLine R line = none := by simpa [IsRow] using h
  simp only [addParsed, hnone]
  cases continuationOf R line <;> rfl

/-- From a row on, the stations before it do not matter. -/
theorem foldl_from_row (h : ∀ row ∈ lines.head?, IsRow R row) :
    lines.foldl (addParsed R) ps = ps ++ lines.foldl (addParsed R) [] := by
  cases lines with
  | nil => simp
  | cons row lines =>
    obtain ⟨station, -, hrow⟩ := addParsed_row (h row rfl)
    rw [List.foldl_cons, List.foldl_cons, hrow, hrow, List.nil_append,
      foldl_append (List.cons_ne_nil _ _)]

theorem length_continueName (suffix : List Char) :
    (continueName R suffix ps).length = ps.length := by
  unfold continueName
  cases hq : ps.getLast? with
  | none => rfl
  | some last =>
    have hne : ps ≠ [] := by
      rintro rfl
      cases hq
    have hpos := List.length_pos_iff.mpr hne
    simp only [List.length_append, List.length_dropLast, List.length_singleton]
    omega

theorem length_notRow (h : ¬ IsRow R line) : (addParsed R ps line).length = ps.length := by
  rw [addParsed_notRow h]
  cases continuationOf R line with
  | none => rfl
  | some suffix => exact length_continueName suffix

theorem length_foldl : (lines.foldl (addParsed R) ps).length =
    ps.length + lines.countP (IsRow R ·) := by
  induction lines generalizing ps with
  | nil => rfl
  | cons line lines ih =>
    rw [List.foldl_cons, ih]
    by_cases h : IsRow R line
    · obtain ⟨station, -, hrow⟩ := addParsed_row h
      rw [hrow, List.countP_cons_of_pos (by simpa using h), List.length_append,
        List.length_singleton]
      omega
    · rw [length_notRow h, List.countP_cons_of_neg (by simpa using h)]

end Lines

section Names

variable {R} {cs suffix line : List Char} {lines : List (List Char)} {ps : List StationMetadata}

theorem head_strip : ∀ c ∈ (strip R cs).head?, R.isSpace c = false := by
  intro c hc
  have hprefix : strip R cs <+: cs.dropWhile R.isSpace := by
    rw [strip, ← List.reverse_suffix, List.reverse_reverse]
    exact List.dropWhile_suffix _
  have hhead : c ∈ (cs.dropWhile R.isSpace).head? := by
    obtain ⟨rest, hrest⟩ := hprefix
    rw [← hrest, List.head?_append, Option.mem_def.mp hc]
    rfl
  have hnot := List.head?_dropWhile_not R.isSpace cs
  rw [Option.mem_def.mp hhead] at hnot
  exact hnot

theorem last_rstrip : ∀ c ∈ (rstrip R cs).getLast?, R.isSpace c = false := by
  intro c hc
  rw [rstrip, List.getLast?_reverse] at hc
  have hnot := List.head?_dropWhile_not R.isSpace cs.reverse
  rw [Option.mem_def.mp hc] at hnot
  exact hnot

theorem strip_ne_nil (hne : cs ≠ []) (hlast : ∀ c ∈ cs.getLast?, R.isSpace c = false) :
    strip R cs ≠ [] := by
  obtain ⟨front, c, rfl⟩ := (List.eq_nil_or_concat' cs).resolve_left hne
  have hc : R.isSpace c = false := hlast c (by simp)
  -- what is dropped in front stops before the last character
  have hdrop : (front ++ [c]).dropWhile R.isSpace = front.dropWhile R.isSpace ++ [c] := by
    rw [List.dropWhile_append]
    split_ifs with hempty
    · rw [List.isEmpty_iff.mp hempty, List.dropWhile_cons_of_neg (by simp [hc])]
      rfl
    · rfl
  rw [strip, hdrop, List.reverse_append, List.reverse_singleton, List.singleton_append,
    List.dropWhile_cons_of_neg (by simp [hc])]
  simp

theorem length_continued {name : List Char} (hname : ∀ c ∈ name.head?, R.isSpace c = false)
    (hne : suffix ≠ []) (hlast : ∀ c ∈ suffix.getLast?, R.isSpace c = false) :
    name.length < (strip R (name ++ suffix)).length := by
  cases name with
  | nil => exact List.length_pos_iff.mpr (strip_ne_nil hne hlast)
  | cons c name =>
    have hself : strip R (c :: name ++ suffix) = c :: name ++ suffix := by
      refine strip_self hname ?_
      rwa [List.getLast?_append_of_ne_nil _ hne]
    have hpos := List.length_pos_iff.mpr hne
    rw [hself, List.length_append]
    omega

def NamesTrimmed (R : FloatReader) (ps : List StationMetadata) : Prop :=
  ∀ s ∈ ps, ∀ c ∈ s.name.head?, R.isSpace c = false

theorem stationOfLine_eq_some {station : StationMetadata}
    (h : stationOfLine R line = some station) : ∃ found,
      (rowTailRe R).captures ((padded line).drop nameColumnWidth) = some found ∧
      stationOf R line found = .ok station := by
  unfold stationOfLine at h
  split_ifs at h
  obtain ⟨found, hfound, hstation⟩ := Option.bind_eq_some_iff.mp h
  refine ⟨found, hfound, ?_⟩
  cases hok : stationOf R line found with
  | error e =>
    rw [hok] at hstation
    cases hstation
  | ok s =>
    rw [hok] at hstation
    rw [Option.some.inj hstation]

theorem stationOf_texts {station : StationMetadata} {found : List (Group × List Char)}
    (h : stationOf R line found = .ok station) :
    station.name = strip R ((padded line).take nameColumnWidth) ∧
      station.province = strip R ((groupText found .province).getD []) := by
  simp only [stationOf, bind_eq_ok] at h
  obtain ⟨_, -, _, -, _, -, _, -, _, -, _, -, _, -, _, -, hs⟩ := h
  rw [← Except.ok.inj hs]
  exact ⟨rfl, rfl⟩

theorem name_of_row {station : StationMetadata} (h : stationOfLine R line = some station) :
    station.name = strip R ((padded line).take nameColumnWidth) := by
  obtain ⟨found, -, hstation⟩ := stationOfLine_eq_some h
  exact (stationOf_texts hstation).1

theorem namesTrimmed_addParsed (h : NamesTrimmed R ps) (line : List Char) :
    NamesTrimmed R (addParsed R ps line) := by
  by_cases hrow : IsRow R line
  · obtain ⟨station, hstation, happend⟩ := addParsed_row hrow
    rw [happend]
    intro s hs
    rcases List.mem_append.mp hs with hs | hs
    · exact h s hs
    · obtain rfl := List.mem_singleton.mp hs
      rw [name_of_row hstation]
      exact head_strip
  · rw [addParsed_notRow hrow]
    cases continuationOf R line with
    | none => exact h
    | some suffix =>
      simp only [Option.map_some, Option.getD_some, continueName]
      cases hlast : ps.getLast? with
      | none => exact h
      | some last =>
        intro s hs
        rcases List.mem_append.mp hs with hs | hs
        · exact h s (List.dropLast_subset ps hs)
        · obtain rfl := List.mem_singleton.mp hs
          exact head_strip

theorem namesTrimmed_foldl (h : NamesTrimmed R ps) (lines : List (List Char)) :
    NamesTrimmed R (lines.foldl (addParsed R) ps) := by
  induction lines generalizing ps with
  | nil => exact h
  | cons line lines ih => exact ih (namesTrimmed_addParsed h line)

def lastNameLength (ps : List StationMetadata) : Nat :=
  (ps.getLast?.map fun s => s.name.length).getD 0

theorem continuationOf_eq_some (h : continuationOf R line = some suffix) :
    suffix ≠ [] ∧ ∀ c ∈ suffix.getLast?, R.isSpace c = false := by
  simp only [continuationOf] at h
  split_ifs at h with hline
  obtain rfl := Option.some.inj h
  exact ⟨hline.2.2, last_rstrip⟩

theorem lastNameLength_addParsed (hnames : NamesTrimmed R ps) (hne : ps ≠ []) (h : ¬ IsRow R line) :
    lastNameLength ps ≤ lastNameLength (addParsed R ps line) ∧
      (IsContinuation R line → lastNameLength ps < lastNameLength (addParsed R ps line)) := by
  rw [addParsed_notRow h, IsContinuation]
  cases hsuffix : continuationOf R line with
  | none => simp
  | some suffix =>
    obtain ⟨hsuffixNe, hsuffixLast⟩ := continuationOf_eq_some hsuffix
    obtain ⟨front, last, rfl⟩ := (List.eq_nil_or_concat' ps).resolve_left hne
    have hgrow := length_continued (hnames last (by simp)) hsuffixNe hsuffixLast
    have hlt : lastNameLength (front ++ [last]) <
        lastNameLength (continueName R suffix (front ++ [last])) := by
      simpa [lastNameLength, continueName] using hgrow
    exact ⟨hlt.le, fun _ => hlt⟩

theorem lastNameLength_foldl (hnames : NamesTrimmed R ps) (hne : ps ≠ [])
    (hlines : ∀ line ∈ lines, ¬ IsRow R line) :
    lastNameLength ps ≤ lastNameLength (lines.foldl (addParsed R) ps) ∧
      ((∃ line ∈ lines, IsContinuation R line) →
        lastNameLength ps < lastNameLength (lines.foldl (addParsed R) ps)) := by
  induction lines generalizing ps with
  | nil => simp
  | cons line lines ih =>
    have hline := hlines line List.mem_cons_self
    obtain ⟨hle, hlt⟩ := lastNameLength_addParsed hnames hne hline
    obtain ⟨hle', hlt'⟩ := ih (namesTrimmed_addParsed hnames line) (addParsed_ne_nil hne line)
      fun l hl => hlines l (List.mem_cons_of_mem line hl)
    rw [List.foldl_cons]
    refine ⟨hle.trans hle', ?_⟩
    rintro ⟨l, hl, hcontinuation⟩
    rcases List.mem_cons.mp hl with rfl | hl
    · exact (hlt hcontinuation).trans_le hle'
    · exact hle.trans_lt (hlt' ⟨l, hl, hcontinuation⟩)

/-- Lines that are no rows change something only by continuing a name. -/
theorem foldl_notRows_eq_iff (hnames : NamesTrimmed R ps) (hlines : ∀ line ∈ lines, ¬ IsRow R line) :
    lines.foldl (addParsed R) ps = ps ↔ ps = [] ∨ ∀ line ∈ lines, ¬ IsContinuation R line := by
  constructor
  · intro hsame
    by_contra hnot
    push Not at hnot
    obtain ⟨hne, hcontinuation⟩ := hnot
    have hlt := (lastNameLength_foldl hnames hne hlines).2 hcontinuation
    rw [hsame] at hlt
    exact lt_irrefl _ hlt
  · intro h
    induction lines with
    | nil => rfl
    | cons line lines ih =>
      have hline : addParsed R ps line = ps := by
        rw [addParsed_notRow (hlines line List.mem_cons_self)]
        rcases h with rfl | h
        · cases continuationOf R line <;> rfl
        · have hnone : continuationOf R line = none := by
            simpa [IsContinuation] using h line List.mem_cons_self
          rw [hnone]
          rfl
      rw [List.foldl_cons, hline]
      exact ih (fun l hl => hlines l (List.mem_cons_of_mem line hl))
        (h.imp_right fun h l hl => h l (List.mem_cons_of_mem line hl))

end Names

end DataService.RegistryText
