import DataService.WeatherStations.RegistryLines

/-! A row of the registry that is damaged. It is skipped, but the lines that continued its name
then continue that of the station before it. -/

namespace DataService.RegistryText

open FloatText

variable (R : FloatReader)

/-- A line with text behind the name column that the row pattern does not recognize. -/
def Unrecognized (line : List Char) : Prop :=
  strip R ((padded line).drop nameColumnWidth) ≠ [] ∧
    (rowTailRe R).captures ((padded line).drop nameColumnWidth) = none

instance (line : List Char) : Decidable (Unrecognized R line) := inferInstanceAs (Decidable (_ ∧ _))

def beforeNextRow (lines : List (List Char)) : List (List Char) :=
  lines.takeWhile fun line => ¬ IsRow R line

variable {R} {content content' : List Char} {before rest : List (List Char)} {row bad : List Char}
  {ps stations : List StationMetadata}

theorem unrecognized_skipped (h : Unrecognized R bad) :
    ¬ Overflows R bad ∧ addParsed R ps bad = ps := by
  obtain ⟨htail, hfound⟩ := h
  constructor
  · rintro ⟨-, -, found, hsome, -⟩
    rw [hfound] at hsome
    cases hsome
  · simp [addParsed, stationOfLine, continuationOf, hfound, htail]

/-- The lines of a text without and with the damage, taken apart at the next row. -/
theorem foldl_around (rest : List (List Char)) (ps : List StationMetadata) (hrow : IsRow R row) :
    ∃ (station : StationMetadata) (later : List StationMetadata),
    (row :: rest).foldl (addParsed R) ps = ps ++ station :: later ∧
    rest.foldl (addParsed R) ps = (beforeNextRow R rest).foldl (addParsed R) ps ++ later := by
  obtain ⟨first, -, happend⟩ := addParsed_row hrow
  have hsplit : rest = beforeNextRow R rest ++ rest.dropWhile fun line => ¬ IsRow R line :=
    List.takeWhile_append_dropWhile.symm
  have hnext : ∀ line ∈ (rest.dropWhile fun line => ¬ IsRow R line).head?, IsRow R line := by
    intro line hline
    have hnot := List.head?_dropWhile_not (fun line => decide (¬ IsRow R line)) rest
    rw [Option.mem_def.mp hline] at hnot
    simpa using hnot
  -- the damaged row's own station, with all that continues it
  obtain ⟨station, hstation⟩ : ∃ station,
      (beforeNextRow R rest).foldl (addParsed R) [first] = [station] := by
    have hcount : (beforeNextRow R rest).countP (IsRow R ·) = 0 := by
      rw [List.countP_eq_zero]
      intro line hline
      simpa using List.mem_takeWhile_imp hline
    have hlength : ((beforeNextRow R rest).foldl (addParsed R) [first]).length = 1 := by
      rw [length_foldl, hcount]
      rfl
    exact List.length_eq_one_iff.mp hlength
  refine ⟨station, (rest.dropWhile fun line => ¬ IsRow R line).foldl (addParsed R) [], ?_, ?_⟩
  · rw [List.foldl_cons, happend, foldl_append (List.cons_ne_nil _ _)]
    conv_lhs => rw [hsplit]
    rw [List.foldl_append, hstation, foldl_from_row hnext]
    rfl
  · conv_lhs => rw [hsplit]
    rw [List.foldl_append, foldl_from_row hnext]

/-- A damaged row damages only itself exactly if no station stands before it, or nothing
continues a name before the next row. -/
theorem damage_contained_iff (hlines : dataLines content = before ++ row :: rest)
    (hlines' : dataLines content' = before ++ bad :: rest) (hrow : IsRow R row)
    (hbad : Unrecognized R bad) (hparse : parseEstacionesTxt R content = .ok stations) :
    parseEstacionesTxt R content' = .ok (stations.eraseIdx (before.countP (IsRow R ·))) ↔
      (∀ line ∈ before, ¬ IsRow R line) ∨
        ∀ line ∈ beforeNextRow R rest, ¬ IsContinuation R line := by
  rw [parseEstacionesTxt, hlines] at hparse
  obtain ⟨hclear, rfl⟩ := foldlM_eq_ok.mp hparse
  have hcount : (before.foldl (addParsed R) []).length = before.countP (IsRow R ·) := by
    rw [length_foldl, List.length_nil, Nat.zero_add]
  have hempty : before.foldl (addParsed R) [] = [] ↔ ∀ line ∈ before, ¬ IsRow R line := by
    rw [← List.length_eq_zero_iff, hcount, List.countP_eq_zero]
    simp
  have hnames : NamesTrimmed R (before.foldl (addParsed R) []) :=
    namesTrimmed_foldl (fun s hs => absurd hs List.not_mem_nil) before
  have hnotRows : ∀ line ∈ beforeNextRow R rest, ¬ IsRow R line := by
    intro line hline
    simpa using List.mem_takeWhile_imp hline
  obtain ⟨station, later, hwhole, hdamaged⟩ := foldl_around rest
    (before.foldl (addParsed R) []) hrow
  have hparse' : parseEstacionesTxt R content' = .ok
      ((beforeNextRow R rest).foldl (addParsed R) (before.foldl (addParsed R) []) ++ later) := by
    have hclear' : ∀ line ∈ before ++ bad :: rest, ¬ Overflows R line := by
      intro line hline
      rcases List.mem_append.mp hline with h | h
      · exact hclear line (List.mem_append_left _ h)
      · rcases List.mem_cons.mp h with rfl | h
        · exact (@unrecognized_skipped R _ [] hbad).1
        · exact hclear line (List.mem_append_right _ (List.mem_cons_of_mem _ h))
    rw [parseEstacionesTxt, hlines', foldlM_eq_ok]
    refine ⟨hclear', ?_⟩
    rw [List.foldl_append, List.foldl_cons, (unrecognized_skipped hbad).2, hdamaged]
  have herase : ((before ++ row :: rest).foldl (addParsed R) []).eraseIdx
      (before.countP (IsRow R ·)) = before.foldl (addParsed R) [] ++ later := by
    rw [List.foldl_append, hwhole, ← hcount, List.eraseIdx_append_of_length_le le_rfl, Nat.sub_self]
    rfl
  rw [hparse', herase, Except.ok.injEq, List.append_left_inj, foldl_notRows_eq_iff hnames hnotRows,
    hempty]

section Roque

def aeroparque : List Char :=
  padded "AEROPARQUE AERO".toList ++ "CAPITAL FEDERAL     -34 33 -58 25 6 87582 SABE".toList

def roque : List Char :=
  "PRESIDENCIA ROQUE SAENZ PENA A".toList ++ "CHACO     -26 44 -60 29 93 87148 SARS".toList

/-- The same row with an altitude that is no number. -/
def roqueDamaged : List Char :=
  "PRESIDENCIA ROQUE SAENZ PENA A".toList ++ "CHACO     -26 44 -60 29 ?? 87148 SARS".toList

def aeroparqueStation : StationMetadata :=
  ⟨87582, "AEROPARQUE AERO".toList, "CAPITAL FEDERAL".toList, -34 - 33 / 60, -58 - 25 / 60, 6,
    some "SABE".toList⟩

def roqueStation : StationMetadata :=
  ⟨87148, "PRESIDENCIA ROQUE SAENZ PENA AERO".toList, "CHACO".toList, -26 - 44 / 60, -60 - 29 / 60,
    93, some "SARS".toList⟩

def registry (rows : List (List Char)) : List Char :=
  List.intercalate ['\n'] ("NOMBRE".toList :: "[m]".toList :: rows)

theorem isRow_roque : IsRow .asciiOnly roque := by decide +kernel

theorem unrecognized_roqueDamaged : Unrecognized .asciiOnly roqueDamaged := by decide +kernel

/-- With nothing before it, the row of Roque takes only itself away. -/
theorem damage_contained_first :
    parseEstacionesTxt .asciiOnly (registry [roqueDamaged, "ERO".toList, aeroparque]) =
      .ok [aeroparqueStation] :=
  (@damage_contained_iff .asciiOnly (registry [roque, "ERO".toList, aeroparque])
    (registry [roqueDamaged, "ERO".toList, aeroparque]) [] ["ERO".toList, aeroparque] roque
    roqueDamaged [roqueStation, aeroparqueStation] (by decide +kernel) (by decide +kernel)
    isRow_roque unrecognized_roqueDamaged (by decide +kernel)).mpr (.inl (by simp))

/-- The row of Roque is damaged, and Aeroparque takes the end of its name. -/
theorem damage_spreads : ¬ ∀ (R : FloatReader) (content content' : List Char)
    (before rest : List (List Char)) (row bad : List Char) (stations : List StationMetadata),
    dataLines content = before ++ row :: rest → dataLines content' = before ++ bad :: rest →
    IsRow R row → Unrecognized R bad → parseEstacionesTxt R content = .ok stations →
    parseEstacionesTxt R content' = .ok (stations.eraseIdx (before.countP (IsRow R ·))) := by
  intro h
  have hdamaged := h .asciiOnly (registry [aeroparque, roque, "ERO".toList])
    (registry [aeroparque, roqueDamaged, "ERO".toList]) [aeroparque] ["ERO".toList] roque
    roqueDamaged [aeroparqueStation, roqueStation] (by decide +kernel) (by decide +kernel)
    isRow_roque unrecognized_roqueDamaged (by decide +kernel)
  have hnames : (parseEstacionesTxt .asciiOnly (registry [aeroparque, roqueDamaged,
      "ERO".toList])).map (·.map (·.name)) = .ok ["AEROPARQUE AEROERO".toList] := by
    decide +kernel
  rw [hdamaged] at hnames
  exact absurd hnames (by decide +kernel)

end Roque

end DataService.RegistryText
