import DataService.WeatherStations.DewPoint
import DataService.WeatherStations.Ingest
import DataService.WeatherStations.SeriesPivot

/-! The series of the snapshots that the scraper builds. Their timestamps are canonical: a text
that is no timestamp, or the one text that ingestion writes for an instant. -/

namespace DataService.Series

open DewPoint FloatText Ingest IsoDateTime JsonValue Raising

/-- The measurements of a point. -/
structure PointValues where
  temperature : Option Reading
  feelsLike : Option Reading
  humidity : Option Reading
  pressure : Option Reading
  visibility : Option Reading
  dewPoint : Option Reading
  condition : Json
  windSpeed : Option Reading
  windDeg : Option Reading
  windDirection : Option String

def textOf : Json → Option String
  | .str s => some s
  | _ => none

/-- A row of a snapshot, as the pivots see it. -/
def observationOfRow (row : StationRow) : Observation StationRow :=
  ⟨row.stationId, textOf row.observedAt, row⟩

variable (R : Readers) (formula : ℚ → ℚ → ℚ)

/-- `_observation_to_point`, less the timestamp -/
def pointValues (row : StationRow) : Except PyError PointValues := do
  let dewPoint ← magnusDewPoint R.floats formula (numberJson row.temperature)
    (numberJson row.humidity)
  let condition := get (fieldsOf row.weather) "description"
  match row.wind with
  | .passed _ => pure ⟨row.temperature, row.feelsLike, row.humidity, row.pressure, row.visibility,
      dewPoint, condition, none, none, none⟩
  | .reduced direction deg speed => pure ⟨row.temperature, row.feelsLike, row.humidity,
      row.pressure, row.visibility, dewPoint, condition, speed, deg, direction⟩

/-- The instant of a text, as a number that orders like it. -/
def instantOf (t : String) : Except PyError (Option Int) :=
  (parseObservedAt R (.str t)).map fun instant => instant.map fun i => (i.stamp : Int)

def builtCode : RaisingCode StationRow PointValues := ⟨instantOf R, pointValues R formula⟩

/-- The bodies that the pivots are given. -/
def bodiesOf (snapshots : List Ingest.Snapshot) : List (List (Observation StationRow)) :=
  snapshots.map fun snapshot => snapshot.stations.map observationOfRow

/-- A snapshot that `_build_snapshot` returns. -/
def Built (snapshot : Ingest.Snapshot) : Prop :=
  ∃ scrapedAt sourceUrl raw, buildSnapshot R scrapedAt sourceUrl raw = .ok snapshot

/-- No timestamp, or the text of an instant. -/
def Canonical (t : String) : Prop :=
  parseObservedAt R (.str t) = .ok none ∨
    ∃ i, t = zuluText i ∧ parseObservedAt R (.str t) = .ok (some i)

/-- A row whose dew point is the logarithm of zero. -/
def Underflows (row : StationRow) : Prop :=
  ∃ x y, row.temperature = some x ∧ row.humidity = some y ∧ Dry x y

variable {R formula} {row : StationRow} {rows : List StationRow} {snapshots : List Ingest.Snapshot}
  {stationId : Int} {t : String}

section Timestamps

theorem toList_zuluText (i : Instant) : (zuluText i).toList = isoStem i ++ ['Z'] := by
  rw [zuluText, String.toList_ofList, replaceText_isoformat]

theorem replaceChar_zuluText (i : Instant) :
    replaceChar 'Z' "+00:00".toList (zuluText i).toList = isoformat i := by
  have hstem : 'Z' ∉ isoStem i := notMem_isoStem (by decide) (by decide)
  rw [toList_zuluText, replaceChar_append, replaceChar_self hstem, isoformat, replaceChar_cons,
    if_pos rfl, replaceChar, List.flatMap_nil, List.append_nil]

theorem zuluText_ne_empty (i : Instant) : zuluText i ≠ "" := by
  intro h
  have hlist := toList_zuluText i
  rw [h] at hlist
  simp at hlist

theorem parseObservedAt_aware {u v : Instant} {offset : Int} (hne : t ≠ "")
    (hread : R.dates.fromisoformat (replaceChar 'Z' "+00:00".toList t.toList) =
      some (u, some offset)) (hminus : u.minus offset = some v) :
    parseObservedAt R (.str t) = .ok (some v) := by
  rw [parseObservedAt, if_neg hne, hread]
  simp only [hminus]

theorem parseObservedAt_zuluText (R : Readers) (i : Instant) :
    parseObservedAt R (.str (zuluText i)) = .ok (some i) := by
  refine parseObservedAt_aware (zuluText_ne_empty i) ?_ i.minus_zero
  rw [replaceChar_zuluText, R.dates.fromisoformat_isoformat]

theorem canonical_normalized {value : Json}
    (h : normalizeObservedAt R value = .ok (.str t)) : Canonical R t := by
  rw [normalizeObservedAt] at h
  cases hparse : parseObservedAt R value with
  | error e =>
    rw [hparse] at h
    cases h
  | ok parsed =>
    rw [hparse] at h
    cases parsed with
    | none =>
      have hvalue : value = .str t := Except.ok.inj h
      exact .inl (hvalue ▸ hparse)
    | some i =>
      obtain rfl : zuluText i = t := by simpa [Except.map] using h
      exact .inr ⟨i, rfl, parseObservedAt_zuluText R i⟩

theorem canonical_rows {raw : List Json} (h : buildRows R raw = .ok rows) (hrow : row ∈ rows)
    (ht : row.observedAt = .str t) : Canonical R t := by
  induction raw generalizing rows with
  | nil =>
    obtain rfl := Except.ok.inj h
    cases hrow
  | cons item items ih =>
    cases hid : stationIdOf item with
    | none =>
      rw [buildRows, hid] at h
      exact ih h hrow
    | some id =>
      simp only [buildRows, hid] at h
      obtain ⟨first, hfirst, h⟩ := bind_eq_ok.mp h
      obtain ⟨rest, hrest, h⟩ := bind_eq_ok.mp h
      obtain rfl := Except.ok.inj h
      rcases List.mem_cons.mp hrow with rfl | hrow
      · have hdate := (buildRow_eq_ok.mp hfirst).2.1
        rw [ht] at hdate
        exact canonical_normalized hdate
      · exact ih hrest hrow

theorem canonical_built (h : ∀ snapshot ∈ snapshots, Built R snapshot)
    {obs : Observation StationRow} (hobs : obs ∈ (bodiesOf snapshots).flatten)
    (ht : obs.observedAt = some t) : Canonical R t := by
  obtain ⟨body, hbody, hobs⟩ := List.mem_flatten.mp hobs
  obtain ⟨snapshot, hsnapshot, rfl⟩ := List.mem_map.mp hbody
  obtain ⟨row, hrow, rfl⟩ := List.mem_map.mp hobs
  obtain ⟨scrapedAt, sourceUrl, raw, hbuild⟩ := h snapshot hsnapshot
  have hrows : buildRows R raw = .ok snapshot.stations := by
    rw [buildSnapshot] at hbuild
    cases hraw : buildRows R raw with
    | error e =>
      rw [hraw] at hbuild
      cases hbuild
    | ok rows =>
      rw [hraw] at hbuild
      obtain rfl := Except.ok.inj hbuild
      rfl
  refine canonical_rows hrows hrow ?_
  rw [observationOfRow] at ht
  cases hjson : row.observedAt <;> simp_all [textOf]

theorem readable_built (formula : ℚ → ℚ → ℚ) (h : ∀ snapshot ∈ snapshots, Built R snapshot) :
    Readable (builtCode R formula) (bodiesOf snapshots).flatten := by
  intro obs hobs t ht
  rcases canonical_built h hobs ht with hparse | ⟨i, -, hparse⟩
  · exact ⟨none, by simp [builtCode, instantOf, hparse, Except.map]⟩
  · exact ⟨some i.stamp, by simp [builtCode, instantOf, hparse, Except.map]⟩

/-- Canonical texts of one instant are one text. -/
theorem canonical_unique {t' : String} {i : Int} (h : Canonical R t) (h' : Canonical R t')
    (hi : instantOf R t = .ok (some i)) (hi' : instantOf R t' = .ok (some i)) : t = t' := by
  rcases h with hparse | ⟨u, rfl, hparse⟩
  · simp [instantOf, hparse, Except.map] at hi
  · rcases h' with hparse' | ⟨u', rfl, hparse'⟩
    · simp [instantOf, hparse', Except.map] at hi'
    · simp only [instantOf, hparse, Except.map, Option.map_some, Except.ok.injEq,
        Option.some.injEq] at hi
      simp only [instantOf, hparse', Except.map, Option.map_some, Except.ok.injEq,
        Option.some.injEq] at hi'
      have hstamp : u.stamp = u'.stamp := by omega
      rw [Instant.stamp_injective hstamp]

theorem total_parse_eq_some {fallback : PointValues} {i : Int} :
    ((builtCode R formula).total fallback).parseObservedAt t = some i ↔
      instantOf R t = .ok (some i) := by
  simp only [RaisingCode.total, builtCode]
  cases instantOf R t with
  | error e => simp [Except.toOption]
  | ok instant => simp [Except.toOption]

theorem separate_built (h : ∀ snapshot ∈ snapshots, Built R snapshot) (fallback : PointValues)
    {l : List (Observation StationRow)} (hl : ∀ obs ∈ l, obs ∈ (bodiesOf snapshots).flatten) :
    Separate ((builtCode R formula).total fallback) l := by
  intro obs hobs obs' hobs' t t' i ht ht' hi hi'
  exact canonical_unique (canonical_built h (hl obs hobs) ht)
    (canonical_built h (hl obs' hobs') ht') (total_parse_eq_some.mp hi)
    (total_parse_eq_some.mp hi')

end Timestamps

section Exceptions

theorem magnusDewPoint_floats (R : Readers) (formula : ℚ → ℚ → ℚ) (x y : Reading) :
    magnusDewPoint R.floats formula (.float x) (.float y) = dewPointOf formula x y := rfl

/-- A row cannot be flattened exactly if the logarithm is taken of zero. -/
theorem pointValues_raises_iff {e : PyError} :
    pointValues R formula row = .error e ↔ e = .valueError ∧ Underflows row := by
  have hrest : pointValues R formula row = .error e ↔
      magnusDewPoint R.floats formula (numberJson row.temperature) (numberJson row.humidity) =
        .error e := by
    rw [pointValues, bind_eq_error]
    cases row.wind <;> simp [pure_ne_error]
  rw [hrest, Underflows]
  cases row.temperature with
  | none => simp [numberJson, magnusDewPoint]
  | some x =>
    cases row.humidity with
    | none => simp [numberJson, magnusDewPoint]
    | some y =>
      rw [numberJson, numberJson, magnusDewPoint_floats, dewPointOf_raises_iff]
      simp

/-- The first observation with some timestamp underflows. -/
def FirstUnderflows (l : List (Observation StationRow)) : Prop :=
  ∃ t obs, firstWith t l = some obs ∧ Underflows obs.measurements

theorem raises_iff (R : Readers) (formula : ℚ → ℚ → ℚ) {l : List (Observation StationRow)} :
    (builtCode R formula).Raises l ↔ FirstUnderflows l := by
  have hone : ∀ r, (∃ e, (builtCode R formula).flatten r = .error e) ↔ Underflows r := by
    intro r
    constructor
    · rintro ⟨e, he⟩
      exact (pointValues_raises_iff.mp he).2
    · intro h
      exact ⟨.valueError, pointValues_raises_iff.mpr ⟨rfl, h⟩⟩
  simp only [RaisingCode.Raises, FirstUnderflows, hone]

end Exceptions

end DataService.Series
