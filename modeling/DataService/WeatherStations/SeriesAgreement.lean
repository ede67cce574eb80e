import DataService.WeatherStations.BuiltSeries

/-! The two pivots over built snapshots. The pivot of all stations is a faithful history of each,
and the extraction for one station agrees with it where nothing stands behind the first
observation of a body; both as long as no dew point raises. -/

namespace DataService.Series

open DewPoint Ingest IsoDateTime JsonValue

variable {R : Readers} {formula : ℚ → ℚ → ℚ} {snapshots : List Ingest.Snapshot} {stationId : Int}
  {l l' : List (Observation StationRow)} {t : String} {i : Int}

/-- The values that the first observation with a timestamp has. -/
def firstValues (R : Readers) (formula : ℚ → ℚ → ℚ) (t : String)
    (l : List (Observation StationRow)) : Option (Except PyError PointValues) :=
  (firstWith t l).map fun obs => pointValues R formula obs.measurements

/-- For no readable timestamp do later observations in a body matter. -/
def NothingBehind (R : Readers) (formula : ℚ → ℚ → ℚ) (stationId : Int)
    (bodies : List (List (Observation StationRow))) : Prop :=
  ∀ t i, instantOf R t = .ok (some i) → firstValues R formula t (allOf stationId bodies) =
    firstValues R formula t (firstOfEach stationId bodies)

/-- The pivot returns, and has what is extracted for the station. -/
def Agree (R : Readers) (formula : ℚ → ℚ → ℚ) (stationId : Int)
    (bodies : List (List (Observation StationRow))) : Prop :=
  ∃ d, (builtCode R formula).pivotStationSeries bodies = .ok d ∧
    (builtCode R formula).extractStationSeries bodies stationId = .ok ((d.lookup stationId).getD [])

/-- The values of a point whose measurements could not be flattened; no series has it. -/
def blank : PointValues :=
  ⟨none, none, none, none, none, none, .null, none, none, none⟩

instance : Inhabited PointValues := ⟨blank⟩

/-- The code without its exceptions. -/
abbrev quiet (R : Readers) (formula : ℚ → ℚ → ℚ) : PointCode StationRow PointValues :=
  (builtCode R formula).total blank

theorem quiet_parse : (quiet R formula).parseObservedAt t = some i ↔
    instantOf R t = .ok (some i) := total_parse_eq_some

theorem quiet_point {obs : Observation StationRow} {values : PointValues}
    (h : pointValues R formula obs.measurements = .ok values) :
    observationToPoint (quiet R formula) t obs = ⟨t, values⟩ := by
  simp [observationToPoint, quiet, RaisingCode.total, builtCode, h, Except.toOption]

theorem values_of_first (hquiet : ¬ (builtCode R formula).Raises l) {obs : Observation StationRow}
    (hobs : firstWith t l = some obs) :
    ∃ values, pointValues R formula obs.measurements = .ok values := by
  cases hvalues : pointValues R formula obs.measurements with
  | error e => exact absurd ⟨t, obs, hobs, e, hvalues⟩ hquiet
  | ok values => exact ⟨values, rfl⟩

theorem point_eq_iff (h : ¬ (builtCode R formula).Raises l) (h' : ¬ (builtCode R formula).Raises l') :
    (firstWith t l).map (observationToPoint (quiet R formula) t) =
      (firstWith t l').map (observationToPoint (quiet R formula) t) ↔
    firstValues R formula t l = firstValues R formula t l' := by
  rw [firstValues, firstValues]
  cases hobs : firstWith t l with
  | none => cases hobs' : firstWith t l' <;> simp
  | some obs =>
    obtain ⟨values, hvalues⟩ := values_of_first h hobs
    cases hobs' : firstWith t l' with
    | none => simp
    | some obs' =>
      obtain ⟨values', hvalues'⟩ := values_of_first h' hobs'
      simp [quiet_point hvalues, quiet_point hvalues', hvalues, hvalues']

/-- Where all snapshots are built, the two pivots agree on a station exactly if no dew point
raises and nothing stands behind the station's first observation of a body. -/
theorem pivots_agree_iff (h : ∀ snapshot ∈ snapshots, Built R snapshot) (stationId : Int) :
    Agree R formula stationId (bodiesOf snapshots) ↔
      (∀ other, ¬ FirstUnderflows (allOf other (bodiesOf snapshots))) ∧
      ¬ FirstUnderflows (firstOfEach stationId (bodiesOf snapshots)) ∧
      NothingBehind R formula stationId (bodiesOf snapshots) := by
  have hread := readable_built formula h
  obtain ⟨hpivot, hpivot'⟩ := pivotStationSeries_refines blank hread
  obtain ⟨hextract, hextract'⟩ := extractStationSeries_refines blank hread stationId
  have hsep : Separate (quiet R formula) (allOf stationId (bodiesOf snapshots)) :=
    separate_built h blank fun obs hobs => List.mem_of_mem_filter hobs
  have hsep' : Separate (quiet R formula) (firstOfEach stationId (bodiesOf snapshots)) :=
    separate_built h blank fun obs hobs => List.mem_of_mem_filter (mem_firstOfEach hobs)
  have hraises : (builtCode R formula).PivotRaises (bodiesOf snapshots) ↔
      ¬ ∀ other, ¬ FirstUnderflows (allOf other (bodiesOf snapshots)) := by
    simp only [RaisingCode.PivotRaises, raises_iff, not_forall, not_not]
  rw [← raises_iff R formula, Agree]
  by_cases hbad : (builtCode R formula).PivotRaises (bodiesOf snapshots)
  · obtain ⟨e, he⟩ := hpivot hbad
    rw [he]
    exact iff_of_false (by simp) fun hh => hraises.mp hbad hh.1
  · have hgood := not_not.mp (mt hraises.mpr hbad)
    by_cases hbad' : (builtCode R formula).Raises (firstOfEach stationId (bodiesOf snapshots))
    · obtain ⟨e, he⟩ := hextract hbad'
      rw [he]
      exact iff_of_false (by simp) fun hh => hh.2.1 hbad'
    · have hall : ¬ (builtCode R formula).Raises (allOf stationId (bodiesOf snapshots)) :=
        fun hr => hbad ⟨stationId, hr⟩
      have hsame : extractStationSeries (quiet R formula) (bodiesOf snapshots) stationId =
          ((pivotStationSeries (quiet R formula) (bodiesOf snapshots)).lookup stationId).getD [] ↔
            NothingBehind R formula stationId (bodiesOf snapshots) := by
        rw [extractStationSeries_eq_series, lookup_pivotStationSeries, eq_comm,
          series_eq_iff hsep hsep', NothingBehind]
        refine forall_congr' fun t => ?_
        rw [point_eq_iff hall hbad', Option.ne_none_iff_exists']
        simp only [quiet_parse, forall_exists_index]
      rw [hextract' hbad', hpivot' hbad, ← hsame]
      simp [hgood, hbad']

section Samples

/-- A row with nothing but an id and a time. -/
def bareRow (stationId : Int) (observedAt : String) : StationRow :=
  ⟨.int stationId, .str observedAt, none, none, none, none, none, .null, .passed .null⟩

def bareItem (stationId : Int) (date : String) : Json :=
  .obj [("station_id", .int stationId), ("date", .str date)]

def sampleScrape : Instant := ⟨⟨2026, 1, 1, 13, 5, 0, by decide⟩, 0, Instant.zero_micro_lt⟩

/-- Two stations, one reading each. -/
def plainSnapshot : Ingest.Snapshot :=
  ⟨"2026-01-01T13:05:00Z", "", [bareRow 7 "2026-01-01T12:00:00Z", bareRow 8 "2026-01-01T12:00:00Z"]⟩

/-- One station with two readings. -/
def repeatedSnapshot : Ingest.Snapshot :=
  ⟨"2026-01-01T13:05:00Z", "", [bareRow 7 "2026-01-01T12:00:00Z", bareRow 7 "2026-01-01T13:00:00Z"]⟩

theorem built_plain : ∀ snapshot ∈ [plainSnapshot], Built asciiReaders snapshot := by
  rw [List.forall_mem_singleton]
  exact ⟨sampleScrape, "",
    [bareItem 7 "2026-01-01T12:00:00Z", bareItem 8 "2026-01-01T12:00:00Z"], rfl⟩

theorem built_repeated : ∀ snapshot ∈ [repeatedSnapshot], Built asciiReaders snapshot := by
  rw [List.forall_mem_singleton]
  exact ⟨sampleScrape, "",
    [bareItem 7 "2026-01-01T12:00:00Z", bareItem 7 "2026-01-01T13:00:00Z"], rfl⟩

theorem plain_no_underflow (l : List (Observation StationRow))
    (hl : ∀ obs ∈ l, obs ∈ (bodiesOf [plainSnapshot]).flatten) : ¬ FirstUnderflows l := by
  rintro ⟨t, obs, hobs, x, y, hx, -⟩
  have hmem := hl obs (mem_of_firstWith hobs).1
  have hbare : obs.measurements.temperature = none := by
    rcases List.mem_cons.mp hmem with rfl | hmem
    · rfl
    · rcases List.mem_singleton.mp hmem with rfl
      rfl
  rw [hbare] at hx
  cases hx

end Samples

theorem pivots_agree_plain :
    Agree asciiReaders (fun _ _ => 0) 7 (bodiesOf [plainSnapshot]) := by
  refine (pivots_agree_iff built_plain 7).mpr ⟨fun other => ?_, ?_, fun t i _ => rfl⟩
  · exact plain_no_underflow _ fun obs hobs => List.mem_of_mem_filter hobs
  · exact plain_no_underflow _ fun obs hobs => List.mem_of_mem_filter (mem_firstOfEach hobs)

/-- The second reading of a body is lost in one pivot and not in the other. -/
theorem repeated_station_disagrees : ¬ ∀ (R : Readers) (formula : ℚ → ℚ → ℚ)
    (snapshots : List Ingest.Snapshot) (stationId : Int), (∀ snapshot ∈ snapshots, Built R snapshot) →
      Agree R formula stationId (bodiesOf snapshots) := by
  intro h
  obtain ⟨d, hd, hextract⟩ := h asciiReaders (fun _ _ => 0) [repeatedSnapshot] 7 built_repeated
  have hone : ((builtCode asciiReaders fun _ _ => 0).extractStationSeries
      (bodiesOf [repeatedSnapshot]) 7).map List.length = .ok 1 := rfl
  have htwo : ((builtCode asciiReaders fun _ _ => 0).pivotStationSeries
      (bodiesOf [repeatedSnapshot])).map (fun d => ((d.lookup 7).getD []).length) = .ok 2 := rfl
  rw [hextract] at hone
  rw [hd] at htwo
  have hlength : ((d.lookup 7).getD []).length = 1 := Except.ok.inj hone
  have hlength' : ((d.lookup 7).getD []).length = 2 := Except.ok.inj htwo
  omega

end DataService.Series
