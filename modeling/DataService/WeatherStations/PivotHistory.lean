import Mathlib.Data.List.Find
import DataService.WeatherStations.SeriesAgreement

/-! What the pivot of built snapshots shows of a station: its instants, each once and in order,
with the values of the first observation of the newest body that has it. -/

namespace DataService.Series

open DewPoint Doubles FloatText Ingest IsoDateTime JsonValue

variable {R : Readers} {formula : ℚ → ℚ → ℚ} {snapshots : List Ingest.Snapshot} {stationId : Int}
  {bodies : List (List (Observation StationRow))} {points : List (Point PointValues)} {i : Int}

/-- The instant of an observation, if its timestamp is readable. -/
def observedInstant (R : Readers) (obs : Observation StationRow) : Option Int :=
  obs.observedAt.bind fun t => (instantOf R t).toOption.join

/-- The first observation of a station at an instant, in the first body that has one. -/
def firstAt (R : Readers) (stationId i : Int) (bodies : List (List (Observation StationRow))) :
    Option (Observation StationRow) :=
  bodies.findSome? fun body =>
    body.find? fun obs => obs.stationId.value = stationId ∧ observedInstant R obs = some i

/-- What the history of a station should be, where the bodies come newest first. -/
structure Faithful (R : Readers) (formula : ℚ → ℚ → ℚ) (stationId : Int)
    (bodies : List (List (Observation StationRow))) (points : List (Point PointValues)) : Prop where
  increasing : ∃ instants : List Int, instants.Pairwise (· < ·) ∧
    points.map (fun p => instantOf R p.observedAt) = instants.map fun i => Except.ok (some i)
  instants : ∀ i, (∃ p ∈ points, instantOf R p.observedAt = .ok (some i)) ↔
    ∃ body ∈ bodies, ∃ obs ∈ body, obs.stationId.value = stationId ∧ observedInstant R obs = some i
  values : ∀ p ∈ points, ∀ i, instantOf R p.observedAt = .ok (some i) →
    ∃ obs, firstAt R stationId i bodies = some obs ∧
      pointValues R formula obs.measurements = .ok p.measurements

theorem observedInstant_eq_some {obs : Observation StationRow} : observedInstant R obs = some i ↔
    ∃ t, obs.observedAt = some t ∧ instantOf R t = .ok (some i) := by
  rw [observedInstant, Option.bind_eq_some_iff]
  refine exists_congr fun t => and_congr_right fun _ => ?_
  cases instantOf R t <;> simp [Except.toOption]

theorem firstAt_eq : firstAt R stationId i bodies =
    (allOf stationId bodies).find? fun obs => observedInstant R obs = some i := by
  rw [firstAt, allOf, List.find?_filter, List.find?_flatten]
  simp

theorem mem_allOf {obs : Observation StationRow} : obs ∈ allOf stationId bodies ↔
    ∃ body ∈ bodies, obs ∈ body ∧ obs.stationId.value = stationId := by
  simp [allOf]

/-- Where an instant has one text, the first observation at it is the first with its text. -/
theorem firstAt_of_text (hsep : Separate (quiet R formula) (allOf stationId bodies)) {t : String}
    {obs : Observation StationRow} (hi : instantOf R t = .ok (some i))
    (hobs : firstWith t (allOf stationId bodies) = some obs) :
    firstAt R stationId i bodies = some obs := by
  obtain ⟨hmem, ht⟩ := mem_of_firstWith hobs
  rw [firstAt_eq, ← hobs, firstWith]
  refine List.find?_congr fun obs' hobs' => ?_
  have hiff : observedInstant R obs' = some i ↔ obs'.observedAt = some t := by
    rw [observedInstant_eq_some]
    constructor
    · rintro ⟨t', ht', hi'⟩
      rw [ht', hsep obs hmem obs' hobs' t t' i ht ht' (quiet_parse.mpr hi) (quiet_parse.mpr hi')]
    · intro ht'
      exact ⟨t, ht', hi⟩
  simp [hiff]

theorem faithful_series (hsep : Separate (quiet R formula) (allOf stationId bodies))
    (hquiet : ¬ (builtCode R formula).Raises (allOf stationId bodies)) :
    Faithful R formula stationId bodies
      ((series (quiet R formula) (allOf stationId bodies)).map Prod.snd) := by
  refine ⟨?_, ?_, ?_⟩
  · refine ⟨(series (quiet R formula) (allOf stationId bodies)).map Prod.fst, ?_, ?_⟩
    · rw [List.pairwise_map]
      exact series_increasing hsep
    · rw [List.map_map, List.map_map]
      refine List.map_congr_left fun p hp => ?_
      exact quiet_parse.mp (mem_series.mp hp).1
  · intro i
    constructor
    · rintro ⟨p, hp, hi⟩
      obtain ⟨⟨j, q⟩, hq, rfl⟩ := List.mem_map.mp hp
      obtain ⟨-, obs, hobs, -⟩ := mem_series.mp hq
      obtain ⟨hmem, ht⟩ := mem_of_firstWith hobs
      obtain ⟨body, hbody, hin, hstation⟩ := mem_allOf.mp hmem
      exact ⟨body, hbody, obs, hin, hstation, observedInstant_eq_some.mpr ⟨_, ht, hi⟩⟩
    · rintro ⟨body, hbody, obs, hin, hstation, hobs⟩
      obtain ⟨t, ht, hi⟩ := observedInstant_eq_some.mp hobs
      have hmem := mem_allOf.mpr ⟨body, hbody, hin, hstation⟩
      have hfirst : firstWith t (allOf stationId bodies) ≠ none := by
        intro hnone
        exact List.find?_eq_none.mp hnone obs hmem (by simpa using ht)
      obtain ⟨first, hfirst⟩ := Option.ne_none_iff_exists'.mp hfirst
      refine ⟨observationToPoint (quiet R formula) t first, ?_, hi⟩
      exact List.mem_map.mpr ⟨(i, _), mem_series.mpr ⟨quiet_parse.mpr hi, first, hfirst, rfl⟩, rfl⟩
  · intro p hp i hi
    obtain ⟨⟨j, q⟩, hq, rfl⟩ := List.mem_map.mp hp
    obtain ⟨-, obs, hobs, hq'⟩ := mem_series.mp hq
    obtain ⟨values, hvalues⟩ := values_of_first hquiet hobs
    refine ⟨obs, firstAt_of_text hsep hi hobs, ?_⟩
    rw [hvalues, hq', quiet_point hvalues]

/-- The pivot of built snapshots is a faithful history of every station exactly if no station has
a timestamp whose first observation makes the dew point raise. -/
theorem pivot_faithful_iff (formula : ℚ → ℚ → ℚ) (h : ∀ snapshot ∈ snapshots, Built R snapshot) :
    (∃ d, (builtCode R formula).pivotStationSeries (bodiesOf snapshots) = .ok d ∧
      ∀ stationId, Faithful R formula stationId (bodiesOf snapshots)
        ((d.lookup stationId).getD [])) ↔
    ∀ stationId, ¬ FirstUnderflows (allOf stationId (bodiesOf snapshots)) := by
  obtain ⟨hpivot, hpivot'⟩ := pivotStationSeries_refines blank (readable_built formula h)
  simp only [← raises_iff R formula]
  by_cases hbad : (builtCode R formula).PivotRaises (bodiesOf snapshots)
  · obtain ⟨e, he⟩ := hpivot hbad
    rw [he]
    obtain ⟨stationId, hraises⟩ := hbad
    exact iff_of_false (by simp) fun hh => hh stationId hraises
  · have hquiet : ∀ stationId,
        ¬ (builtCode R formula).Raises (allOf stationId (bodiesOf snapshots)) :=
      fun stationId hraises => hbad ⟨stationId, hraises⟩
    refine iff_of_true ⟨_, hpivot' hbad, fun stationId => ?_⟩ hquiet
    rw [lookup_pivotStationSeries]
    apply faithful_series _ (hquiet stationId)
    exact separate_built h blank fun obs hobs => List.mem_of_mem_filter hobs

theorem pivot_faithful_plain : ∃ d,
    (builtCode asciiReaders fun _ _ => 0).pivotStationSeries (bodiesOf [plainSnapshot]) = .ok d ∧
      ∀ stationId, Faithful asciiReaders (fun _ _ => 0) stationId (bodiesOf [plainSnapshot])
        ((d.lookup stationId).getD []) :=
  (pivot_faithful_iff _ built_plain).mpr fun _ =>
    plain_no_underflow _ fun _ hobs => List.mem_of_mem_filter hobs

/-- Twenty degrees, and the smallest positive humidity there is. -/
def drySnapshot : Ingest.Snapshot :=
  ⟨"2026-01-01T13:05:00Z", "", [{ bareRow 7 "2026-01-01T12:00:00Z" with
    temperature := some (.number 20), humidity := some (.number (5 / 10 ^ 324)) }]⟩

theorem built_dry : ∀ snapshot ∈ [drySnapshot], Built asciiReaders snapshot := by
  rw [List.forall_mem_singleton]
  refine ⟨sampleScrape, "", [.obj [("station_id", .int 7), ("date", .str "2026-01-01T12:00:00Z"),
    ("temperature", .float (.number 20)), ("humidity", .float (.number (5 / 10 ^ 324)))]], rfl⟩

/-- One such reading and there is no series of any station. -/
theorem dry_reading_stops_pivot : ¬ ∀ (R : Readers) (formula : ℚ → ℚ → ℚ)
    (snapshots : List Ingest.Snapshot), (∀ snapshot ∈ snapshots, Built R snapshot) →
      ∃ d, (builtCode R formula).pivotStationSeries (bodiesOf snapshots) = .ok d ∧
        ∀ stationId, Faithful R formula stationId (bodiesOf snapshots)
          ((d.lookup stationId).getD []) := by
  intro h
  obtain ⟨d, hd, -⟩ := h asciiReaders (fun _ _ => 0) [drySnapshot] built_dry
  have hfinite : finiteDouble (.number 20) = some 20 := by decide +kernel
  obtain ⟨small, hsmall, hpos, hle, hzero⟩ : ∃ small,
      finiteDouble (.number (5 / 10 ^ 324)) = some small ∧ 0 < small ∧ small ≤ 100 ∧
        toDouble (small / 100) = 0 := by
    refine ⟨1 / 2 ^ 1074, ?_, ?_, ?_, ?_⟩ <;> decide +kernel
  have hunder : FirstUnderflows (allOf 7 (bodiesOf [drySnapshot])) := by
    refine ⟨"2026-01-01T12:00:00Z", _, rfl, _, _, rfl, rfl, 20, small, hfinite, hsmall, ?_, ?_, hpos,
      hle, hzero⟩
    · norm_num [tMin]
    · norm_num [tMax]
  have hraises : (builtCode asciiReaders fun _ _ => 0).PivotRaises (bodiesOf [drySnapshot]) :=
    ⟨7, (raises_iff _ _).mpr hunder⟩
  obtain ⟨e, he⟩ := (pivotStationSeries_refines blank (readable_built _ built_dry)).1 hraises
  rw [he] at hd
  cases hd

end DataService.Series
