import DataService.Lib.Raising
import DataService.WeatherStations.Measurements
import DataService.WeatherStations.SeriesReadings

/-! The two pivots with the exceptions of their conversions. A series raises exactly if the first
observation with one of its timestamps cannot be flattened. -/

namespace DataService.Series

open OrderedDict Raising

/-- How timestamps are read and measurements flattened, where both may raise. -/
structure RaisingCode (ρ π : Type) where
  parseObservedAt : String → Except PyError (Option Int)
  flatten : ρ → Except PyError π

variable {ρ π : Type}

namespace RaisingCode

variable (code : RaisingCode ρ π)

/-- The same without exceptions. -/
def total (fallback : π) : PointCode ρ π where
  parseObservedAt t := (code.parseObservedAt t).toOption.join
  flatten r := (code.flatten r).toOption.getD fallback

/-- One observation of `by_observed_at` -/
def keep (byObservedAt : List (String × Point π)) (obs : Observation ρ) :
    Except PyError (List (String × Point π)) :=
  match obs.observedAt with
  | some observedAt =>
    if observedAt ∈ byObservedAt.map Prod.fst then pure byObservedAt
    else do
      let measurements ← code.flatten obs.measurements
      pure (byObservedAt ++ [(observedAt, ⟨observedAt, measurements⟩)])
  | none => pure byObservedAt

/-- `_sorted_points` -/
def sortedPoints (byObservedAt : List (String × Point π)) : Except PyError (List (Point π)) := do
  let parsed ← byObservedAt.mapM fun p => do
    let instant ← code.parseObservedAt p.1
    pure (instant.map fun i => (i, p.2))
  pure ((parsed.reduceOption.insertionSort fun a b => a.1 ≤ b.1).map Prod.snd)

/-- `extract_station_series` -/
def extractStationSeries (bodies : List (List (Observation ρ))) (stationId : Int) :
    Except PyError (List (Point π)) := do
  let byObservedAt ← bodies.foldlM (fun byObservedAt body =>
    match observationOf stationId body with
    | some obs => code.keep byObservedAt obs
    | none => pure byObservedAt) []
  code.sortedPoints byObservedAt

/-- One observation of `per_station` -/
def pivotObservation (perStation : List (Int × List (String × Point π))) (obs : Observation ρ) :
    Except PyError (List (Int × List (String × Point π))) :=
  match obs.observedAt with
  | some _ => do
    let bucket ← code.keep ((perStation.lookup obs.stationId.value).getD []) obs
    pure (upsert obs.stationId.value (fun _ => bucket) perStation)
  | none => pure perStation

/-- `pivot_station_series` -/
def pivotStationSeries (bodies : List (List (Observation ρ))) :
    Except PyError (List (Int × List (Point π))) := do
  let perStation ← bodies.foldlM (fun perStation body =>
    body.foldlM code.pivotObservation perStation) []
  perStation.mapM fun p => (code.sortedPoints p.2).map fun points => (p.1, points)

/-- The first observation with some timestamp cannot be flattened. -/
def Raises (l : List (Observation ρ)) : Prop :=
  ∃ t obs, firstWith t l = some obs ∧ ∃ e, code.flatten obs.measurements = .error e

/-- Some station has such an observation. -/
def PivotRaises (bodies : List (List (Observation ρ))) : Prop :=
  ∃ stationId, code.Raises (allOf stationId bodies)

end RaisingCode

variable {code : RaisingCode ρ π} {fallback : π} {obs : Observation ρ} {l : List (Observation ρ)}
  {d : List (String × Point π)} {stationId : Int} {bodies : List (List (Observation ρ))}

theorem raises_append_singleton : code.Raises (l ++ [obs]) ↔ code.Raises l ∨
    ∃ t, obs.observedAt = some t ∧ firstWith t l = none ∧
      ∃ e, code.flatten obs.measurements = .error e := by
  constructor
  · rintro ⟨t, first, hfirst, hraise⟩
    rw [firstWith_append_singleton] at hfirst
    cases hold : firstWith t l with
    | some first' =>
      rw [hold, Option.some_or] at hfirst
      obtain rfl := Option.some.inj hfirst
      exact .inl ⟨t, first', hold, hraise⟩
    | none =>
      rw [hold, Option.none_or] at hfirst
      split at hfirst
      · rename_i hobs
        obtain rfl := Option.some.inj hfirst
        exact .inr ⟨t, hobs, hold, hraise⟩
      · cases hfirst
  · rintro (⟨t, first, hfirst, hraise⟩ | ⟨t, hobs, hnone, hraise⟩)
    · exact ⟨t, first, by rw [firstWith_append_singleton, hfirst, Option.some_or], hraise⟩
    · refine ⟨t, obs, ?_, hraise⟩
      rw [firstWith_append_singleton, hnone, Option.none_or, if_pos hobs]

/-- One more observation of a station. -/
theorem keep_readings (fallback : π) (obs : Observation ρ) (l : List (Observation ρ)) :
    (code.Raises (l ++ [obs]) ∧ ¬ code.Raises l ∧
      ∃ e, code.keep (readings (code.total fallback) l) obs = .error e) ∨
    (code.Raises l ∧ code.Raises (l ++ [obs])) ∨
    (¬ code.Raises (l ++ [obs]) ∧ code.keep (readings (code.total fallback) l) obs =
      .ok (readings (code.total fallback) (l ++ [obs]))) := by
  by_cases hl : code.Raises l
  · exact .inr (.inl ⟨hl, raises_append_singleton.mpr (.inl hl)⟩)
  · rw [readings_append_singleton, raises_append_singleton, RaisingCode.keep, addReading]
    cases hobs : obs.observedAt with
    | none => exact .inr (.inr ⟨by simp [hl], rfl⟩)
    | some t =>
      by_cases hkey : t ∈ (readings (code.total fallback) l).map Prod.fst
      · have hold := mem_keys_readings.mp hkey
        exact .inr (.inr ⟨by simp [hl, hold], by simp [hkey, setDefault, pure, Except.pure]⟩)
      · have hnew : firstWith t l = none := by
          by_contra hne
          exact hkey (mem_keys_readings.mpr hne)
        cases hflatten : code.flatten obs.measurements with
        | error e =>
          exact .inl ⟨.inr ⟨t, rfl, hnew, e, rfl⟩, hl, e, by simp [hkey, bind, Except.bind]⟩
        | ok measurements =>
          have htotal : (code.total fallback).flatten obs.measurements = measurements := by
            simp [RaisingCode.total, hflatten, Except.toOption]
          refine .inr (.inr ⟨by simp [hl], ?_⟩)
          simp only [setDefault, if_neg hkey, observationToPoint, htotal]
          rfl

theorem foldlM_keep (fallback : π) (l : List (Observation ρ)) :
    (code.Raises l → ∃ e, l.foldlM code.keep [] = .error e) ∧
    (¬ code.Raises l → l.foldlM code.keep [] = .ok (readings (code.total fallback) l)) := by
  induction l using List.reverseRecOn with
  | nil =>
    refine ⟨?_, fun _ => rfl⟩
    rintro ⟨t, obs, hfirst, -⟩
    cases hfirst
  | append_singleton l obs ih =>
    have hsplit : (l ++ [obs]).foldlM code.keep [] =
        l.foldlM code.keep [] >>= fun byObservedAt => code.keep byObservedAt obs := by
      simp
    rw [hsplit]
    rcases keep_readings fallback obs l with
      ⟨hraises, hl, hkeep⟩ | ⟨hl, hraises⟩ | ⟨hraises, hkeep⟩
    · rw [ih.2 hl]
      exact ⟨fun _ => hkeep, fun hno => absurd hraises hno⟩
    · obtain ⟨e, he⟩ := ih.1 hl
      rw [he]
      exact ⟨fun _ => ⟨e, rfl⟩, fun hno => absurd hraises hno⟩
    · rw [ih.2 fun hl => hraises (raises_append_singleton.mpr (.inl hl))]
      exact ⟨fun hyes => absurd hyes hraises, fun _ => hkeep⟩

theorem filter_append_singleton : (l ++ [obs]).filter (fun o => o.stationId.value = stationId) =
    if obs.stationId.value = stationId then
      l.filter (fun o => o.stationId.value = stationId) ++ [obs]
    else l.filter fun o => o.stationId.value = stationId := by
  rw [List.filter_append]
  by_cases hs : obs.stationId.value = stationId <;> simp [hs]

theorem foldlM_pivotObservation (fallback : π) (l : List (Observation ρ)) :
    ((∃ stationId, code.Raises (l.filter fun o => o.stationId.value = stationId)) →
      ∃ e, l.foldlM code.pivotObservation [] = .error e) ∧
    (¬ (∃ stationId, code.Raises (l.filter fun o => o.stationId.value = stationId)) →
      l.foldlM code.pivotObservation [] =
        .ok (l.foldl (pivotObservation (code.total fallback)) [])) := by
  induction l using List.reverseRecOn with
  | nil =>
    refine ⟨?_, fun _ => rfl⟩
    rintro ⟨stationId, t, obs, hfirst, -⟩
    cases hfirst
  | append_singleton l obs ih =>
    have hsplit : (l ++ [obs]).foldlM code.pivotObservation [] =
        l.foldlM code.pivotObservation [] >>= fun perStation =>
          code.pivotObservation perStation obs := by
      simp
    rw [hsplit]
    by_cases hbefore : ∃ stationId, code.Raises (l.filter fun o => o.stationId.value = stationId)
    · obtain ⟨e, he⟩ := ih.1 hbefore
      rw [he]
      refine ⟨fun _ => ⟨e, rfl⟩, fun hno => absurd ?_ hno⟩
      obtain ⟨stationId, hraises⟩ := hbefore
      refine ⟨stationId, ?_⟩
      rw [filter_append_singleton]
      split
      · exact raises_append_singleton.mpr (.inl hraises)
      · exact hraises
    · have hown := fun hraises => hbefore ⟨obs.stationId.value, hraises⟩
      have hlater : (∃ stationId, code.Raises
          ((l ++ [obs]).filter fun o => o.stationId.value = stationId)) ↔
          code.Raises ((l.filter fun o => o.stationId.value = obs.stationId.value) ++ [obs]) := by
        constructor
        · rintro ⟨stationId, hraises⟩
          rw [filter_append_singleton] at hraises
          split at hraises
          · rename_i hs
            rw [hs]
            exact hraises
          · exact absurd ⟨stationId, hraises⟩ hbefore
        · intro hraises
          refine ⟨obs.stationId.value, ?_⟩
          rw [filter_append_singleton, if_pos rfl]
          exact hraises
      rw [ih.2 hbefore, hlater, List.foldl_append, List.foldl_cons, List.foldl_nil]
      have hgathered := gathered_foldl (code.total fallback) obs.stationId.value l
      rw [gathered] at hgathered
      simp only [Except.bind, bind, RaisingCode.pivotObservation, pivotObservation]
      cases hobs : obs.observedAt with
      | none =>
        have hquiet : ¬ code.Raises
            ((l.filter fun o => o.stationId.value = obs.stationId.value) ++ [obs]) := by
          rw [raises_append_singleton]
          rintro (h | ⟨t, ht, -⟩)
          · exact hown h
          · rw [hobs] at ht
            cases ht
        exact ⟨fun hyes => absurd hyes hquiet, fun _ => rfl⟩
      | some t =>
        simp only [upsert_eq_const (fun bucket => addReading (code.total fallback) obs
          (bucket.getD [])), hgathered]
        rcases keep_readings fallback obs
          (l.filter fun o => o.stationId.value = obs.stationId.value) with
          ⟨hraises, -, e, hkeep⟩ | ⟨hl, -⟩ | ⟨hraises, hkeep⟩
        · rw [hkeep]
          exact ⟨fun _ => ⟨e, rfl⟩, fun hno => absurd hraises hno⟩
        · exact absurd hl hown
        · rw [hkeep, readings_append_singleton]
          exact ⟨fun hyes => absurd hyes hraises, fun _ => rfl⟩

section Whole

/-- The timestamps of the observations are read without an exception. -/
def Readable (code : RaisingCode ρ π) (l : List (Observation ρ)) : Prop :=
  ∀ obs ∈ l, ∀ t, obs.observedAt = some t → ∃ instant, code.parseObservedAt t = .ok instant

theorem sortedPoints_ok (hread : ∀ p ∈ d, ∃ instant, code.parseObservedAt p.1 = .ok instant) :
    code.sortedPoints d = .ok (sortedPoints (code.total fallback) d) := by
  have hparsed : d.mapM (fun p => do
      let instant ← code.parseObservedAt p.1
      pure (instant.map fun i => (i, p.2))) = .ok (d.map fun p =>
        ((code.total fallback).parseObservedAt p.1).map fun i => (i, p.2)) := by
    apply mapM_ok
    intro p hp
    obtain ⟨instant, hinstant⟩ := hread p hp
    cases instant <;> simp [RaisingCode.total, hinstant, Except.toOption]
  have hreduce : (d.map fun p =>
      ((code.total fallback).parseObservedAt p.1).map fun i => (i, p.2)).reduceOption =
        d.filterMap fun p =>
          ((code.total fallback).parseObservedAt p.1).map fun i => (i, p.2) :=
    List.filterMap_map
  rw [RaisingCode.sortedPoints, hparsed, sortedPoints, ← hreduce]
  rfl

theorem sortedPoints_readings_ok (hread : Readable code l) :
    code.sortedPoints (readings (code.total fallback) l) =
      .ok ((series (code.total fallback) l).map Prod.snd) := by
  rw [← sortedPoints_readings]
  apply sortedPoints_ok
  intro p hp
  have hne := mem_keys_readings.mp (List.mem_map_of_mem hp)
  obtain ⟨obs, hobs⟩ := Option.ne_none_iff_exists'.mp hne
  obtain ⟨hmem, ht⟩ := mem_of_firstWith hobs
  exact hread obs hmem p.1 ht

theorem mem_firstOfEach (h : obs ∈ firstOfEach stationId bodies) :
    obs ∈ allOf stationId bodies := by
  obtain ⟨body, hbody, hobs⟩ := List.mem_filterMap.mp h
  have hstation := List.find?_some hobs
  exact List.mem_filter.mpr
    ⟨List.mem_flatten.mpr ⟨body, hbody, List.mem_of_find?_eq_some hobs⟩, hstation⟩

theorem extractStationSeries_eq : code.extractStationSeries bodies stationId =
    (firstOfEach stationId bodies).foldlM code.keep [] >>= code.sortedPoints := by
  rw [RaisingCode.extractStationSeries, firstOfEach, List.foldlM_filterMap]
  congr 1
  congr 1
  funext byObservedAt body
  cases observationOf stationId body <;> rfl

theorem pivotStationSeries_eq : code.pivotStationSeries bodies =
    bodies.flatten.foldlM code.pivotObservation [] >>= fun perStation =>
      perStation.mapM fun p => (code.sortedPoints p.2).map fun points => (p.1, points) := by
  rw [RaisingCode.pivotStationSeries, foldlM_flatten]

/-- What is extracted for one station: an exception, or what the code without them extracts. -/
theorem extractStationSeries_refines (fallback : π) (hread : Readable code bodies.flatten)
    (stationId : Int) :
    (code.Raises (firstOfEach stationId bodies) →
      ∃ e, code.extractStationSeries bodies stationId = .error e) ∧
    (¬ code.Raises (firstOfEach stationId bodies) → code.extractStationSeries bodies stationId =
      .ok (extractStationSeries (code.total fallback) bodies stationId)) := by
  obtain ⟨hraises, hquiet⟩ := foldlM_keep fallback (firstOfEach stationId bodies)
  rw [extractStationSeries_eq]
  constructor
  · intro h
    obtain ⟨e, he⟩ := hraises h
    exact ⟨e, by rw [he]; rfl⟩
  · intro h
    rw [hquiet h, extractStationSeries_eq_series]
    apply sortedPoints_readings_ok
    intro obs hobs
    exact hread obs (List.mem_of_mem_filter (mem_firstOfEach hobs))

/-- The pivot of all stations: an exception, or the pivot without them. -/
theorem pivotStationSeries_refines (fallback : π) (hread : Readable code bodies.flatten) :
    (code.PivotRaises bodies → ∃ e, code.pivotStationSeries bodies = .error e) ∧
    (¬ code.PivotRaises bodies →
      code.pivotStationSeries bodies = .ok (pivotStationSeries (code.total fallback) bodies)) := by
  obtain ⟨hraises, hquiet⟩ := foldlM_pivotObservation fallback bodies.flatten
  rw [pivotStationSeries_eq]
  constructor
  · intro h
    obtain ⟨e, he⟩ := hraises h
    exact ⟨e, by rw [he]; rfl⟩
  · intro h
    rw [hquiet h, ← pivotReadings_eq, pivotStationSeries]
    apply mapM_ok
    intro p hp
    have hlookup := lookup_of_mem (nodup_keys_pivot bodies) hp
    have hreadings : p.2 = readings (code.total fallback) (allOf p.1 bodies) := by
      rw [← gathered_pivot, gathered, hlookup]
      rfl
    have hown : Readable code (allOf p.1 bodies) := fun obs hobs =>
      hread obs (List.mem_of_mem_filter hobs)
    rw [hreadings, sortedPoints_readings_ok hown, sortedPoints_readings]
    rfl

theorem readable_of_sortedPoints {points : List (Point π)}
    (h : code.sortedPoints (readings (code.total fallback) l) = .ok points) : Readable code l := by
  intro obs hobs t ht
  obtain ⟨parsed, hparsed, -⟩ := bind_eq_ok.mp h
  have hkey : t ∈ (readings (code.total fallback) l).map Prod.fst := by
    refine mem_keys_readings.mpr fun hnone => ?_
    exact List.find?_eq_none.mp hnone obs hobs (by simpa using ht)
  obtain ⟨p, hp, rfl⟩ := List.mem_map.mp hkey
  cases hinstant : code.parseObservedAt p.1 with
  | ok instant => exact ⟨instant, rfl⟩
  | error e =>
    have hquiet := mt mapM_raises_iff.mpr fun ⟨e', he'⟩ => absurd (hparsed.symm.trans he') (by simp)
    exact absurd ⟨p, hp, e, by rw [hinstant]; rfl⟩ hquiet

/-- A series is extracted exactly if nothing of the station's first readings raises. -/
theorem extractStationSeries_eq_ok (fallback : π) {points : List (Point π)} :
    code.extractStationSeries bodies stationId = .ok points ↔
      (¬ code.Raises (firstOfEach stationId bodies) ∧
        Readable code (firstOfEach stationId bodies)) ∧
      points = extractStationSeries (code.total fallback) bodies stationId := by
  obtain ⟨hraises, hquiet⟩ := foldlM_keep fallback (firstOfEach stationId bodies)
  rw [extractStationSeries_eq, extractStationSeries_eq_series]
  by_cases hbad : code.Raises (firstOfEach stationId bodies)
  · obtain ⟨e, he⟩ := hraises hbad
    rw [he]
    exact iff_of_false (by simp [bind, Except.bind]) fun h => h.1.1 hbad
  · have hfold : (firstOfEach stationId bodies).foldlM code.keep [] >>= code.sortedPoints =
        code.sortedPoints (readings (code.total fallback) (firstOfEach stationId bodies)) := by
      rw [hquiet hbad]
      rfl
    rw [hfold]
    constructor
    · intro h
      have hread := readable_of_sortedPoints h
      rw [sortedPoints_readings_ok hread] at h
      exact ⟨⟨hbad, hread⟩, (Except.ok.inj h).symm⟩
    · rintro ⟨⟨-, hread⟩, rfl⟩
      exact sortedPoints_readings_ok hread

/-- Where each body has one observation of a station at most, its first ones are all. -/
theorem firstOfEach_eq_allOf (h : OnePerStation bodies) :
    firstOfEach stationId bodies = allOf stationId bodies := by
  induction bodies with
  | nil => rfl
  | cons body bodies ih =>
    have hbody := h body List.mem_cons_self
    have hrest := ih fun b hb => h b (List.mem_cons_of_mem body hb)
    have hone : (observationOf stationId body).toList =
        body.filter fun obs => obs.stationId.value = stationId := by
      clear h hrest ih
      induction body with
      | nil => rfl
      | cons obs body ihb =>
        rw [List.map_cons, List.nodup_cons] at hbody
        have htail := ihb hbody.2
        by_cases hs : obs.stationId.value = stationId
        · have hnone : body.filter (fun obs => obs.stationId.value = stationId) = [] := by
            refine List.filter_eq_nil_iff.mpr fun other hother he => ?_
            have hsame : other.stationId.value = stationId := by simpa using he
            exact hbody.1 (List.mem_map.mpr ⟨other, hother, hsame.trans hs.symm⟩)
          simp [observationOf, hs, hnone]
        · rw [observationOf] at htail ⊢
          simp [hs, htail]
    have hsplit : firstOfEach stationId (body :: bodies) =
        (observationOf stationId body).toList ++ firstOfEach stationId bodies := by
      rw [firstOfEach, List.filterMap_cons]
      cases observationOf stationId body <;> rfl
    rw [hsplit, hone, hrest, allOf, allOf, List.flatten_cons, List.filter_append]

/-- A pivot that returns has what is extracted for each of its stations alone. -/
theorem extract_of_mem_pivot (fallback : π) (h : OnePerStation bodies)
    {perStation : List (Int × List (Point π))} {p : Int × List (Point π)}
    (hpivot : code.pivotStationSeries bodies = .ok perStation) (hp : p ∈ perStation) :
    code.extractStationSeries bodies p.1 = .ok p.2 := by
  obtain ⟨hraises, hquiet⟩ := @foldlM_pivotObservation _ _ code fallback bodies.flatten
  rw [pivotStationSeries_eq] at hpivot
  obtain ⟨gatheredAll, hgathered, hmap⟩ := bind_eq_ok.mp hpivot
  have hgood : ¬ code.PivotRaises bodies := by
    intro hbad
    obtain ⟨e, he⟩ := hraises hbad
    rw [hgathered] at he
    cases he
  obtain ⟨q, hq, hsorted⟩ := (mem_mapM_ok hmap).mp hp
  obtain rfl : gatheredAll = pivotReadings (code.total fallback) bodies := by
    rw [pivotReadings_eq]
    exact Except.ok.inj (hgathered.symm.trans (hquiet hgood))
  have hreadings : q.2 = readings (code.total fallback) (firstOfEach q.1 bodies) := by
    rw [firstOfEach_eq_allOf h, ← gathered_pivot, gathered, lookup_of_mem (nodup_keys_pivot bodies) hq]
    rfl
  cases hpoints : code.sortedPoints q.2 with
  | error e =>
    rw [hpoints] at hsorted
    cases hsorted
  | ok points =>
    rw [hpoints] at hsorted
    obtain rfl := Except.ok.inj hsorted
    have hown : ¬ code.Raises (firstOfEach q.1 bodies) := by
      rw [firstOfEach_eq_allOf h]
      exact fun hbad => hgood ⟨q.1, hbad⟩
    rw [extractStationSeries_eq, (foldlM_keep fallback _).2 hown, ← hpoints, hreadings]
    rfl

end Whole

end DataService.Series
