import DataService.WeatherStations.Series

/-! Which observation a series keeps for a timestamp: the first one. What a series shows is
determined by that, as long as no two timestamps are texts of one instant. -/

namespace DataService.Series

open OrderedDict

variable {ρ π : Type*} {code : PointCode ρ π} {obs : Observation ρ} {l l' : List (Observation ρ)}
  {d d' : List (String × Point π)} {t : String} {p : Point π} {stationId : Int}
  {bodies : List (List (Observation ρ))}

/-- The first observation with a timestamp. -/
def firstWith (t : String) (l : List (Observation ρ)) : Option (Observation ρ) :=
  l.find? fun obs => obs.observedAt = some t

/-- The dictionary that collects a list of observations. -/
def readings (code : PointCode ρ π) (l : List (Observation ρ)) : List (String × Point π) :=
  l.foldl (fun byObservedAt obs => addReading code obs byObservedAt) []

/-- All observations of a station, and the first one of each body. -/
def allOf (stationId : Int) (bodies : List (List (Observation ρ))) : List (Observation ρ) :=
  bodies.flatten.filter fun obs => obs.stationId.value = stationId

def firstOfEach (stationId : Int) (bodies : List (List (Observation ρ))) :
    List (Observation ρ) :=
  bodies.filterMap (observationOf stationId)

section Dictionary

theorem readings_append_singleton :
    readings code (l ++ [obs]) = addReading code obs (readings code l) := by
  simp [readings]

theorem firstWith_append_singleton : firstWith t (l ++ [obs]) =
    (firstWith t l).or (if obs.observedAt = some t then some obs else none) := by
  simp [firstWith, List.find?_append, List.find?_cons]
  split <;> simp_all

theorem mem_keys_readings : t ∈ (readings code l).map Prod.fst ↔ firstWith t l ≠ none := by
  induction l using List.reverseRecOn with
  | nil => simp [readings, firstWith]
  | append_singleton l obs ih =>
    rw [readings_append_singleton, firstWith_append_singleton]
    cases hobs : obs.observedAt with
    | none => simp [addReading, hobs, ih]
    | some u =>
      rw [addReading, hobs]
      simp only [mem_keys_setDefault, ih, Option.some.injEq]
      by_cases hu : u = t
      · simp [hu]
      · simp [hu, Ne.symm hu]

/-- The dictionary has the point of the first observation under each timestamp. -/
theorem lookup_readings :
    (readings code l).lookup t = (firstWith t l).map (observationToPoint code t) := by
  induction l using List.reverseRecOn with
  | nil => rfl
  | append_singleton l obs ih =>
    rw [readings_append_singleton, firstWith_append_singleton]
    cases hobs : obs.observedAt with
    | none => simpa [addReading, hobs] using ih
    | some u =>
      simp only [addReading, hobs, lookup_setDefault, ih]
      by_cases hu : u = t
      · subst hu
        cases firstWith u l <;> simp
      · cases firstWith t l <;> simp [hu, Ne.symm hu]

theorem nodup_keys_readings : ((readings code l).map Prod.fst).Nodup := by
  induction l using List.reverseRecOn with
  | nil => exact List.nodup_nil
  | append_singleton l obs ih =>
    rw [readings_append_singleton]
    cases hobs : obs.observedAt with
    | none => simpa [addReading, hobs] using ih
    | some u =>
      simp only [addReading, hobs, setDefault]
      split
      · exact ih
      · rename_i hnew
        rw [List.map_append, List.nodup_append]
        refine ⟨ih, by simp, ?_⟩
        simp only [List.map_cons, List.map_nil, List.mem_singleton]
        rintro a ha b rfl rfl
        exact hnew ha

theorem mem_readings : (t, p) ∈ readings code l ↔ (readings code l).lookup t = some p := by
  constructor
  · exact lookup_of_mem nodup_keys_readings
  · intro h
    exact mem_of_lookup h

end Dictionary

section Both

theorem readingsOf_eq : readingsOf code stationId bodies =
    readings code (firstOfEach stationId bodies) := by
  rw [readingsOf, readings, firstOfEach, List.foldl_filterMap]
  congr 1
  funext d body
  cases observationOf stationId body <;> rfl

theorem pivotReadings_eq : pivotReadings code bodies =
    bodies.flatten.foldl (pivotObservation code) [] := by
  rw [pivotReadings, List.foldl_flatten]

theorem gathered_foldl (code : PointCode ρ π) (stationId : Int) (l : List (Observation ρ)) :
    gathered stationId (l.foldl (pivotObservation code) []) =
      readings code (l.filter fun obs => obs.stationId.value = stationId) := by
  induction l using List.reverseRecOn with
  | nil => rfl
  | append_singleton l obs ih =>
    rw [List.foldl_append, List.foldl_cons, List.foldl_nil, gathered_pivotObservation, ih,
      List.filter_append]
    by_cases hs : obs.stationId.value = stationId
    · simp [hs, readings]
    · simp [hs]

theorem gathered_pivot : gathered stationId (pivotReadings code bodies) =
    readings code (allOf stationId bodies) := by
  rw [pivotReadings_eq, gathered_foldl, allOf]

end Both

section Shown

/-- No two timestamps of a list are texts of one instant. -/
def Separate (code : PointCode ρ π) (l : List (Observation ρ)) : Prop :=
  ∀ obs ∈ l, ∀ obs' ∈ l, ∀ t t' i, obs.observedAt = some t → obs'.observedAt = some t' →
    code.parseObservedAt t = some i → code.parseObservedAt t' = some i → t = t'

/-- The readable points of a dictionary with their instants. -/
def parsedPoints (code : PointCode ρ π) (d : List (String × Point π)) : List (Int × Point π) :=
  d.filterMap fun p => (code.parseObservedAt p.1).map fun instant => (instant, p.2)

/-- The points in the order of their instants. -/
def series (code : PointCode ρ π) (l : List (Observation ρ)) : List (Int × Point π) :=
  (parsedPoints code (readings code l)).insertionSort fun a b => a.1 ≤ b.1

theorem sortedPoints_readings :
    sortedPoints code (readings code l) = (series code l).map Prod.snd := rfl

theorem extractStationSeries_eq_series : extractStationSeries code bodies stationId =
    (series code (firstOfEach stationId bodies)).map Prod.snd := by
  rw [extractStationSeries, readingsOf_eq, sortedPoints_readings]

theorem lookup_pivotStationSeries : ((pivotStationSeries code bodies).lookup stationId).getD [] =
    (series code (allOf stationId bodies)).map Prod.snd := by
  rw [pivotStationSeries, lookup_map_snd, ← sortedPoints_readings, ← gathered_pivot, gathered]
  cases (pivotReadings code bodies).lookup stationId <;> rfl

theorem mem_series {i : Int} : (i, p) ∈ series code l ↔ code.parseObservedAt p.observedAt = some i ∧
    ∃ obs, firstWith p.observedAt l = some obs ∧ p = observationToPoint code p.observedAt obs := by
  have hperm := List.perm_insertionSort (fun a b : Int × Point π => a.1 ≤ b.1)
    (parsedPoints code (readings code l))
  rw [series, hperm.mem_iff, parsedPoints, List.mem_filterMap]
  constructor
  · rintro ⟨⟨t, q⟩, hq, hmap⟩
    obtain ⟨j, hj, hpair⟩ := Option.map_eq_some_iff.mp hmap
    obtain ⟨rfl, rfl⟩ := Prod.mk.inj hpair
    have hlookup := mem_readings.mp hq
    rw [lookup_readings] at hlookup
    obtain ⟨obs, hobs, rfl⟩ := Option.map_eq_some_iff.mp hlookup
    exact ⟨hj, obs, hobs, rfl⟩
  · rintro ⟨hi, obs, hobs, hp⟩
    refine ⟨(p.observedAt, p), mem_readings.mpr ?_, by simp [hi]⟩
    rw [lookup_readings, hobs, hp]
    rfl

theorem mem_of_firstWith (h : firstWith t l = some obs) : obs ∈ l ∧ obs.observedAt = some t := by
  have hfound := List.find?_some h
  exact ⟨List.mem_of_find?_eq_some h, by simpa using hfound⟩

/-- The instants of a series increase strictly. -/
theorem series_increasing (hsep : Separate code l) :
    (series code l).Pairwise fun a b => a.1 < b.1 := by
  have hkeys : (readings code l).Pairwise fun p q => p.1 ≠ q.1 :=
    List.pairwise_map.mp nodup_keys_readings
  have hmem : ∀ q ∈ readings code l, ∃ obs ∈ l, obs.observedAt = some q.1 := by
    intro q hq
    have hne := mem_keys_readings.mp (List.mem_map_of_mem hq)
    obtain ⟨obs, hobs⟩ := Option.ne_none_iff_exists'.mp hne
    exact ⟨obs, mem_of_firstWith hobs⟩
  have hapart : (parsedPoints code (readings code l)).Pairwise fun a b => a.1 ≠ b.1 := by
    refine List.pairwise_filterMap.mpr (hkeys.imp_of_mem ?_)
    rintro q q' hq hq' hne ⟨i, p⟩ hi ⟨j, p'⟩ hj rfl
    obtain ⟨i', hi', hpair⟩ := Option.map_eq_some_iff.mp hi
    obtain ⟨j', hj', hpair'⟩ := Option.map_eq_some_iff.mp hj
    obtain ⟨rfl, -⟩ := Prod.mk.inj hpair
    obtain ⟨rfl, -⟩ := Prod.mk.inj hpair'
    obtain ⟨obs, hobs, ht⟩ := hmem q hq
    obtain ⟨obs', hobs', ht'⟩ := hmem q' hq'
    exact hne (hsep obs hobs obs' hobs' q.1 q'.1 _ ht ht' hi' hj')
  have hperm := List.perm_insertionSort (fun a b : Int × Point π => a.1 ≤ b.1)
    (parsedPoints code (readings code l))
  have hne : (series code l).Pairwise fun a b => a.1 ≠ b.1 :=
    hperm.symm.pairwise hapart Ne.symm
  have hle : (series code l).Pairwise fun a b => a.1 ≤ b.1 := List.pairwise_insertionSort _ _
  exact hle.imp₂ (fun _ _ h h' => lt_of_le_of_ne h h') hne

/-- Two series are equal exactly if they keep the same point for each readable timestamp. -/
theorem series_eq_iff (hsep : Separate code l) (hsep' : Separate code l') :
    (series code l).map Prod.snd = (series code l').map Prod.snd ↔
      ∀ t, code.parseObservedAt t ≠ none → (firstWith t l).map (observationToPoint code t) =
        (firstWith t l').map (observationToPoint code t) := by
  have hshown : ∀ (l : List (Observation ρ)) t i p, code.parseObservedAt t = some i →
      ((firstWith t l).map (observationToPoint code t) = some p ↔
        p.observedAt = t ∧ p ∈ (series code l).map Prod.snd) := by
    intro l t i p hi
    constructor
    · intro hp
      obtain ⟨obs, hobs, rfl⟩ := Option.map_eq_some_iff.mp hp
      refine ⟨rfl, List.mem_map.mpr ⟨(i, _), mem_series.mpr ⟨hi, obs, hobs, rfl⟩, rfl⟩⟩
    · rintro ⟨rfl, hp⟩
      obtain ⟨⟨j, q⟩, hq, rfl⟩ := List.mem_map.mp hp
      obtain ⟨-, obs, hobs, hq'⟩ := mem_series.mp hq
      rw [hobs, Option.map_some, ← hq']
  constructor
  · intro heq t ht
    obtain ⟨i, hi⟩ := Option.ne_none_iff_exists'.mp ht
    refine Option.ext fun p => ?_
    rw [hshown l t i p hi, hshown l' t i p hi, heq]
  · intro hall
    have hmem : ∀ a, a ∈ series code l ↔ a ∈ series code l' := by
      rintro ⟨i, p⟩
      rw [mem_series, mem_series]
      refine and_congr_right fun hi => ?_
      have hp := hall p.observedAt (by simp [hi])
      constructor
      · rintro ⟨obs, hobs, hpoint⟩
        rw [hobs, Option.map_some, ← hpoint] at hp
        obtain ⟨obs', hobs', hpoint'⟩ := Option.map_eq_some_iff.mp hp.symm
        exact ⟨obs', hobs', hpoint'.symm⟩
      · rintro ⟨obs, hobs, hpoint⟩
        rw [hobs, Option.map_some, ← hpoint] at hp
        obtain ⟨obs', hobs', hpoint'⟩ := Option.map_eq_some_iff.mp hp
        exact ⟨obs', hobs', hpoint'.symm⟩
    have hlt := series_increasing hsep
    have hlt' := series_increasing hsep'
    have hne : ∀ {a b : Int × Point π}, a.1 < b.1 → a ≠ b := by
      rintro a _ h rfl
      exact lt_irrefl _ h
    have hperm := (List.perm_ext_iff_of_nodup (hlt.imp hne) (hlt'.imp hne)).mpr hmem
    rw [hperm.eq_of_pairwise (fun a b _ _ hab hba => absurd hab (lt_asymm hba)) hlt hlt']

end Shown

end DataService.Series
