import Mathlib.Data.List.Induction
import Mathlib.Data.List.Sort
import DataService.Lib.OrderedDict

/-! The history of one station, pivoted from the snapshot bodies of the latest hour
buckets: for one station at a time, or for all stations in one pass. -/

namespace DataService.Series

open OrderedDict

/-- A JSON `station_id` that Python takes for an `int`. -/
inductive StationId where
  | int (n : Int)
  | bool (b : Bool)
  deriving DecidableEq, Repr

/-- Its value as a dictionary key: `True == 1`. -/
def StationId.value : StationId → Int
  | .int n => n
  | .bool b => if b then 1 else 0

/-- One observation of a snapshot. `observedAt` is `none` for a value that is no string;
the measurements are opaque. -/
structure Observation (ρ : Type*) where
  stationId : StationId
  observedAt : Option String
  measurements : ρ
  deriving DecidableEq, Repr

structure Point (π : Type*) where
  observedAt : String
  measurements : π
  deriving DecidableEq, Repr

/-- Conversions that do not raise: the code where nothing of a history raises. -/
structure PointCode (ρ π : Type*) where
  parseObservedAt : String → Option Int
  flatten : ρ → π

variable {ρ π : Type*} (code : PointCode ρ π)

def observationToPoint (observedAt : String) (obs : Observation ρ) : Point π :=
  ⟨observedAt, code.flatten obs.measurements⟩

/-- Drop the points without a readable timestamp and sort the others, oldest first. -/
def sortedPoints (byObservedAt : List (String × Point π)) : List (Point π) :=
  let parsed := byObservedAt.filterMap fun p =>
    (code.parseObservedAt p.1).map fun instant => (instant, p.2)
  (parsed.insertionSort fun a b => a.1 ≤ b.1).map Prod.snd

/-- `by_observed_at` after one more observation: the first one of a timestamp stays. -/
def addReading (obs : Observation ρ) (byObservedAt : List (String × Point π)) :
    List (String × Point π) :=
  match obs.observedAt with
  | some observedAt => setDefault observedAt (observationToPoint code observedAt obs) byObservedAt
  | none => byObservedAt

/-- The first observation of a station in a body. -/
def observationOf (stationId : Int) (body : List (Observation ρ)) : Option (Observation ρ) :=
  body.find? fun obs => obs.stationId.value = stationId

def readingsOf (stationId : Int) (bodies : List (List (Observation ρ))) :
    List (String × Point π) :=
  bodies.foldl (fun byObservedAt body =>
    match observationOf stationId body with
    | some obs => addReading code obs byObservedAt
    | none => byObservedAt) []

def extractStationSeries (bodies : List (List (Observation ρ))) (stationId : Int) :
    List (Point π) :=
  sortedPoints code (readingsOf code stationId bodies)

/-- One observation of the pivot over all stations. -/
def pivotObservation (perStation : List (Int × List (String × Point π))) (obs : Observation ρ) :
    List (Int × List (String × Point π)) :=
  match obs.observedAt with
  | some _ => upsert obs.stationId.value (fun bucket => addReading code obs (bucket.getD [])) perStation
  | none => perStation

def pivotReadings (bodies : List (List (Observation ρ))) : List (Int × List (String × Point π)) :=
  bodies.foldl (fun perStation body => body.foldl (pivotObservation code) perStation) []

def pivotStationSeries (bodies : List (List (Observation ρ))) : List (Int × List (Point π)) :=
  (pivotReadings code bodies).map fun p => (p.1, sortedPoints code p.2)

/-- The timestamps a station's observations carry in a list of bodies. -/
def timestampsOf (stationId : Int) (bodies : List (List (Observation ρ))) : List String :=
  bodies.filterMap fun body => (observationOf stationId body).bind (·.observedAt)

variable {code} {bodies : List (List (Observation ρ))} {stationId : Int}

theorem readingsOf_append (code : PointCode ρ π) (stationId : Int)
    (bodies more : List (List (Observation ρ))) :
    ∃ e, readingsOf code stationId (bodies ++ more) = readingsOf code stationId bodies ++ e ∧
      ∀ p ∈ e, p.1 ∉ (readingsOf code stationId bodies).map Prod.fst := by
  induction more using List.reverseRecOn with
  | nil => exact ⟨[], by simp, by simp⟩
  | append_singleton more body ih =>
    obtain ⟨e, he, hnew⟩ := ih
    have hstep : readingsOf code stationId (bodies ++ (more ++ [body])) =
        match observationOf stationId body with
        | some obs => addReading code obs (readingsOf code stationId bodies ++ e)
        | none => readingsOf code stationId bodies ++ e := by
      rw [← List.append_assoc, readingsOf, List.foldl_append, List.foldl_cons, List.foldl_nil]
      rw [readingsOf] at he
      rw [he]
    rw [hstep]
    cases observationOf stationId body with
    | none => exact ⟨e, rfl, hnew⟩
    | some obs =>
      cases ho : obs.observedAt with
      | none => exact ⟨e, by simp [addReading, ho], hnew⟩
      | some t =>
        obtain ⟨e', he', hnew'⟩ := setDefault_append t (observationToPoint code t obs)
          (readingsOf code stationId bodies ++ e)
        refine ⟨e ++ e', by simp [addReading, ho, he'], ?_⟩
        intro p hp
        rcases List.mem_append.mp hp with hp | hp
        · exact hnew p hp
        · have hp' := hnew' p hp
          rw [List.map_append, List.mem_append] at hp'
          exact fun h => hp' (.inl h)

theorem mem_keys_readingsOf (code : PointCode ρ π) (stationId : Int)
    (bodies : List (List (Observation ρ))) (t : String) :
    t ∈ (readingsOf code stationId bodies).map Prod.fst ↔ t ∈ timestampsOf stationId bodies := by
  induction bodies using List.reverseRecOn with
  | nil => simp [readingsOf, timestampsOf]
  | append_singleton bodies body ih =>
    have hstep : readingsOf code stationId (bodies ++ [body]) =
        match observationOf stationId body with
        | some obs => addReading code obs (readingsOf code stationId bodies)
        | none => readingsOf code stationId bodies := by
      rw [readingsOf, List.foldl_append]
      rfl
    have htimes : timestampsOf stationId (bodies ++ [body]) = timestampsOf stationId bodies ++
        ((observationOf stationId body).bind (·.observedAt)).toList := by
      rw [timestampsOf, List.filterMap_append]
      cases h : (observationOf stationId body).bind (·.observedAt) <;> simp [timestampsOf, h]
    rw [hstep, htimes]
    cases observationOf stationId body with
    | none => simpa using ih
    | some obs =>
      cases ho : obs.observedAt with
      | none => simpa [addReading, ho] using ih
      | some u =>
        simp only [addReading, ho, mem_keys_setDefault, ih]
        simp [ho]

theorem length_sortedPoints (byObservedAt : List (String × Point π)) :
    (sortedPoints code byObservedAt).length =
      (byObservedAt.filterMap fun p => code.parseObservedAt p.1).length := by
  simp only [sortedPoints, List.length_map, List.length_insertionSort]
  induction byObservedAt with
  | nil => rfl
  | cons p d ih => cases h : code.parseObservedAt p.1 <;> simp [h, ih]

/-- Readings without a timestamp that parses are the only ones a series does not show. -/
theorem sortedPoints_append_eq_iff (d e : List (String × Point π)) :
    sortedPoints code (d ++ e) = sortedPoints code d ↔
      ∀ p ∈ e, code.parseObservedAt p.1 = none := by
  constructor
  · intro h p hp
    have hl := congrArg List.length h
    rw [length_sortedPoints, length_sortedPoints, List.filterMap_append, List.length_append] at hl
    have he : e.filterMap (fun p => code.parseObservedAt p.1) = [] :=
      List.length_eq_zero_iff.mp (by omega)
    exact List.filterMap_eq_nil_iff.mp he p hp
  · intro h
    have he : e.filterMap (fun p => (code.parseObservedAt p.1).map fun i => (i, p.2)) = [] :=
      List.filterMap_eq_nil_iff.mpr fun p hp => by simp [h p hp]
    simp only [sortedPoints, List.filterMap_append, he, List.append_nil]

/-- Two lists of bodies carry the same readable timestamps of a station. -/
def SameReadings (code : PointCode ρ π) (stationId : Int)
    (bodies bodies' : List (List (Observation ρ))) : Prop :=
  ∀ t, code.parseObservedAt t ≠ none →
    (t ∈ timestampsOf stationId bodies ↔ t ∈ timestampsOf stationId bodies')

theorem SameReadings.symm {bodies' : List (List (Observation ρ))}
    (h : SameReadings code stationId bodies bodies') :
    SameReadings code stationId bodies' bodies :=
  fun t ht => (h t ht).symm

theorem extract_append_eq_iff (bodies more : List (List (Observation ρ))) :
    extractStationSeries code (bodies ++ more) stationId =
        extractStationSeries code bodies stationId ↔
      SameReadings code stationId bodies (bodies ++ more) := by
  obtain ⟨e, he, hnew⟩ := readingsOf_append code stationId bodies more
  have hkeys : ∀ t, t ∈ timestampsOf stationId (bodies ++ more) ↔
      t ∈ timestampsOf stationId bodies ∨ t ∈ e.map Prod.fst := by
    intro t
    rw [← mem_keys_readingsOf code, ← mem_keys_readingsOf code, he,
      List.map_append, List.mem_append]
  simp only [extractStationSeries, he, sortedPoints_append_eq_iff, SameReadings, hkeys]
  constructor
  · intro h t ht
    refine ⟨.inl, ?_⟩
    intro hm
    rcases hm with hm | hm
    · exact hm
    · obtain ⟨p, hp, rfl⟩ := List.mem_map.mp hm
      exact absurd (h p hp) ht
  · intro h p hp
    by_contra hne
    have hmem := (h p.1 hne).mpr (.inr (List.mem_map_of_mem hp))
    exact hnew p hp ((mem_keys_readingsOf code stationId bodies p.1).mpr hmem)

/-- Two windows over the same snapshots give one series iff they hold the same readings. -/
theorem extract_eq_iff {all bodies bodies' : List (List (Observation ρ))} (h : bodies <+: all)
    (h' : bodies' <+: all) :
    extractStationSeries code bodies stationId = extractStationSeries code bodies' stationId ↔
      SameReadings code stationId bodies bodies' := by
  rcases List.prefix_or_prefix_of_prefix h h' with ⟨more, rfl⟩ | ⟨more, rfl⟩
  · rw [eq_comm]
    exact extract_append_eq_iff bodies more
  · rw [extract_append_eq_iff bodies' more]
    exact ⟨SameReadings.symm, SameReadings.symm⟩

/-- No body has two observations of one station. -/
def OnePerStation (bodies : List (List (Observation ρ))) : Prop :=
  ∀ body ∈ bodies, (body.map fun obs => obs.stationId.value).Nodup

/-- What a station has gathered so far, in a pivot over all stations. -/
def gathered (stationId : Int) (perStation : List (Int × List (String × Point π))) :
    List (String × Point π) :=
  (perStation.lookup stationId).getD []

theorem gathered_pivotObservation (perStation : List (Int × List (String × Point π)))
    (obs : Observation ρ) :
    gathered stationId (pivotObservation code perStation obs) =
      if obs.stationId.value = stationId then addReading code obs (gathered stationId perStation)
      else gathered stationId perStation := by
  cases ho : obs.observedAt with
  | none => simp [pivotObservation, addReading, ho]
  | some t =>
    by_cases h : obs.stationId.value = stationId
    · subst h
      simp [pivotObservation, gathered, ho, lookup_upsert_self]
    · have hne : stationId ≠ obs.stationId.value := fun he => h he.symm
      simp [pivotObservation, gathered, ho, h, lookup_upsert_ne hne]

theorem nodup_keys_pivotBody (body : List (Observation ρ))
    {perStation : List (Int × List (String × Point π))} (h : (perStation.map Prod.fst).Nodup) :
    ((body.foldl (pivotObservation code) perStation).map Prod.fst).Nodup := by
  induction body generalizing perStation with
  | nil => exact h
  | cons obs body ih =>
    rw [List.foldl_cons]
    apply ih
    cases ho : obs.observedAt with
    | none => simpa [pivotObservation, ho] using h
    | some t =>
      simp only [pivotObservation, ho]
      exact nodup_keys_upsert _ h

theorem nodup_keys_pivot (bodies : List (List (Observation ρ))) :
    ((pivotReadings code bodies).map Prod.fst).Nodup := by
  induction bodies using List.reverseRecOn with
  | nil => exact List.nodup_nil
  | append_singleton bodies body ih =>
    rw [pivotReadings, List.foldl_append, List.foldl_cons, List.foldl_nil]
    exact nodup_keys_pivotBody body ih

end DataService.Series
