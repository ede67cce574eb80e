import DataService.Lib.RemoteStore
import DataService.Lib.StepSystem
import DataService.WeatherStations.SeriesAgreement

/-! Station series behind the shared cache. Requests of every admitted window and the
scraper's warm-up write one entry per station, and the entry does not say whose it is. -/

namespace DataService.Series

open JsonValue OrderedDict Raising RemoteStore StepSystem

/-- A snapshot object: its scrape second, and what `parse_json_or_none` makes of its bytes. -/
structure Snapshot (ρ : Type) where
  scrapedAt : Nat
  body : Except LoadError (Option (List (Observation ρ)))

structure SeriesConfig (ρ π : Type) where
  code : RaisingCode ρ π
  snapshots : List (Snapshot ρ)
  cacheEnabled : Bool
  seriesHours : Nat
  animationWarmBuckets : Nat

/-- What leaves a request or a warm-up in place of points. -/
inductive SeriesError where
  | notLoaded (e : LoadError)
  | raised (e : PyError)
  deriving DecidableEq, Repr

variable {ρ π : Type}

/-- The latest snapshot of each hour bucket. -/
def latestSnapshotPerBucket (snapshots : List (Snapshot ρ)) : List (Nat × Snapshot ρ) :=
  snapshots.foldl (fun perBucket snapshot =>
    upsert (snapshot.scrapedAt / 3600) (fun existing =>
      match existing with
      | none => snapshot
      | some kept => if kept.scrapedAt < snapshot.scrapedAt then snapshot else kept) perBucket) []

/-- The representatives of all hour buckets, newest first. -/
def newestSnapshots (snapshots : List (Snapshot ρ)) : List (Snapshot ρ) :=
  ((latestSnapshotPerBucket snapshots).map Prod.snd).insertionSort
    fun a b => b.scrapedAt ≤ a.scrapedAt

def recentSnapshots (snapshots : List (Snapshot ρ)) (window : Nat) : List (Snapshot ρ) :=
  (newestSnapshots snapshots).take window

/-- The bodies of some snapshots, without those that are missing or no JSON object. -/
def readBodies (snapshots : List (Snapshot ρ)) :
    Except SeriesError (List (List (Observation ρ))) :=
  (snapshots.mapM fun snapshot : Snapshot ρ => snapshot.body.mapError .notLoaded).map
    List.reduceOption

/-- The same, where a body that raises is missing as well. -/
def readableBodies (snapshots : List (Snapshot ρ)) : List (List (Observation ρ)) :=
  snapshots.filterMap fun snapshot => snapshot.body.toOption.join

/-- A cached series; the bodies it was pivoted from are ghost. -/
structure Entry (ρ π : Type) where
  points : List (Point π)
  bodies : List (List (Observation ρ))

/-- An answered request; `entry` is the cache entry that answered it, if one did. -/
structure Answer (ρ π : Type) where
  stationId : Int
  hours : Nat
  points : Except SeriesError (List (Point π))
  entry : Option (Entry ρ π)

/-- The cache, the write-backs and warm-up writes still to come, and the answers given. -/
structure State (ρ π : Type) where
  cache : AList fun _ : Int => Entry ρ π
  writeBacks : List (Int × Entry ρ π)
  warming : List (Int × Entry ρ π)
  answers : List (Answer ρ π)

def State.boot : State ρ π := ⟨∅, [], [], []⟩

/-- The cold miss of `_station_series_points`. -/
def rebuilt (cfg : SeriesConfig ρ π) (stationId : Int) (hours : Nat) :
    Except SeriesError (Entry ρ π) := do
  let bodies ← readBodies (recentSnapshots cfg.snapshots hours)
  let points ← (cfg.code.extractStationSeries bodies stationId).mapError .raised
  pure ⟨points, bodies⟩

/-- What a request with an empty cache would return. -/
def rebuiltPoints (cfg : SeriesConfig ρ π) (stationId : Int) (hours : Nat) :
    Except SeriesError (List (Point π)) :=
  (rebuilt cfg stationId hours).map Entry.points

/-- The writes of one warm-up. -/
def warmStationSeries (cfg : SeriesConfig ρ π) : Except SeriesError (List (Int × Entry ρ π)) :=
  if cfg.cacheEnabled = false ∨ cfg.seriesHours = 0 then pure []
  else do
    let bodies ← readBodies
      (recentSnapshots cfg.snapshots (max cfg.animationWarmBuckets cfg.seriesHours))
    let kept := bodies.take cfg.seriesHours
    let seriesByStation ← (cfg.code.pivotStationSeries kept).mapError .raised
    pure (seriesByStation.map fun p => (p.1, ⟨p.2, kept⟩))

inductive Action where
  | request (stationId : Int) (hours : Nat) (redisOk : Bool)
  | writeBack (i : Nat) (landed : Bool)
  | warm
  | warmNext (landed : Bool)
  | stop
  | expire (stationId : Int)
  deriving DecidableEq, Repr

def State.setSeries (s : State ρ π) (p : Int × Entry ρ π) (landed : Bool) : State ρ π :=
  if landed then { s with cache := s.cache.insert p.1 p.2 } else s

/-- `_station_series_points`: a hit answers from the cache, a miss rebuilds and writes back.
Where the rebuilding raises, the request does, and nothing is written. -/
def stationSeriesPoints (cfg : SeriesConfig ρ π) (s : State ρ π) (stationId : Int)
    (hours : Nat) (redisOk : Bool) : State ρ π :=
  match if cfg.cacheEnabled ∧ redisOk then s.cache.lookup stationId else none with
  | some entry =>
    { s with answers := ⟨stationId, hours, .ok entry.points, some entry⟩ :: s.answers }
  | none =>
    match rebuilt cfg stationId hours with
    | .ok entry =>
      { s with
        answers := ⟨stationId, hours, .ok entry.points, none⟩ :: s.answers
        writeBacks := s.writeBacks ++ if cfg.cacheEnabled then [(stationId, entry)] else [] }
    | .error e => { s with answers := ⟨stationId, hours, .error e, none⟩ :: s.answers }

def seriesStep (cfg : SeriesConfig ρ π) (s : State ρ π) : Action → Option (State ρ π)
  | .request stationId hours redisOk =>
    if 1 ≤ hours ∧ hours ≤ cfg.seriesHours then
      some (stationSeriesPoints cfg s stationId hours redisOk)
    else none
  | .writeBack i landed =>
    s.writeBacks[i]?.map fun p =>
      { s.setSeries p landed with writeBacks := s.writeBacks.eraseIdx i }
  -- A warm-up that raises ends its cycle before the first write.
  | .warm => some { s with warming := (warmStationSeries cfg).toOption.getD [] }
  | .warmNext landed =>
    match s.warming with
    | p :: rest => some { s.setSeries p landed with warming := rest }
    | [] => none
  | .stop => some { s with warming := [] }
  | .expire stationId => some { s with cache := s.cache.erase stationId }

/-- Every answer is what a request with an empty cache would return. -/
def AnswersRebuilt (cfg : SeriesConfig ρ π) (s : State ρ π) : Prop :=
  ∀ a ∈ s.answers, a.points = rebuiltPoints cfg a.stationId a.hours

/-- Nothing that a request over a window reads raises: no body of the window, no first reading
of the station with its timestamp. -/
structure Quiet (cfg : SeriesConfig ρ π) (stationId : Int) (hours : Nat) : Prop where
  loads : ∀ snapshot ∈ recentSnapshots cfg.snapshots hours, ∃ body, snapshot.body = .ok body
  flattens : ¬ cfg.code.Raises
    (firstOfEach stationId (readableBodies (recentSnapshots cfg.snapshots hours)))
  readable : Readable cfg.code
    (firstOfEach stationId (readableBodies (recentSnapshots cfg.snapshots hours)))

/-- Two lists of bodies carry the same readable timestamps of a station. -/
def SameTimestamps (code : RaisingCode ρ π) (stationId : Int)
    (bodies bodies' : List (List (Observation ρ))) : Prop :=
  ∀ t i, code.parseObservedAt t = .ok (some i) →
    (t ∈ timestampsOf stationId bodies ↔ t ∈ timestampsOf stationId bodies')

/-- Every entry that answered a request was written over a window with the readings of
that station that the requested window has, and nothing in the requested window raises. -/
def WindowsAgree (cfg : SeriesConfig ρ π) (s : State ρ π) : Prop :=
  ∀ a ∈ s.answers, ∀ entry, a.entry = some entry → Quiet cfg a.stationId a.hours ∧
    SameTimestamps cfg.code a.stationId entry.bodies
      (readableBodies (recentSnapshots cfg.snapshots a.hours))

/-- All bodies a window can reach. -/
def allBodies (snapshots : List (Snapshot ρ)) : List (List (Observation ρ)) :=
  readableBodies (newestSnapshots snapshots)

variable {cfg : SeriesConfig ρ π} {s t : State ρ π} {p : Int × Entry ρ π}
  {snapshots : List (Snapshot ρ)} {bodies : List (List (Observation ρ))} {stationId : Int}
  {hours : Nat} {entry : Entry ρ π}

theorem readBodies_eq_ok : readBodies snapshots = .ok bodies ↔
    (∀ snapshot ∈ snapshots, ∃ body, snapshot.body = .ok body) ∧
      bodies = readableBodies snapshots := by
  by_cases hload : ∀ snapshot ∈ snapshots, ∃ body, snapshot.body = .ok body
  · have hall : snapshots.mapM (fun snapshot => snapshot.body.mapError SeriesError.notLoaded) =
        .ok (snapshots.map fun snapshot => snapshot.body.toOption.join) := by
      refine mapM_ok fun snapshot hs => ?_
      obtain ⟨body, hbody⟩ := hload snapshot hs
      rw [hbody]
      rfl
    have hreduce : (snapshots.map fun snapshot => snapshot.body.toOption.join).reduceOption =
        readableBodies snapshots := List.filterMap_map
    rw [readBodies, hall]
    simp only [Except.map, hreduce, Except.ok.injEq, eq_comm]
    exact ⟨fun h => ⟨hload, h⟩, And.right⟩
  · refine iff_of_false (fun h => ?_) fun h => hload h.1
    obtain ⟨snapshot, hs, hbad⟩ : ∃ snapshot ∈ snapshots, ∀ body, snapshot.body ≠ .ok body := by
      simpa using hload
    have hfails : ∃ e, snapshot.body.mapError SeriesError.notLoaded = .error e := by
      cases hbody : snapshot.body with
      | ok body => exact absurd hbody (hbad body)
      | error e => exact ⟨.notLoaded e, rfl⟩
    have hraises : ∃ e, snapshots.mapM (fun snapshot : Snapshot ρ =>
        snapshot.body.mapError SeriesError.notLoaded) = .error e :=
      mapM_raises_iff.mpr ⟨snapshot, hs, hfails⟩
    obtain ⟨e, he⟩ := hraises
    rw [readBodies, he] at h
    cases h

theorem mapError_eq_ok {ε ε' α : Type} {f : ε → ε'} {x : Except ε α} {a : α} :
    x.mapError f = .ok a ↔ x = .ok a := by
  cases x <;> simp [Except.mapError]

/-- A miss rebuilds exactly if nothing in the window raises. -/
theorem rebuilt_eq_ok [Inhabited π] : rebuilt cfg stationId hours = .ok entry ↔
    Quiet cfg stationId hours ∧
      entry.bodies = readableBodies (recentSnapshots cfg.snapshots hours) ∧
      entry.points = extractStationSeries (cfg.code.total default) entry.bodies stationId := by
  rw [rebuilt, bind_eq_ok]
  simp only [bind_eq_ok, mapError_eq_ok, readBodies_eq_ok, extractStationSeries_eq_ok default]
  constructor
  · rintro ⟨bodies, ⟨hloads, rfl⟩, points, ⟨⟨hflattens, hreadable⟩, rfl⟩, hentry⟩
    obtain rfl := Except.ok.inj hentry
    exact ⟨⟨hloads, hflattens, hreadable⟩, rfl, rfl⟩
  · rintro ⟨hquiet, hbodies, hpoints⟩
    rw [hbodies] at hpoints
    refine ⟨_, ⟨hquiet.loads, rfl⟩, _, ⟨⟨hquiet.flattens, hquiet.readable⟩, rfl⟩, ?_⟩
    rw [← hpoints, ← hbodies]
    rfl

theorem prefix_of_recentSnapshots (snapshots : List (Snapshot ρ)) (window : Nat) :
    readableBodies (recentSnapshots snapshots window) <+: allBodies snapshots :=
  (List.take_prefix window _).filterMap _

/-- An entry holds the series of the bodies it was written from. -/
def Sound (cfg : SeriesConfig ρ π) (stationId : Int) (entry : Entry ρ π) : Prop :=
  entry.bodies <+: allBodies cfg.snapshots ∧
    cfg.code.extractStationSeries entry.bodies stationId = .ok entry.points

structure SoundState (cfg : SeriesConfig ρ π) (s : State ρ π) : Prop where
  cache : ∀ stationId entry, s.cache.lookup stationId = some entry → Sound cfg stationId entry
  writeBacks : ∀ p ∈ s.writeBacks, Sound cfg p.1 p.2
  warming : ∀ p ∈ s.warming, Sound cfg p.1 p.2
  hits : ∀ a ∈ s.answers, ∀ entry, a.entry = some entry →
    Sound cfg a.stationId entry ∧ a.points = .ok entry.points
  misses : ∀ a ∈ s.answers, a.entry = none → a.points = rebuiltPoints cfg a.stationId a.hours

theorem rebuilt_sound (h : rebuilt cfg stationId hours = .ok entry) : Sound cfg stationId entry := by
  obtain ⟨bodies, hbodies, h⟩ := bind_eq_ok.mp h
  obtain ⟨points, hpoints, h⟩ := bind_eq_ok.mp h
  obtain rfl := Except.ok.inj h
  obtain ⟨-, rfl⟩ := readBodies_eq_ok.mp hbodies
  exact ⟨prefix_of_recentSnapshots _ _, mapError_eq_ok.mp hpoints⟩

/-- An entry and a miss have the same points exactly if nothing in the window of the miss raises
and the two windows have the same readings. -/
theorem rebuiltPoints_eq_iff [Inhabited π] (h : Sound cfg stationId entry) :
    Except.ok entry.points = rebuiltPoints cfg stationId hours ↔ Quiet cfg stationId hours ∧
      SameTimestamps cfg.code stationId entry.bodies
        (readableBodies (recentSnapshots cfg.snapshots hours)) := by
  obtain ⟨hinitial, hextract⟩ := h
  obtain ⟨-, hpoints⟩ := (extractStationSeries_eq_ok default).mp hextract
  have hsame : SameTimestamps cfg.code stationId entry.bodies
      (readableBodies (recentSnapshots cfg.snapshots hours)) ↔
      SameReadings (cfg.code.total default) stationId entry.bodies
        (readableBodies (recentSnapshots cfg.snapshots hours)) := by
    refine forall_congr' fun t => ?_
    simp only [RaisingCode.total]
    cases cfg.code.parseObservedAt t with
    | error e => simp [Except.toOption]
    | ok instant => cases instant <;> simp [Except.toOption]
  rw [hsame, ← extract_eq_iff hinitial (prefix_of_recentSnapshots _ _), hpoints, rebuiltPoints]
  by_cases hquiet : Quiet cfg stationId hours
  · have hrebuilt : rebuilt cfg stationId hours = .ok
        ⟨extractStationSeries (cfg.code.total default)
          (readableBodies (recentSnapshots cfg.snapshots hours)) stationId,
          readableBodies (recentSnapshots cfg.snapshots hours)⟩ :=
      rebuilt_eq_ok.mpr ⟨hquiet, rfl, rfl⟩
    rw [hrebuilt]
    simp [Except.map, hquiet]
  · refine iff_of_false (fun heq => ?_) fun hh => hquiet hh.1
    cases hrebuilt : rebuilt cfg stationId hours with
    | ok other => exact hquiet (rebuilt_eq_ok.mp hrebuilt).1
    | error e =>
      rw [hrebuilt] at heq
      cases heq

theorem mem_newestSnapshots {snapshots : List (Snapshot ρ)} {snapshot : Snapshot ρ}
    (h : snapshot ∈ newestSnapshots snapshots) : snapshot ∈ snapshots := by
  suffices hall : ∀ p ∈ latestSnapshotPerBucket snapshots, p.2 ∈ snapshots by
    obtain ⟨p, hp, rfl⟩ := List.mem_map.mp ((List.mem_insertionSort _).mp h)
    exact hall p hp
  clear h
  induction snapshots using List.reverseRecOn with
  | nil =>
    intro p hp
    cases hp
  | append_singleton snapshots last ih =>
    rw [latestSnapshotPerBucket, List.foldl_append, List.foldl_cons, List.foldl_nil]
    apply values_upsert (P := fun kept => kept ∈ snapshots ++ [last])
    · exact fun p hp => List.mem_append_left _ (ih p hp)
    · simp
    · intro kept hk
      simp only []
      split
      · simp
      · exact hk

/-- No snapshot has two observations of one station. -/
def OneObservation (snapshots : List (Snapshot ρ)) : Prop :=
  ∀ snapshot ∈ snapshots, ∀ body, snapshot.body = .ok (some body) →
    (body.map fun obs => obs.stationId.value).Nodup

theorem OneObservation.onePerStation (h : OneObservation snapshots)
    (hbodies : bodies <+: allBodies snapshots) : OnePerStation bodies := by
  intro body hb
  obtain ⟨snapshot, hs, hbody⟩ := List.mem_filterMap.mp (hbodies.subset hb)
  refine h snapshot (mem_newestSnapshots hs) body ?_
  cases hparsed : snapshot.body with
  | error e =>
    rw [hparsed] at hbody
    cases hbody
  | ok parsed =>
    rw [hparsed] at hbody
    exact congrArg Except.ok hbody

theorem warm_sound [Inhabited π] (h : OneObservation cfg.snapshots)
    (hp : p ∈ (warmStationSeries cfg).toOption.getD []) : Sound cfg p.1 p.2 := by
  cases hwarm : warmStationSeries cfg with
  | error e =>
    rw [hwarm] at hp
    cases hp
  | ok writes =>
    rw [hwarm] at hp
    replace hp : p ∈ writes := hp
    rw [warmStationSeries] at hwarm
    split at hwarm
    · obtain rfl := Except.ok.inj hwarm
      cases hp
    · obtain ⟨bodies, hbodies, hwarm⟩ := bind_eq_ok.mp hwarm
      obtain ⟨series, hseries, hwarm⟩ := bind_eq_ok.mp hwarm
      obtain rfl := Except.ok.inj hwarm
      obtain ⟨-, rfl⟩ := readBodies_eq_ok.mp hbodies
      obtain ⟨q, hq, rfl⟩ := List.mem_map.mp hp
      have hinitial := (List.take_prefix cfg.seriesHours _).trans
        (prefix_of_recentSnapshots cfg.snapshots (max cfg.animationWarmBuckets cfg.seriesHours))
      exact ⟨hinitial, extract_of_mem_pivot default (h.onePerStation hinitial)
        (mapError_eq_ok.mp hseries) hq⟩

theorem lookup_setSeries (hp : Sound cfg p.1 p.2) (h : SoundState cfg s) (landed : Bool)
    (he : (s.setSeries p landed).cache.lookup stationId = some entry) :
    Sound cfg stationId entry := by
  cases landed with
  | false => exact h.cache stationId entry he
  | true =>
    have he' : (s.cache.insert p.1 p.2).lookup stationId = some entry := he
    by_cases hid : stationId = p.1
    · subst hid
      rw [AList.lookup_insert] at he'
      obtain rfl := Option.some.inj he'
      exact hp
    · rw [AList.lookup_insert_ne hid] at he'
      exact h.cache stationId entry he'

theorem setSeries_answers (landed : Bool) : (s.setSeries p landed).answers = s.answers := by
  cases landed <;> rfl

theorem setSeries_writeBacks (landed : Bool) :
    (s.setSeries p landed).writeBacks = s.writeBacks := by
  cases landed <;> rfl

theorem setSeries_warming (landed : Bool) : (s.setSeries p landed).warming = s.warming := by
  cases landed <;> rfl

theorem SoundState.request (h : SoundState cfg s) (stationId : Int) (hours : Nat)
    (redisOk : Bool) : SoundState cfg (stationSeriesPoints cfg s stationId hours redisOk) := by
  unfold stationSeriesPoints
  split
  · rename_i entry he
    have hl : s.cache.lookup stationId = some entry := by
      by_cases hc : cfg.cacheEnabled ∧ redisOk
      · simpa [hc] using he
      · rw [if_neg hc] at he
        cases he
    constructor
    · exact h.cache
    · exact h.writeBacks
    · exact h.warming
    · intro a ha e hae
      rcases List.mem_cons.mp ha with rfl | ha
      · obtain rfl := Option.some.inj hae
        exact ⟨h.cache _ _ hl, rfl⟩
      · exact h.hits a ha e hae
    · intro a ha hae
      rcases List.mem_cons.mp ha with rfl | ha
      · cases hae
      · exact h.misses a ha hae
  · split
    · rename_i entry hrebuilt
      have hpoints : rebuiltPoints cfg stationId hours = .ok entry.points := by
        rw [rebuiltPoints, hrebuilt]
        rfl
      constructor
      · exact h.cache
      · intro q hq
        rcases List.mem_append.mp hq with hq | hq
        · exact h.writeBacks q hq
        · split at hq
          · obtain rfl := List.mem_singleton.mp hq
            exact rebuilt_sound hrebuilt
          · cases hq
      · exact h.warming
      · intro a ha e hae
        rcases List.mem_cons.mp ha with rfl | ha
        · cases hae
        · exact h.hits a ha e hae
      · intro a ha hae
        rcases List.mem_cons.mp ha with rfl | ha
        · exact hpoints.symm
        · exact h.misses a ha hae
    · rename_i e hrebuilt
      have hpoints : rebuiltPoints cfg stationId hours = .error e := by
        rw [rebuiltPoints, hrebuilt]
        rfl
      refine ⟨h.cache, h.writeBacks, h.warming, fun a ha entry hae => ?_, fun a ha hae => ?_⟩
      · rcases List.mem_cons.mp ha with rfl | ha
        · cases hae
        · exact h.hits a ha entry hae
      · rcases List.mem_cons.mp ha with rfl | ha
        · exact hpoints.symm
        · exact h.misses a ha hae

theorem SoundState.step [Inhabited π] (ho : OneObservation cfg.snapshots) {a : Action} (h : SoundState cfg s)
    (ha : seriesStep cfg s a = some t) : SoundState cfg t := by
  cases a with
  | request stationId hours redisOk =>
    simp only [seriesStep] at ha
    split at ha
    · cases ha
      exact h.request stationId hours redisOk
    · cases ha
  | writeBack i landed =>
    obtain ⟨p, hp, rfl⟩ := Option.map_eq_some_iff.mp ha
    have hs := h.writeBacks p (List.mem_of_getElem? hp)
    constructor
    · exact fun stationId entry he => lookup_setSeries hs h landed he
    · exact fun q hq => h.writeBacks q (List.mem_of_mem_eraseIdx hq)
    · rw [setSeries_warming]
      exact h.warming
    · rw [setSeries_answers]
      exact h.hits
    · rw [setSeries_answers]
      exact h.misses
  | warm =>
    cases ha
    exact ⟨h.cache, h.writeBacks, fun p hp => warm_sound ho hp, h.hits, h.misses⟩
  | warmNext landed =>
    simp only [seriesStep] at ha
    split at ha
    · rename_i p rest hw
      cases ha
      have hs := h.warming p (by simp [hw])
      constructor
      · exact fun stationId entry he => lookup_setSeries hs h landed he
      · rw [setSeries_writeBacks]
        exact h.writeBacks
      · exact fun q hq => h.warming q (by simp [hw, hq])
      · rw [setSeries_answers]
        exact h.hits
      · rw [setSeries_answers]
        exact h.misses
    · cases ha
  | stop =>
    cases ha
    exact ⟨h.cache, h.writeBacks, by simp, h.hits, h.misses⟩
  | expire stationId =>
    cases ha
    refine ⟨fun k entry he => ?_, h.writeBacks, h.warming, h.hits, h.misses⟩
    cases hk : s.cache.lookup k with
    | none => rw [lookup_erase_eq_none hk] at he; cases he
    | some kept =>
      by_cases hid : k = stationId
      · subst hid
        rw [AList.lookup_erase] at he
        cases he
      · rw [AList.lookup_erase_ne hid] at he
        exact h.cache k entry he

section Samples

/-- Two hourly snapshots with one reading of station 1 each, and a window of two hours. -/
def twoHours : SeriesConfig Ingest.StationRow PointValues where
  code := builtCode Ingest.asciiReaders fun _ _ => 0
  snapshots :=
    [⟨13 * 3600, .ok (some [observationOfRow (bareRow 1 "2026-05-17T13:00:00Z")])⟩,
      ⟨14 * 3600, .ok (some [observationOfRow (bareRow 1 "2026-05-17T14:00:00Z")])⟩]
  cacheEnabled := true
  seriesHours := 2
  animationWarmBuckets := 0

theorem twoHours_oneObservation : OneObservation twoHours.snapshots := by
  intro snapshot hs body hb
  simp only [twoHours, List.mem_cons, List.not_mem_nil, or_false] at hs
  rcases hs with rfl | rfl <;> cases hb <;> exact List.nodup_singleton _

/-- A full window asks after a full window, and after a warm-up. -/
def fullWindows : List Action :=
  [.request 1 2 true, .writeBack 0 true, .request 1 2 true, .expire 1, .warm, .warmNext true,
    .request 1 2 true]

/-- A window of one hour fills the cache for a window of two. -/
def shortWindow : List Action := [.request 1 1 true, .writeBack 0 true, .request 1 2 true]

end Samples

end DataService.Series
