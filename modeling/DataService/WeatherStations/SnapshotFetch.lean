import DataService.WeatherStations.BucketAgreement
import DataService.WeatherStations.DewPoint
import DataService.WeatherStations.Ingest

/-! The fetch of one hour's snapshot with its freshness flags, and the exceptions that leave it:
dates at the ends of the calendar, and stored values that the annotations cannot take. -/

namespace DataService.SnapshotFetch

open DecimalText DewPoint Doubles FloatText HourBuckets Ingest IsoDateTime JsonValue Latest Raising
  UtcDateTime

/-- What leaves the fetch in place of a value. -/
inductive FetchError where
  | tilesetIdFormatError
  | notLoaded (e : LoadError)
  | raised (e : PyError)
  deriving DecidableEq

/-- What `json.loads` makes of stored bytes. -/
abbrev Loaded := Except LoadError Json

abbrev Fields := List (String × Json)

/-- `parse_json_or_none`, which expects two of the exceptions. -/
def parseJsonOrNone : Loaded → Except FetchError (Option Fields)
  | .ok (.obj fields) => .ok (some fields)
  | .ok _ | .error .unicodeDecodeError | .error .jsonDecodeError => .ok none
  | .error e => .error (.notLoaded e)

def parseIfAny : Option Loaded → Except FetchError (Option Fields)
  | some loaded => parseJsonOrNone loaded
  | none => .ok none

/-- `_get_snapshot_body` -/
def getSnapshotBody (cached stored : Option Loaded) : Except FetchError (Option Fields) := do
  let hit ← parseIfAny cached
  match hit with
  | some fields => pure (some fields)
  | none => parseIfAny stored

/-- One round of a loop that passes over what is no object. -/
def annotateEach (annotate : Fields → Except PyError Fields) : Json → Except PyError Json
  | .obj obs => (annotate obs).map .obj
  | value => .ok value

/-- A loop over the stations of a body. -/
def overStations (annotate : Fields → Except PyError Fields) (body : Fields) :
    Except PyError Fields :=
  match get body "stations" with
  | .arr stations => do
    let annotated ← stations.mapM (annotateEach annotate)
    pure (setField "stations" (.arr annotated) body)
  | _ => pure body

variable (R : Readers) (D : DigitTable) (formula : ℚ → ℚ → ℚ)

def addDewPoint (obs : Fields) : Except PyError Fields :=
  (magnusDewPoint R.floats formula (get obs "temperature") (get obs "humidity")).map fun dewPoint =>
    setField "dew_point" (numberJson dewPoint) obs

/-- `annotate_dew_point` -/
def annotateDewPoint (body : Fields) : Except PyError Fields :=
  overStations (addDewPoint R formula) body

/-- The microseconds of `timedelta(hours=…)`: the whole hours, and the rest as a double. -/
def graceMicros (graceHours : ℚ) : ℕ :=
  (⌊graceHours⌋ * 3600000000 +
    roundEven (toDouble ((graceHours - ⌊graceHours⌋) * 3600000000))).toNat

def atSecond (t : DateTime) : Instant := ⟨t, 0, Instant.zero_micro_lt⟩

def addIsCurrent (windowStart : Instant) (obs : Fields) : Except PyError Fields :=
  (parseObservedAt R (get obs "observed_at")).map fun ts =>
    setField "is_current" (.bool (ts.any fun ts => decide (windowStart ≤ ts))) obs

/-- `_annotate_is_current` -/
def annotateIsCurrent (body : Fields) (target : DateTime) (graceHours : ℚ) :
    Except PyError Fields :=
  match (atSecond target).before (graceMicros graceHours) with
  | none => .error .overflowError
  | some windowStart => overStations (addIsCurrent R windowStart) body

/-- Both annotations, for a body that was found. -/
def annotated (target : DateTime) (graceHours : ℚ) (body : Fields) : Except PyError Fields := do
  let body ← annotateDewPoint R formula body
  annotateIsCurrent R body target graceHours

def annotateFound (target : DateTime) (graceHours : ℚ) :
    Option Fields → Except FetchError (Option Fields)
  | none => .ok none
  | some body => ((annotated R formula target graceHours body).map some).mapError .raised

/-- `get_snapshot_for_tileset`, with what is listed below a prefix and what Redis and S3 have
for a key; a request that fails finds nothing. -/
def getSnapshotForTileset (list : S3Key → List S3Key) (redis s3 : S3Key → Option Loaded)
    (tilesetId : List Char) (graceHours : ℚ) : Except FetchError (Option Fields) :=
  if graceHours < 0 then .error (.raised .valueError)
  else
    match parseTilesetId D tilesetId with
    | none => .error .tilesetIdFormatError
    | some target =>
      match resolveBucketSnapshotKey D list target with
      | none => .error (.raised .overflowError)
      | some none => .ok none
      | some (some key) =>
        getSnapshotBody (redis key) (s3 key) >>= annotateFound R formula target graceHours

/-- The route expects one exception only. -/
def Handled (outcome : Except FetchError (Option Fields)) : Prop :=
  ∀ e, outcome = .error e → e = .tilesetIdFormatError

section Condition

def LastDay (t : DateTime) : Prop := t.year = 9999 ∧ t.month = 12 ∧ t.day = 31

/-- The latest snapshot of the hour among those that are listed. -/
def Representative (list : S3Key → List S3Key) (target : DateTime) (key : S3Key) : Prop :=
  ∃ bucketEnd ts, target.addHour = some bucketEnd ∧
    latest (timeWithin D target bucketEnd) (list (dayPrefix target)) = some (ts, key)

/-- The bytes are read as a value, or found to be no text or no JSON. -/
def Loads : Loaded → Prop
  | .error .valueError | .error .recursionError => False
  | _ => True

/-- The object that a fetch reads. -/
def Served (cached stored : Option Loaded) (body : Fields) : Prop :=
  cached = some (.ok (.obj body)) ∨
    (∀ other, cached ≠ some (.ok (.obj other))) ∧ stored = some (.ok (.obj body))

/-- The window of freshness starts before the calendar does. -/
def BeforeCalendar (target : DateTime) (graceHours : ℚ) : Prop :=
  target.year = 1 ∧ target.month = 1 ∧
    (target.day - 1 : Int) * dayLength + (atSecond target).sinceMidnight < graceMicros graceHours

/-- A station whose dew point is harmless and whose timestamp stays in the calendar. -/
structure Annotates (obs : Fields) : Prop where
  dewPoint : ¬ DewRaises R.floats (get obs "temperature") (get obs "humidity")
  observedAt : InCalendar R (get obs "observed_at")

structure Digestible (target : DateTime) (graceHours : ℚ) (cached stored : Option Loaded) :
    Prop where
  cachedLoads : ∀ loaded ∈ cached, Loads loaded
  storedLoads : (∀ other, cached ≠ some (.ok (.obj other))) → ∀ loaded ∈ stored, Loads loaded
  window : ∀ body, Served cached stored body → ¬ BeforeCalendar target graceHours
  stations : ∀ body, Served cached stored body → ∀ stations, get body "stations" = .arr stations →
    ∀ obs, .obj obs ∈ stations → Annotates R obs

end Condition

variable {R D formula} {cached stored : Option Loaded} {body obs : Fields} {target : DateTime}
  {graceHours : ℚ} {annotate : Fields → Except PyError Fields}

section Stations

theorem annotateEach_raises_iff {value : Json} : (∃ e, annotateEach annotate value = .error e) ↔
    ∃ obs, value = .obj obs ∧ ∃ e, annotate obs = .error e := by
  cases value with
  | obj obs =>
    simp only [annotateEach, Json.obj.injEq, exists_eq_left']
    cases annotate obs <;> simp [Except.map]
  | null => simp [annotateEach]
  | bool b => simp [annotateEach]
  | int n => simp [annotateEach]
  | float x => simp [annotateEach]
  | str s => simp [annotateEach]
  | arr l => simp [annotateEach]

theorem annotateEach_eq_obj {value : Json} : annotateEach annotate value = .ok (.obj obs) ↔
    ∃ before, value = .obj before ∧ annotate before = .ok obs := by
  cases value with
  | obj before =>
    simp only [annotateEach, Json.obj.injEq, exists_eq_left']
    cases annotate before <;> simp [Except.map]
  | null => simp [annotateEach]
  | bool b => simp [annotateEach]
  | int n => simp [annotateEach]
  | float x => simp [annotateEach]
  | str s => simp [annotateEach]
  | arr l => simp [annotateEach]

/-- Whether the body has a station of some kind. -/
def HasStation (P : Fields → Prop) (body : Fields) : Prop :=
  ∃ stations, get body "stations" = .arr stations ∧ ∃ obs, .obj obs ∈ stations ∧ P obs

theorem overStations_raises_iff : (∃ e, overStations annotate body = .error e) ↔
    HasStation (fun obs => ∃ e, annotate obs = .error e) body := by
  rw [HasStation, overStations]
  cases hstations : get body "stations" with
  | arr stations =>
    have hmap : (∃ e, (do
        let annotated ← stations.mapM (annotateEach annotate)
        pure (setField "stations" (.arr annotated) body)) = .error e) ↔
          ∃ e, stations.mapM (annotateEach annotate) = .error e := by
      cases stations.mapM (annotateEach annotate) <;> simp [bind, Except.bind, pure, Except.pure]
    simp only [hmap, mapM_raises_iff, annotateEach_raises_iff, Json.arr.injEq, exists_eq_left']
    constructor
    · rintro ⟨-, hmem, obs, rfl, he⟩
      exact ⟨obs, hmem, he⟩
    · rintro ⟨obs, hmem, he⟩
      exact ⟨_, hmem, obs, rfl, he⟩
  | null => simp [pure_ne_error]
  | bool b => simp [pure_ne_error]
  | int n => simp [pure_ne_error]
  | float x => simp [pure_ne_error]
  | str s => simp [pure_ne_error]
  | obj l => simp [pure_ne_error]

/-- The stations after a loop are those before it, annotated. -/
theorem hasStation_overStations {P : Fields → Prop} {after : Fields}
    (h : overStations annotate body = .ok after) :
    HasStation P after ↔ HasStation (fun obs => ∃ obs', annotate obs = .ok obs' ∧ P obs') body := by
  rw [overStations] at h
  cases hstations : get body "stations" with
  | arr stations =>
    rw [hstations] at h
    obtain ⟨annotated, hmap, h⟩ := bind_eq_ok.mp h
    obtain rfl := Except.ok.inj h
    simp only [HasStation, get_setField_self, hstations, Json.arr.injEq, exists_eq_left',
      mem_mapM_ok hmap, annotateEach_eq_obj]
    constructor
    · rintro ⟨obs', ⟨-, hmem, obs, rfl, hobs⟩, hp⟩
      exact ⟨obs, hmem, obs', hobs, hp⟩
    · rintro ⟨obs, hmem, obs', hobs, hp⟩
      exact ⟨obs', ⟨_, hmem, obs, rfl, hobs⟩, hp⟩
  | null => simp_all [HasStation, pure, Except.pure]
  | bool b => simp_all [HasStation, pure, Except.pure]
  | int n => simp_all [HasStation, pure, Except.pure]
  | float x => simp_all [HasStation, pure, Except.pure]
  | str s => simp_all [HasStation, pure, Except.pure]
  | obj l => simp_all [HasStation, pure, Except.pure]

theorem addDewPoint_raises_iff : (∃ e, addDewPoint R formula obs = .error e) ↔
    DewRaises R.floats (get obs "temperature") (get obs "humidity") := by
  rw [← magnusDewPoint_raises_iff formula, addDewPoint]
  cases magnusDewPoint R.floats formula (get obs "temperature") (get obs "humidity") <;>
    simp [Except.map]

theorem addIsCurrent_raises_iff {windowStart : Instant} :
    (∃ e, addIsCurrent R windowStart obs = .error e) ↔ ¬ InCalendar R (get obs "observed_at") := by
  rw [← parseObservedAt_ok_iff, addIsCurrent]
  cases parseObservedAt R (get obs "observed_at") <;> simp [Except.map]

/-- The first loop leaves the timestamps as they are. -/
theorem observedAt_addDewPoint {obs' : Fields} (h : addDewPoint R formula obs = .ok obs') :
    get obs' "observed_at" = get obs "observed_at" := by
  rw [addDewPoint] at h
  cases hdew : magnusDewPoint R.floats formula (get obs "temperature") (get obs "humidity") with
  | error e =>
    rw [hdew] at h
    cases h
  | ok dewPoint =>
    rw [hdew] at h
    obtain rfl := Except.ok.inj h
    exact get_setField_ne (by decide)

/-- The annotations raise exactly if a dew point does, or the window starts too early, or a
timestamp leaves the calendar. -/
theorem annotated_raises_iff : (∃ e, annotated R formula target graceHours body = .error e) ↔
    HasStation (fun obs => DewRaises R.floats (get obs "temperature") (get obs "humidity")) body ∨
    (atSecond target).before (graceMicros graceHours) = none ∨
    HasStation (fun obs => ¬ InCalendar R (get obs "observed_at")) body := by
  have hdew : (∃ e, annotateDewPoint R formula body = .error e) ↔ HasStation (fun obs =>
      DewRaises R.floats (get obs "temperature") (get obs "humidity")) body := by
    simp only [annotateDewPoint, overStations_raises_iff, addDewPoint_raises_iff]
  rw [annotated, ← hdew]
  cases hfirst : annotateDewPoint R formula body with
  | error e => simp [bind, Except.bind]
  | ok after =>
    have hquiet : ¬ HasStation (fun obs => ∃ e, addDewPoint R formula obs = .error e) body := by
      rw [← overStations_raises_iff, ← annotateDewPoint, hfirst]
      simp
    simp only [bind, Except.bind, reduceCtorEq, exists_false, false_or, annotateIsCurrent]
    cases hwindow : (atSecond target).before (graceMicros graceHours) with
    | none => simp
    | some windowStart =>
      simp only [overStations_raises_iff, addIsCurrent_raises_iff, reduceCtorEq, false_or,
        hasStation_overStations hfirst]
      constructor
      · rintro ⟨stations, hstations, obs, hobs, obs', hadd, hdate⟩
        rw [observedAt_addDewPoint hadd] at hdate
        exact ⟨stations, hstations, obs, hobs, hdate⟩
      · rintro ⟨stations, hstations, obs, hobs, hdate⟩
        cases hadd : addDewPoint R formula obs with
        | error e => exact absurd ⟨stations, hstations, obs, hobs, e, hadd⟩ hquiet
        | ok obs' =>
          rw [← observedAt_addDewPoint hadd] at hdate
          exact ⟨stations, hstations, obs, hobs, obs', hadd, hdate⟩

end Stations

section Window

theorem graceMicros_le (h48 : graceHours ≤ 48) : graceMicros graceHours ≤ 2332800000000 := by
  have hfloor : ⌊graceHours⌋ ≤ 48 := Int.floor_le_iff.mpr (by push_cast; linarith)
  have hrest : 0 ≤ graceHours - ⌊graceHours⌋ := by linarith [Int.floor_le graceHours]
  have hlt : graceHours - ⌊graceHours⌋ < 1 := by linarith [Int.lt_floor_add_one graceHours]
  have hsmall : |(graceHours - ⌊graceHours⌋) * 3600000000| < 2 ^ 52 := by
    rw [abs_of_nonneg (by positivity)]
    calc (graceHours - ⌊graceHours⌋) * 3600000000 ≤ 1 * 3600000000 :=
          mul_le_mul_of_nonneg_right hlt.le (by norm_num)
      _ < 2 ^ 52 := by norm_num
  have hdouble := toDouble_le hsmall
  have hround := roundEven_le (x := toDouble ((graceHours - ⌊graceHours⌋) * 3600000000))
  have hbound : (roundEven (toDouble ((graceHours - ⌊graceHours⌋) * 3600000000)) : ℚ) <
      3600000003 := by linarith
  have hint : roundEven (toDouble ((graceHours - ⌊graceHours⌋) * 3600000000)) < 3600000003 := by
    exact_mod_cast hbound
  rw [graceMicros]
  omega

theorem window_eq_none_iff (h48 : graceHours ≤ 48) :
    (atSecond target).before (graceMicros graceHours) = none ↔ BeforeCalendar target graceHours :=
  before_eq_none_iff (graceMicros_le h48)

end Window

section Reads

theorem parseIfAny_cases (o : Option Loaded) :
    (∃ body, o = some (.ok (.obj body)) ∧ parseIfAny o = .ok (some body)) ∨
    (∀ body, o ≠ some (.ok (.obj body))) ∧
      ((∀ loaded ∈ o, Loads loaded) ∧ parseIfAny o = .ok none ∨
        ¬ (∀ loaded ∈ o, Loads loaded) ∧ ∃ e, parseIfAny o = .error (.notLoaded e)) := by
  cases o with
  | none => exact .inr ⟨by simp, .inl ⟨by simp, rfl⟩⟩
  | some loaded =>
    cases loaded with
    | error e =>
      refine .inr ⟨by simp, ?_⟩
      cases e with
      | unicodeDecodeError => exact .inl ⟨by simp [Loads], rfl⟩
      | jsonDecodeError => exact .inl ⟨by simp [Loads], rfl⟩
      | valueError => exact .inr ⟨by simp [Loads], _, rfl⟩
      | recursionError => exact .inr ⟨by simp [Loads], _, rfl⟩
    | ok value =>
      cases value with
      | obj body => exact .inl ⟨body, rfl, rfl⟩
      | null => exact .inr ⟨by simp, .inl ⟨by simp [Loads], rfl⟩⟩
      | bool b => exact .inr ⟨by simp, .inl ⟨by simp [Loads], rfl⟩⟩
      | int n => exact .inr ⟨by simp, .inl ⟨by simp [Loads], rfl⟩⟩
      | float x => exact .inr ⟨by simp, .inl ⟨by simp [Loads], rfl⟩⟩
      | str s => exact .inr ⟨by simp, .inl ⟨by simp [Loads], rfl⟩⟩
      | arr l => exact .inr ⟨by simp, .inl ⟨by simp [Loads], rfl⟩⟩

/-- What is read from Redis and S3, and when the reading raises. -/
theorem getSnapshotBody_cases (cached stored : Option Loaded) :
    (¬ ((∀ loaded ∈ cached, Loads loaded) ∧
        ((∀ other, cached ≠ some (.ok (.obj other))) → ∀ loaded ∈ stored, Loads loaded)) ∧
      ∃ e, getSnapshotBody cached stored = .error (.notLoaded e)) ∨
    ((∀ loaded ∈ cached, Loads loaded) ∧
        ((∀ other, cached ≠ some (.ok (.obj other))) → ∀ loaded ∈ stored, Loads loaded)) ∧
      ∃ found, getSnapshotBody cached stored = .ok found ∧
        ∀ body, Served cached stored body ↔ found = some body := by
  rcases parseIfAny_cases cached with ⟨body, rfl, hparse⟩ |
    ⟨hnone, ⟨hloads, hparse⟩ | ⟨hraises, e, hparse⟩⟩
  · refine .inr ⟨⟨by simp [Loads], fun hno => absurd rfl (hno body)⟩, some body, ?_, ?_⟩
    · rw [getSnapshotBody, hparse]
      rfl
    · simp [Served]
  · have hread : getSnapshotBody cached stored = parseIfAny stored := by
      rw [getSnapshotBody, hparse]
      rfl
    rw [hread]
    rcases parseIfAny_cases stored with ⟨body, rfl, hstored⟩ |
      ⟨hnone', ⟨hloads', hstored⟩ | ⟨hraises', e, hstored⟩⟩
    · refine .inr ⟨⟨hloads, fun _ => by simp [Loads]⟩, some body, hstored, ?_⟩
      simp [Served, hnone]
    · refine .inr ⟨⟨hloads, fun _ => hloads'⟩, none, hstored, ?_⟩
      simp [Served, hnone, hnone']
    · exact .inl ⟨fun h => hraises' (h.2 hnone), e, hstored⟩
  · refine .inl ⟨fun h => hraises h.1, e, ?_⟩
    rw [getSnapshotBody, hparse]
    rfl

end Reads

section Whole

variable {list : S3Key → List S3Key}

theorem resolve_cases (D : DigitTable) (list : S3Key → List S3Key) (target : DateTime) :
    (LastDay target ∧ resolveBucketSnapshotKey D list target = none) ∨
    ¬ LastDay target ∧ ∃ found, resolveBucketSnapshotKey D list target = some found ∧
      ∀ key, Representative D list target key ↔ found = some key := by
  by_cases hlast : LastDay target
  · have hday : target.floorDay.addDay = none := DateTime.addDay_eq_none_iff.mpr hlast
    have hprefixes : dayPrefixesCovering target target = none := by
      rw [dayPrefixesCovering, if_neg (lt_irrefl target), dayPrefixesFrom, dif_pos le_rfl]
      split
      · rfl
      · next next hnext => simp [hday] at hnext
    refine .inl ⟨hlast, ?_⟩
    rw [resolveBucketSnapshotKey, listSnapshotKeysForWindow, hprefixes]
    cases target.addHour <;> rfl
  · obtain ⟨next, hnext⟩ := Option.ne_none_iff_exists'.mp
      (mt DateTime.addDay_eq_none_iff.mp hlast : target.addDay ≠ none)
    obtain ⟨nextDay, hnextDay⟩ := Option.ne_none_iff_exists'.mp
      (mt DateTime.addDay_eq_none_iff.mp hlast : target.floorDay.addDay ≠ none)
    obtain ⟨bucketEnd, hend⟩ := DateTime.exists_addHour_of_addDay hnext
    refine .inr ⟨hlast, (latest (timeWithin D target bucketEnd) (list (dayPrefix target))).map
      Prod.snd, ?_, fun key => ?_⟩
    · simp [resolveBucketSnapshotKey, listSnapshotKeysForWindow, hend,
        dayPrefixesCovering_of_addDay hnextDay]
    · simp [Representative, hend]

theorem handled_ok (found : Option Fields) : Handled (.ok found) := fun _ h => nomatch h

/-- Behind the listing, the fetch of a key is handled exactly if its bodies can be digested. -/
theorem handled_found_iff (h48 : graceHours ≤ 48) :
    Handled (getSnapshotBody cached stored >>= annotateFound R formula target graceHours) ↔
      Digestible R target graceHours cached stored := by
  rcases getSnapshotBody_cases cached stored with ⟨hraises, e, hread⟩ |
    ⟨⟨hcached, hstored⟩, found, hread, hserved⟩
  · rw [hread]
    refine iff_of_false (fun h => ?_) fun h => hraises ⟨h.cachedLoads, h.storedLoads⟩
    cases h (.notLoaded e) rfl
  · have hbind : (getSnapshotBody cached stored >>= annotateFound R formula target graceHours) =
        annotateFound R formula target graceHours found := by
      rw [hread]
      rfl
    rw [hbind]
    cases found with
    | none =>
      refine iff_of_true (handled_ok none) ⟨hcached, hstored, fun body h => ?_, fun body h => ?_⟩
      · cases (hserved body).mp h
      · cases (hserved body).mp h
    | some body =>
      have hhandled : Handled (annotateFound R formula target graceHours (some body)) ↔
          ¬ ∃ e, annotated R formula target graceHours body = .error e := by
        rw [annotateFound]
        cases annotated R formula target graceHours body with
        | ok after => exact iff_of_true (handled_ok _) (by simp)
        | error e =>
          refine iff_of_false (fun h => ?_) (by simp)
          cases h (.raised e) rfl
      have hbody : ∀ other, Served cached stored other ↔ other = body := fun other => by
        rw [hserved other, Option.some.injEq, eq_comm]
      rw [hhandled, annotated_raises_iff, window_eq_none_iff h48]
      constructor
      · intro h
        obtain ⟨hdew, h⟩ := not_or.mp h
        obtain ⟨hwindow, hdate⟩ := not_or.mp h
        refine ⟨hcached, hstored, fun _ _ => hwindow, fun other hother stations hstations obs hobs => ?_⟩
        obtain rfl := (hbody other).mp hother
        refine ⟨fun hraises => hdew ⟨stations, hstations, obs, hobs, hraises⟩, ?_⟩
        by_contra hout
        exact hdate ⟨stations, hstations, obs, hobs, hout⟩
      · intro h
        have hown := (hbody body).mpr rfl
        rintro (⟨stations, hstations, obs, hobs, hraises⟩ | hearly | ⟨stations, hstations, obs, hobs,
          hout⟩)
        · exact (h.stations body hown stations hstations obs hobs).dewPoint hraises
        · exact h.window body hown hearly
        · exact hout (h.stations body hown stations hstations obs hobs).observedAt

end Whole

/-- A fetch ends as the route expects exactly if the hour is not of the last day of the calendar,
and the snapshot that stands for it can be digested. -/
theorem fetch_handled_iff (R : Readers) (D : DigitTable) (formula : ℚ → ℚ → ℚ)
    (list : S3Key → List S3Key) (redis s3 : S3Key → Option Loaded) (tilesetId : List Char)
    (graceHours : ℚ) (h0 : 0 ≤ graceHours) (h48 : graceHours ≤ 48) :
    Handled (getSnapshotForTileset R D formula list redis s3 tilesetId graceHours) ↔
      ∀ target, parseTilesetId D tilesetId = some target → ¬ LastDay target ∧
        ∀ key, Representative D list target key →
          Digestible R target graceHours (redis key) (s3 key) := by
  rw [getSnapshotForTileset, if_neg (not_lt.mpr h0)]
  cases htarget : parseTilesetId D tilesetId with
  | none =>
    refine iff_of_true (fun e he => ?_) (by simp)
    cases he
    rfl
  | some target =>
    simp only [Option.some.injEq, forall_eq']
    rcases resolve_cases D list target with ⟨hlast, hresolve⟩ | ⟨hlast, found, hresolve, hkey⟩
    · rw [hresolve]
      refine iff_of_false (fun h => ?_) fun h => h.1 hlast
      cases h (.raised .overflowError) rfl
    · rw [hresolve]
      cases found with
      | none =>
        refine iff_of_true (handled_ok none) ⟨hlast, fun key hrepresentative => ?_⟩
        cases (hkey key).mp hrepresentative
      | some key =>
        simp only [handled_found_iff h48, hlast, not_false_eq_true, true_and, hkey,
          Option.some.injEq, forall_eq']

section Samples

/-- Twenty degrees at two in the afternoon. -/
def mildBody : Loaded := .ok (.obj [("stations", .arr [.obj [("observed_at", .str "2026-05-17T14:00:00Z"),
  ("temperature", .float (.number 20)), ("humidity", .float (.number 50))]])])

def afternoon : DateTime := ⟨2026, 5, 17, 14, 0, 0, by decide⟩

theorem fetch_handled_mild : Handled (getSnapshotForTileset asciiReaders .asciiOnly (fun _ _ => 0)
    (fun _ => [snapshotKey afternoon]) (fun _ => none) (fun _ => some mildBody)
    "20260517T1400Z".toList 2) := by
  refine (fetch_handled_iff _ _ _ _ _ _ _ _ (by norm_num) (by norm_num)).mpr fun target htarget => ?_
  have hparse : parseTilesetId .asciiOnly "20260517T1400Z".toList = some afternoon := by
    decide +kernel
  obtain rfl := Option.some.inj (hparse.symm.trans htarget)
  refine ⟨fun hlast => absurd hlast.1 (by decide), fun key _ => ⟨by simp, by simp [mildBody, Loads],
    fun body _ hearly => absurd hearly.1 (by decide), ?_⟩⟩
  rintro body (h | ⟨-, h⟩)
  · cases h
  · cases h
    rintro _ ⟨⟩ obs hobs
    obtain rfl : _ = obs := Json.obj.inj (List.mem_singleton.mp hobs).symm
    refine ⟨?_, parseObservedAt_ok_iff.mp ⟨some _, rfl⟩⟩
    rintro ⟨-, -, hlarge | ⟨x, hx, hlarge | ⟨y, hy, t, hr, -, hhr, -, -, -, -, hzero⟩⟩⟩
    · exact hlarge
    · exact hlarge
    · cases hy
      have hfifty : finiteDouble (.number 50) = some 50 := by decide +kernel
      obtain rfl := Option.some.inj (hfifty.symm.trans hhr)
      exact absurd hzero (by decide +kernel)

/-- The last day of the calendar is well formed and has no day after it. -/
theorem last_day_not_handled : ¬ ∀ (R : Readers) (D : DigitTable) (formula : ℚ → ℚ → ℚ)
    (list : S3Key → List S3Key) (redis s3 : S3Key → Option Loaded) (tilesetId : List Char)
    (graceHours : ℚ), 0 ≤ graceHours → graceHours ≤ 48 →
      Handled (getSnapshotForTileset R D formula list redis s3 tilesetId graceHours) := by
  intro h
  have hhandled := h asciiReaders .asciiOnly (fun _ _ => 0) (fun _ => []) (fun _ => none)
    (fun _ => none) "99991231T1200Z".toList 0 le_rfl (by norm_num)
  have hparse : parseTilesetId .asciiOnly "99991231T1200Z".toList =
      some ⟨9999, 12, 31, 12, 0, 0, by decide⟩ := by decide +kernel
  rw [getSnapshotForTileset, if_neg (lt_irrefl 0), hparse] at hhandled
  rcases resolve_cases .asciiOnly (fun _ => []) ⟨9999, 12, 31, 12, 0, 0, by decide⟩ with
    ⟨-, hresolve⟩ | ⟨hlast, -⟩
  · simp only [hresolve] at hhandled
    cases hhandled (.raised .overflowError) rfl
  · exact hlast ⟨rfl, rfl, rfl⟩

end Samples

end DataService.SnapshotFetch
