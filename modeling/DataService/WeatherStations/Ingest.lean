import DataService.Lib.IsoDateTime
import DataService.Lib.Raising
import DataService.WeatherStations.Measurements
import DataService.WeatherStations.Series

/-! The rows of a snapshot, built from what the SMN API returns: any JSON list. -/

namespace DataService.Ingest

open FloatText IsoDateTime JsonValue Raising

/-- The readers of the language. -/
structure Readers where
  floats : FloatReader
  dates : IsoReader

variable (R : Readers)

/-- `parse_observed_at`. The shift to UTC raises outside the calendar. -/
def parseObservedAt : Json → Except PyError (Option Instant)
  | .str s =>
    if s = "" then .ok none
    else
      match R.dates.fromisoformat (replaceChar 'Z' "+00:00".toList s.toList) with
      | none => .ok none
      | some (t, none) => .ok (some t)
      | some (t, some offset) =>
        match t.minus offset with
        | some u => .ok (some u)
        | none => .error .overflowError
  | _ => .ok none

/-- The text of an instant with a `Z`. -/
def zuluText (t : Instant) : String :=
  String.ofList (replaceText "+00:00".toList ['Z'] 0 (isoformat t))

/-- `_normalize_observed_at` -/
def normalizeObservedAt (value : Json) : Except PyError Json :=
  (parseObservedAt R value).map fun
    | none => value
    | some t => .str (zuluText t)

inductive Wind where
  | passed (value : Json)
  | reduced (direction : Option String) (deg speed : Option Reading)

/-- `_normalize_wind` -/
def normalizeWind : Json → Except PyError Wind
  | .obj fields => do
    let deg ← toFloat R.floats (get fields "deg")
    let speed ← toFloat R.floats (get fields "speed")
    let direction := match get fields "direction" with
      | .str s => some s
      | _ => none
    pure (.reduced direction deg speed)
  | value => pure (.passed value)

structure StationRow where
  stationId : Series.StationId
  observedAt : Json
  temperature : Option Reading
  feelsLike : Option Reading
  humidity : Option Reading
  pressure : Option Reading
  visibility : Option Reading
  weather : Json
  wind : Wind

structure Snapshot where
  scrapedAt : String
  sourceUrl : String
  stations : List StationRow

/-- The station id of a row that is kept. -/
def stationIdOf : Json → Option Series.StationId
  | .obj fields =>
    match get fields "station_id" with
    | .int n => some (.int n)
    | .bool b => some (.bool b)
    | _ => none
  | _ => none

def buildRow (stationId : Series.StationId) (fields : List (String × Json)) :
    Except PyError StationRow := do
  let observedAt ← normalizeObservedAt R (get fields "date")
  let temperature ← toFloat R.floats (get fields "temperature")
  let feelsLike ← toFloat R.floats (get fields "feels_like")
  let humidity ← toFloat R.floats (get fields "humidity")
  let pressure ← toFloat R.floats (get fields "pressure")
  let visibility ← toFloat R.floats (get fields "visibility")
  let wind ← normalizeWind R (get fields "wind")
  pure ⟨stationId, observedAt, temperature, feelsLike, humidity, pressure, visibility,
    get fields "weather", wind⟩

def fieldsOf : Json → List (String × Json)
  | .obj fields => fields
  | _ => []

def buildRows : List Json → Except PyError (List StationRow)
  | [] => pure []
  | item :: items =>
    match stationIdOf item with
    | none => buildRows items
    | some stationId => do
      let row ← buildRow R stationId (fieldsOf item)
      let rows ← buildRows items
      pure (row :: rows)

/-- `_build_snapshot` -/
def buildSnapshot (scrapedAt : Instant) (sourceUrl : String) (raw : List Json) :
    Except PyError Snapshot :=
  (buildRows R raw).map fun stations => ⟨zuluText scrapedAt, sourceUrl, stations⟩

def Wind.numbers : Wind → List (Option Reading)
  | .passed _ => []
  | .reduced _ deg speed => [deg, speed]

def StationRow.numbers (row : StationRow) : List (Option Reading) :=
  [row.temperature, row.feelsLike, row.humidity, row.pressure, row.visibility] ++ row.wind.numbers

/-- Missing or finite. -/
def Clean (x : Option Reading) : Prop := ∀ r ∈ x, r.Finite

/-- No exception, a row for each item with an id, in order, and no number that is none. -/
def FailSoft (raw : List Json) : Prop :=
  ∃ rows, buildRows R raw = .ok rows ∧ rows.map (·.stationId) = raw.filterMap stationIdOf ∧
    ∀ row ∈ rows, ∀ x ∈ row.numbers, Clean x

section Tame

/-- A value that is no number too large for a double, no infinity and no text of one. -/
def Measurable : Json → Prop
  | .int n => n.natAbs < overflowBound
  | .float x => x.Finite
  | .str s => ∀ r ∈ float R.floats (decimalPointText (strip R.floats s.toList)), r.Finite
  | .null | .bool _ | .arr _ | .obj _ => True

/-- A date whose offset leaves it in the calendar. -/
def InCalendar : Json → Prop
  | .str s => ∀ t offset, R.dates.fromisoformat (replaceChar 'Z' "+00:00".toList s.toList) =
      some (t, some offset) → s ≠ "" → (t.minus offset).isSome
  | _ => True

def TameWind : Json → Prop
  | .obj fields => Measurable R (get fields "deg") ∧ Measurable R (get fields "speed")
  | _ => True

structure Tame (fields : List (String × Json)) : Prop where
  date : InCalendar R (get fields "date")
  temperature : Measurable R (get fields "temperature")
  feelsLike : Measurable R (get fields "feels_like")
  humidity : Measurable R (get fields "humidity")
  pressure : Measurable R (get fields "pressure")
  visibility : Measurable R (get fields "visibility")
  wind : TameWind R (get fields "wind")

end Tame

variable {R} {value : Json} {fields : List (String × Json)} {stationId : Series.StationId}
  {items : List Json}

theorem toFloat_clean_iff :
    (∃ x, toFloat R.floats value = .ok x ∧ Clean x) ↔ Measurable R value := by
  cases value with
  | int n =>
    have hcast : |((n : ℤ) : ℚ)| < (overflowBound : ℚ) ↔ n.natAbs < overflowBound := by
      rw [← Int.cast_abs, Int.abs_eq_natAbs, Int.cast_natCast, Nat.cast_lt]
    rw [Measurable, toFloat]
    split
    · rename_i h
      exact iff_of_false (by simp) (by omega)
    · rename_i h
      refine iff_of_true ⟨_, rfl, ?_⟩ (by omega)
      rintro r hr
      obtain rfl := Option.some.inj hr
      exact hcast.mpr (by omega)
  | float x => simp [toFloat, Measurable, Clean]
  | str s =>
    rw [Measurable, toFloat]
    by_cases hempty : strip R.floats s.toList = []
    · have hnone : float R.floats (decimalPointText []) = none := by
        simp [float, decimalPointText, replaceChar, trim, dropUnderscores, splitSign, readWord,
          readDecimal, digits]
      rw [if_pos hempty, hempty, hnone]
      exact iff_of_true ⟨none, rfl, by simp [Clean]⟩ (by simp)
    · rw [if_neg hempty]
      simp [Clean]
  | null => simp [toFloat, Measurable, Clean]
  | bool b => simp [toFloat, Measurable, Clean]
  | arr l => simp [toFloat, Measurable, Clean]
  | obj l => simp [toFloat, Measurable, Clean]

theorem parseObservedAt_ok_iff :
    (∃ t, parseObservedAt R value = .ok t) ↔ InCalendar R value := by
  cases value with
  | str s =>
    rw [InCalendar, parseObservedAt]
    by_cases hempty : s = ""
    · rw [if_pos hempty]
      exact iff_of_true ⟨none, rfl⟩ fun _ _ _ hne => absurd hempty hne
    · rw [if_neg hempty]
      split
      · rename_i hnone
        refine iff_of_true ⟨none, rfl⟩ fun _ _ heq _ => ?_
        rw [hnone] at heq
        cases heq
      · rename_i t hnaive
        refine iff_of_true ⟨some t, rfl⟩ fun _ _ heq _ => ?_
        rw [hnaive] at heq
        cases heq
      · rename_i t offset haware
        rw [haware]
        cases hminus : t.minus offset with
        | some u =>
          refine iff_of_true ⟨some u, rfl⟩ ?_
          rintro t' offset' heq -
          obtain ⟨rfl, hoffset⟩ := Prod.mk.inj (Option.some.inj heq)
          obtain rfl := Option.some.inj hoffset
          simp [hminus]
        | none =>
          refine iff_of_false (by simp) fun h => ?_
          have hsome := h t offset rfl hempty
          simp [hminus] at hsome
  | null => exact iff_of_true ⟨none, rfl⟩ trivial
  | bool b => exact iff_of_true ⟨none, rfl⟩ trivial
  | int n => exact iff_of_true ⟨none, rfl⟩ trivial
  | float x => exact iff_of_true ⟨none, rfl⟩ trivial
  | arr l => exact iff_of_true ⟨none, rfl⟩ trivial
  | obj l => exact iff_of_true ⟨none, rfl⟩ trivial

theorem normalizeObservedAt_ok_iff :
    (∃ v, normalizeObservedAt R value = .ok v) ↔ InCalendar R value := by
  rw [← parseObservedAt_ok_iff, normalizeObservedAt]
  cases parseObservedAt R value <;> simp [Except.map]

theorem normalizeWind_clean_iff :
    (∃ wind, normalizeWind R value = .ok wind ∧ ∀ x ∈ wind.numbers, Clean x) ↔
      TameWind R value := by
  cases value with
  | obj fields =>
    rw [TameWind, ← toFloat_clean_iff, ← toFloat_clean_iff, normalizeWind]
    constructor
    · rintro ⟨wind, hwind, hclean⟩
      obtain ⟨deg, hdeg, hwind⟩ := bind_eq_ok.mp hwind
      obtain ⟨speed, hspeed, hwind⟩ := bind_eq_ok.mp hwind
      obtain rfl := Except.ok.inj hwind
      exact ⟨⟨deg, hdeg, hclean deg (by simp [Wind.numbers])⟩,
        ⟨speed, hspeed, hclean speed (by simp [Wind.numbers])⟩⟩
    · rintro ⟨⟨deg, hdeg, hcleandeg⟩, ⟨speed, hspeed, hcleanspeed⟩⟩
      refine ⟨_, bind_eq_ok.mpr ⟨deg, hdeg, bind_eq_ok.mpr ⟨speed, hspeed, rfl⟩⟩, ?_⟩
      simp [Wind.numbers, hcleandeg, hcleanspeed]
  | null => exact iff_of_true ⟨_, rfl, by simp [Wind.numbers]⟩ trivial
  | bool b => exact iff_of_true ⟨_, rfl, by simp [Wind.numbers]⟩ trivial
  | int n => exact iff_of_true ⟨_, rfl, by simp [Wind.numbers]⟩ trivial
  | float x => exact iff_of_true ⟨_, rfl, by simp [Wind.numbers]⟩ trivial
  | str s => exact iff_of_true ⟨_, rfl, by simp [Wind.numbers]⟩ trivial
  | arr l => exact iff_of_true ⟨_, rfl, by simp [Wind.numbers]⟩ trivial

/-- What a row is made of, when none of the conversions raises. -/
theorem buildRow_eq_ok {row : StationRow} : buildRow R stationId fields = .ok row ↔
    row.stationId = stationId ∧ normalizeObservedAt R (get fields "date") = .ok row.observedAt ∧
    toFloat R.floats (get fields "temperature") = .ok row.temperature ∧
    toFloat R.floats (get fields "feels_like") = .ok row.feelsLike ∧
    toFloat R.floats (get fields "humidity") = .ok row.humidity ∧
    toFloat R.floats (get fields "pressure") = .ok row.pressure ∧
    toFloat R.floats (get fields "visibility") = .ok row.visibility ∧
    row.weather = get fields "weather" ∧
    normalizeWind R (get fields "wind") = .ok row.wind := by
  simp only [buildRow, bind_eq_ok]
  constructor
  · rintro ⟨observedAt, h1, temperature, h2, feelsLike, h3, humidity, h4, pressure, h5, visibility, h6,
      wind, h7, h⟩
    obtain rfl := Except.ok.inj h
    exact ⟨rfl, h1, h2, h3, h4, h5, h6, rfl, h7⟩
  · rintro ⟨hid, h1, h2, h3, h4, h5, h6, hweather, h7⟩
    refine ⟨_, h1, _, h2, _, h3, _, h4, _, h5, _, h6, _, h7, ?_⟩
    rw [← hid, ← hweather]
    rfl

theorem buildRow_clean_iff (stationId : Series.StationId) :
    (∃ row, buildRow R stationId fields = .ok row ∧ ∀ x ∈ row.numbers, Clean x) ↔
      Tame R fields := by
  constructor
  · rintro ⟨row, hrow, hclean⟩
    obtain ⟨-, h1, h2, h3, h4, h5, h6, -, h7⟩ := buildRow_eq_ok.mp hrow
    exact ⟨normalizeObservedAt_ok_iff.mp ⟨_, h1⟩,
      toFloat_clean_iff.mp ⟨_, h2, hclean _ (by simp [StationRow.numbers])⟩,
      toFloat_clean_iff.mp ⟨_, h3, hclean _ (by simp [StationRow.numbers])⟩,
      toFloat_clean_iff.mp ⟨_, h4, hclean _ (by simp [StationRow.numbers])⟩,
      toFloat_clean_iff.mp ⟨_, h5, hclean _ (by simp [StationRow.numbers])⟩,
      toFloat_clean_iff.mp ⟨_, h6, hclean _ (by simp [StationRow.numbers])⟩,
      normalizeWind_clean_iff.mp ⟨_, h7, fun x hx => hclean x (List.mem_append_right _ hx)⟩⟩
  · intro h
    obtain ⟨observedAt, h1⟩ := normalizeObservedAt_ok_iff.mpr h.date
    obtain ⟨temperature, h2, hc2⟩ := toFloat_clean_iff.mpr h.temperature
    obtain ⟨feelsLike, h3, hc3⟩ := toFloat_clean_iff.mpr h.feelsLike
    obtain ⟨humidity, h4, hc4⟩ := toFloat_clean_iff.mpr h.humidity
    obtain ⟨pressure, h5, hc5⟩ := toFloat_clean_iff.mpr h.pressure
    obtain ⟨visibility, h6, hc6⟩ := toFloat_clean_iff.mpr h.visibility
    obtain ⟨wind, h7, hc7⟩ := normalizeWind_clean_iff.mpr h.wind
    refine ⟨⟨stationId, observedAt, temperature, feelsLike, humidity, pressure, visibility,
      get fields "weather", wind⟩, buildRow_eq_ok.mpr ⟨rfl, h1, h2, h3, h4, h5, h6, rfl, h7⟩, ?_⟩
    intro x hx
    rcases List.mem_append.mp hx with hx | hx
    · simp only [List.mem_cons, List.not_mem_nil, or_false] at hx
      rcases hx with rfl | rfl | rfl | rfl | rfl
      · exact hc2
      · exact hc3
      · exact hc4
      · exact hc5
      · exact hc6
    · exact hc7 x hx

/-- A list of observations is ingested as promised exactly if every item with a station id has
a date that stays in the calendar and no measurement beyond the doubles. -/
theorem failSoft_iff (R : Readers) (raw : List Json) :
    FailSoft R raw ↔ ∀ item ∈ raw, (stationIdOf item).isSome → Tame R (fieldsOf item) := by
  induction raw with
  | nil =>
    refine iff_of_true ⟨[], rfl, rfl, ?_⟩ (by simp)
    intro row hrow
    cases hrow
  | cons item items ih =>
    rw [List.forall_mem_cons, ← ih]
    cases hid : stationIdOf item with
    | none => simp [FailSoft, buildRows, hid]
    | some stationId =>
      simp only [FailSoft, buildRows, hid, bind_eq_ok, Option.isSome_some, forall_const,
        ← buildRow_clean_iff stationId, List.filterMap_cons_some hid]
      constructor
      · rintro ⟨rows, ⟨row, hrow, rest, hrest, hrows⟩, hids, hclean⟩
        obtain rfl := Except.ok.inj hrows
        rw [List.map_cons, List.cons.injEq] at hids
        exact ⟨⟨row, hrow, hclean row List.mem_cons_self⟩, rest, hrest, hids.2,
          fun r hr => hclean r (List.mem_cons_of_mem row hr)⟩
      · rintro ⟨⟨row, hrow, hclean⟩, rest, hrest, hids, hrestclean⟩
        refine ⟨row :: rest, ⟨row, hrow, rest, hrest, rfl⟩, ?_, ?_⟩
        · rw [List.map_cons, hids, (buildRow_eq_ok.mp hrow).1]
        · intro r hr
          rcases List.mem_cons.mp hr with rfl | hr
          · exact hclean
          · exact hrestclean r hr

def asciiReaders : Readers := ⟨.asciiOnly, .canonical⟩

/-- A temperature that the reader takes for infinity, a humidity with too many digits, and a date
of the first year in an eastern time zone. -/
theorem odd_reading_not_absorbed :
    ¬ FailSoft asciiReaders [.obj [("station_id", .int 1), ("temperature", .str "inf")]] ∧
    buildRows asciiReaders [.obj [("station_id", .int 1), ("humidity", .int (10 ^ 400))]] =
      .error .overflowError ∧
    buildRows asciiReaders [.obj [("station_id", .int 1),
      ("date", .str "0001-01-01T00:00:00+14:00")]] = .error .overflowError := by
  have hbig : overflowBound ≤ (10 ^ 400 : ℤ).natAbs := by decide +kernel
  refine ⟨?_, ?_, rfl⟩
  · rintro ⟨rows, hrows, -, hclean⟩
    obtain rfl := Except.ok.inj hrows
    have hfinite := hclean _ List.mem_cons_self (some .infinity) List.mem_cons_self
    exact hfinite .infinity rfl
  · have hraises : toFloat asciiReaders.floats (.int (10 ^ 400)) = .error .overflowError := by
      rw [toFloat, if_pos hbig]
    have hid : stationIdOf (.obj [("station_id", .int 1), ("humidity", .int (10 ^ 400))]) =
        some (.int 1) := rfl
    have hget : get (fieldsOf (.obj [("station_id", .int 1), ("humidity", .int (10 ^ 400))]))
        "humidity" = .int (10 ^ 400) := rfl
    simp only [buildRows, hid, buildRow, hget, hraises]
    rfl

end DataService.Ingest
