import DataService.Lib.IsoDateTime
import DataService.Lib.Raising
import DataService.WeatherStations.Measurements

/-! The parser of the station registry: fixed-width rows whose tail is matched by a regular
expression, and which raises nothing but what the conversion of a coordinate lets through. -/

namespace DataService.RegistryText

open FloatText IsoDateTime Raising

/-- A regular expression without nested repetitions, anchored at both ends. A repetition takes
from `least` to `most` characters of a class, the most first if it is greedy. -/
inductive Pattern (γ : Type) where
  | done
  | rep (group : Option γ) (cls : Char → Bool) (least : Nat) (most : Option Nat) (greedy : Bool)
      (next : Pattern γ)
  | opt (taken skipped : Pattern γ)

namespace Pattern

variable {γ : Type}

/-- The lengths that a repetition tries, in their order. -/
def lengths (cls : Char → Bool) (least : Nat) (most : Option Nat) (greedy : Bool)
    (cs : List Char) : List Nat :=
  let available := (cs.takeWhile cls).length
  let upTo := (List.range (most.elim available (min available) + 1)).filter (least ≤ ·)
  if greedy then upTo.reverse else upTo

/-- The characters that each repetition of a group takes, in the first match found. -/
def captures : Pattern γ → List Char → Option (List (γ × List Char))
  | done, cs => if cs = [] then some [] else none
  | rep group cls least most greedy next, cs =>
    (lengths cls least most greedy cs).findSome? fun n =>
      (next.captures (cs.drop n)).map fun found =>
        (group.map fun g => (g, cs.take n)).toList ++ found
  | opt taken skipped, cs => (taken.captures cs).or (skipped.captures cs)

end Pattern

inductive Group where
  | province | latDeg | latMin | lonDeg | lonMin | altura | nro | oaci
  deriving DecidableEq, Repr

/-- The text of a group: none if no repetition of it took part. -/
def groupText (found : List (Group × List Char)) (group : Group) : Option (List Char) :=
  if found.any (·.1 = group) then some ((found.filter (·.1 = group)).flatMap Prod.snd) else none

variable (R : FloatReader)

def isDigit (c : Char) : Bool := (R.value c).isSome

def isOaci (c : Char) : Bool := c.isUpper || c.isDigit

def spaces (least : Nat) (next : Pattern Group) : Pattern Group :=
  .rep none R.isSpace least none true next

/-- `-?\d+` or `\d+` -/
def numeral (group : Group) (signed : Bool) (next : Pattern Group) : Pattern Group :=
  let plain : Pattern Group := .rep (some group) (isDigit R) 1 none true next
  if signed then .rep (some group) (· = '-') 0 (some 1) true plain else plain

/-- `_ROW_TAIL_RE` -/
def rowTailRe : Pattern Group :=
  let last := spaces R 0 .done
  spaces R 0 <| .rep (some .province) (· ≠ '\n') 1 none false <|
    spaces R 2 <| numeral R .latDeg true <| spaces R 1 <| numeral R .latMin false <|
    spaces R 1 <| numeral R .lonDeg true <| spaces R 1 <| numeral R .lonMin false <|
    spaces R 1 <| numeral R .altura true <| spaces R 1 <| numeral R .nro false <|
    .opt (spaces R 1 <| .rep (some .oaci) isOaci 1 none true last) last

structure StationMetadata where
  stationId : Int
  name : List Char
  province : List Char
  latitude : ℚ
  longitude : ℚ
  altitudeMeters : Int
  oaciCode : Option (List Char)
  deriving DecidableEq

/-- The digits that `int` takes. -/
def maxStrDigits : Nat := 4300

/-- `int` of a numeral -/
def int (cs : List Char) : Except PyError Int :=
  let (negative, ds) := splitSign cs
  if maxStrDigits < ds.length then .error .valueError
  else
    match digits R ds with
    | none => .error .valueError
    | some [] => .error .valueError
    | some values => .ok (if negative then -(valueOf values : Int) else valueOf values)

/-- `_dms_to_decimal`, before rounding. An integer too large for a float raises. -/
def dmsToDecimal (deg minutes : Int) : Except PyError ℚ :=
  let sign : ℚ := if deg < 0 then -1 else 1
  if overflowBound ≤ minutes.natAbs ∨ overflowBound ≤ deg.natAbs then .error .overflowError
  else .ok (deg + sign * (minutes / 60))

def nameColumnWidth : Nat := 30

/-- `str.ljust` to the width of the name column -/
def padded (line : List Char) : List Char :=
  line ++ List.replicate (nameColumnWidth - line.length) ' '

def rstrip (cs : List Char) : List Char := (cs.reverse.dropWhile R.isSpace).reverse

/-- A row whose tail was recognized. -/
def stationOf (line : List Char) (found : List (Group × List Char)) :
    Except PyError StationMetadata := do
  let text := fun group => (groupText found group).getD []
  let stationId ← int R (text .nro)
  let latDeg ← int R (text .latDeg)
  let latMin ← int R (text .latMin)
  let latitude ← dmsToDecimal latDeg latMin
  let lonDeg ← int R (text .lonDeg)
  let lonMin ← int R (text .lonMin)
  let longitude ← dmsToDecimal lonDeg lonMin
  let altitudeMeters ← int R (text .altura)
  pure ⟨stationId, strip R ((padded line).take nameColumnWidth), strip R (text .province), latitude,
    longitude, altitudeMeters, groupText found .oaci⟩

def rawLines (content : List Char) : List (List Char) :=
  (replaceChar '\r' ['\n'] (replaceText ['\r', '\n'] ['\n'] 0 content)).splitOn '\n'

def dataLines (content : List Char) : List (List Char) := (rawLines content).drop 2

/-- A longer name goes on in the next line. -/
def continueName (suffix : List Char) (parsed : List StationMetadata) : List StationMetadata :=
  match parsed.getLast? with
  | none => parsed
  | some last => parsed.dropLast ++ [{ last with name := strip R (last.name ++ suffix) }]

/-- One line of `parse_estaciones_txt` -/
def addLine (parsed : List StationMetadata) (line : List Char) :
    Except PyError (List StationMetadata) :=
  if strip R line = [] then .ok parsed
  else
    let tail := (padded line).drop nameColumnWidth
    if strip R tail = [] then
      let suffix := rstrip R ((padded line).take nameColumnWidth)
      if suffix = [] then .ok parsed else .ok (continueName R suffix parsed)
    else
      match (rowTailRe R).captures tail with
      | none => .ok parsed
      | some found =>
        match stationOf R line found with
        | .ok station => .ok (parsed ++ [station])
        | .error .valueError => .ok parsed
        | .error .typeError => .ok parsed
        | .error e => .error e

/-- `parse_estaciones_txt` -/
def parseEstacionesTxt (content : List Char) : Except PyError (List StationMetadata) :=
  (dataLines content).foldlM (addLine R) []

section Overflow

def TooLarge (deg minutes : Int) : Prop :=
  overflowBound ≤ minutes.natAbs ∨ overflowBound ≤ deg.natAbs

/-- The integers of a row up to the coordinate that is too large can be read. -/
def CoordinateTooLarge (found : List (Group × List Char)) : Prop :=
  let value := fun group => int R ((groupText found group).getD [])
  ∃ nro latDeg latMin, value .nro = .ok nro ∧ value .latDeg = .ok latDeg ∧
    value .latMin = .ok latMin ∧ (TooLarge latDeg latMin ∨
      ∃ lonDeg lonMin, value .lonDeg = .ok lonDeg ∧ value .lonMin = .ok lonMin ∧
        TooLarge lonDeg lonMin)

/-- A row that is recognized and has a coordinate beyond the floats. -/
def Overflows (line : List Char) : Prop :=
  let tail := (padded line).drop nameColumnWidth
  strip R line ≠ [] ∧ strip R tail ≠ [] ∧
    ∃ found, (rowTailRe R).captures tail = some found ∧ CoordinateTooLarge R found

variable {R} {found : List (Group × List Char)} {line : List Char} {e : PyError}

theorem int_ne_error {cs : List Char} (he : e ≠ .valueError) : int R cs ≠ .error e := by
  intro h
  simp only [int] at h
  split at h
  · exact he (Except.error.inj h).symm
  · split at h
    · exact he (Except.error.inj h).symm
    · exact he (Except.error.inj h).symm
    · cases h

theorem dmsToDecimal_error {deg minutes : Int} :
    dmsToDecimal deg minutes = .error e ↔ TooLarge deg minutes ∧ e = .overflowError := by
  rw [dmsToDecimal]
  by_cases h : overflowBound ≤ minutes.natAbs ∨ overflowBound ≤ deg.natAbs
  · simp [TooLarge, h, eq_comm]
  · simp [TooLarge, h]

theorem dmsToDecimal_ok {deg minutes : Int} (h : ¬ TooLarge deg minutes) :
    ∃ q, dmsToDecimal deg minutes = .ok q := by
  cases hq : dmsToDecimal deg minutes with
  | ok q => exact ⟨q, rfl⟩
  | error e => exact absurd (dmsToDecimal_error.mp hq).1 h

/-- Beside the exception that skips a row, only that of a coordinate ends it. -/
theorem stationOf_error (he : e ≠ .valueError) :
    stationOf R line found = .error e ↔ e = .overflowError ∧ CoordinateTooLarge R found := by
  simp only [stationOf, bind_eq_error, dmsToDecimal_error, pure_ne_error, int_ne_error he,
    false_or, and_false, exists_false, or_false]
  constructor
  · rintro ⟨nro, hnro, latDeg, hlatDeg, latMin, hlatMin, hlat | ⟨lat, -, lonDeg, hlonDeg, lonMin,
      hlonMin, hlon⟩⟩
    · exact ⟨hlat.2, nro, latDeg, latMin, hnro, hlatDeg, hlatMin, .inl hlat.1⟩
    · exact ⟨hlon.2, nro, latDeg, latMin, hnro, hlatDeg, hlatMin,
        .inr ⟨lonDeg, lonMin, hlonDeg, hlonMin, hlon.1⟩⟩
  · rintro ⟨rfl, nro, latDeg, latMin, hnro, hlatDeg, hlatMin, hlat⟩
    refine ⟨nro, hnro, latDeg, hlatDeg, latMin, hlatMin, ?_⟩
    by_cases hlarge : TooLarge latDeg latMin
    · exact .inl ⟨hlarge, rfl⟩
    · obtain ⟨lonDeg, lonMin, hlonDeg, hlonMin, hlon⟩ := hlat.resolve_left hlarge
      obtain ⟨lat, hok⟩ := dmsToDecimal_ok hlarge
      exact .inr ⟨lat, hok, lonDeg, hlonDeg, lonMin, hlonMin, hlon, rfl⟩

theorem addLine_raises_iff (parsed : List StationMetadata) (line : List Char) :
    (∃ e, addLine R parsed line = .error e) ↔ Overflows R line := by
  rw [addLine, Overflows]
  by_cases hline : strip R line = []
  · simp [hline]
  · by_cases htail : strip R ((padded line).drop nameColumnWidth) = []
    · rw [if_neg hline, if_pos htail]
      have hok : ∀ suffix : List Char, ¬ ∃ e, (if suffix = [] then .ok parsed
          else .ok (continueName R suffix parsed) : Except PyError _) = .error e := by
        intro suffix
        split <;> simp
      exact iff_of_false (hok _) fun h => h.2.1 htail
    · rw [if_neg hline, if_neg htail]
      simp only [hline, htail, ne_eq, not_false_eq_true, true_and]
      cases hfound : (rowTailRe R).captures ((padded line).drop nameColumnWidth) with
      | none => simp
      | some found =>
        simp only [Option.some.injEq, exists_eq_left']
        cases hstation : stationOf R line found with
        | ok station =>
          refine iff_of_false (by simp) fun h => ?_
          rw [(stationOf_error (by decide)).mpr ⟨rfl, h⟩] at hstation
          cases hstation
        | error e =>
          by_cases he : e = .valueError
          · subst he
            refine iff_of_false (by simp) fun h => ?_
            rw [(stationOf_error (by decide)).mpr ⟨rfl, h⟩] at hstation
            cases hstation
          · obtain ⟨rfl, h⟩ := (stationOf_error he).mp hstation
            exact iff_of_true ⟨.overflowError, rfl⟩ h

/-- The parser raises exactly on a text with a coordinate beyond the floats. -/
theorem parse_raises_iff (content : List Char) :
    (∃ e, parseEstacionesTxt R content = .error e) ↔ ∃ line ∈ dataLines content, Overflows R line :=
  foldlM_raises_iff addLine_raises_iff [] (dataLines content)

end Overflow

example : (parseEstacionesTxt .asciiOnly
    "NOMBRE\n[m]\nAEROPARQUE AERO                CAPITAL FEDERAL     -34 33 -58 25 6 87582 SABE".toList).map
      (·.map fun s => (s.stationId, s.latitude)) = .ok [(87582, -34 - 33 / 60)] := by
  decide +kernel

end DataService.RegistryText
