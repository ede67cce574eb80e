import DataService.Lib.Doubles
import DataService.Lib.Raising
import DataService.WeatherStations.Measurements

/-! The dew point of an observation. The numbers are exact until the code compares or divides
them as doubles; the value of the formula itself is left open. -/

namespace DataService.DewPoint

open Doubles FloatText JsonValue Raising

variable (R : FloatReader)

/-- `float` of a JSON value -/
def floatOf : Json → Except PyError Reading
  | .int n => if overflowBound ≤ n.natAbs then .error .overflowError else .ok (.number n)
  | .float x => .ok x
  | .bool b => .ok (.number (if b then 1 else 0))
  | .str s => match float R s.toList with
    | some x => .ok x
    | none => .error .valueError
  | .null | .arr _ | .obj _ => .error .typeError

/-- A double that is a number. -/
def finiteDouble : Reading → Option ℚ
  | .number q => if |q| < overflowBound then some (toDouble q) else none
  | .infinity | .nan => none

/-- `float` of both values, where two of the exceptions are caught. -/
def bothFloats (temperature humidity : Json) : Except PyError (Option (Reading × Reading)) :=
  match (do
    let t ← floatOf R temperature
    let hr ← floatOf R humidity
    pure (t, hr) : Except PyError (Reading × Reading)) with
  | .ok p => .ok (some p)
  | .error .typeError | .error .valueError => .ok none
  | .error e => .error e

def tMin : ℚ := -45
def tMax : ℚ := 60
def hrTolerance : ℚ := 201 / 2

/-- `magnus_dew_point` from the two floats on, with the value that the formula has for a
temperature and a humidity. The logarithm raises at zero. -/
def dewPointOf (formula : ℚ → ℚ → ℚ) (x y : Reading) : Except PyError (Option Reading) :=
  match finiteDouble x, finiteDouble y with
  | some t, some hr =>
    if hr ≤ 0 ∨ hrTolerance < hr then pure none
    else
      let hr := min hr 100
      if t < tMin ∨ tMax < t then pure none
      else if toDouble (hr / 100) = 0 then .error .valueError
      else pure (some (.number (formula t hr)))
  | _, _ => pure none

/-- `magnus_dew_point` -/
def magnusDewPoint (formula : ℚ → ℚ → ℚ) (temperature humidity : Json) :
    Except PyError (Option Reading) :=
  match temperature, humidity with
  | .null, _ | _, .null => .ok none
  | temperature, humidity => do
    let floats ← bothFloats R temperature humidity
    match floats with
    | some (x, y) => dewPointOf formula x y
    | none => pure none

/-- A temperature in range, with a positive humidity that is zero as a fraction of one. -/
def Dry (x y : Reading) : Prop :=
  ∃ t hr, finiteDouble x = some t ∧ finiteDouble y = some hr ∧ tMin ≤ t ∧ t ≤ tMax ∧ 0 < hr ∧
    hr ≤ 100 ∧ toDouble (hr / 100) = 0

/-- A measurement as a JSON value. -/
def numberJson : Option Reading → Json
  | none => .null
  | some x => .float x

/-- A whole number beyond the doubles. -/
def TooLarge : Json → Prop
  | .int n => overflowBound ≤ n.natAbs
  | _ => False

/-- What makes `magnus_dew_point` raise. -/
def DewRaises (temperature humidity : Json) : Prop :=
  temperature ≠ .null ∧ humidity ≠ .null ∧ (TooLarge temperature ∨
    ∃ x, floatOf R temperature = .ok x ∧
      (TooLarge humidity ∨ ∃ y, floatOf R humidity = .ok y ∧ Dry x y))

variable {R} {formula : ℚ → ℚ → ℚ} {temperature humidity : Json} {x y : Reading} {e : PyError}

theorem dewPointOf_raises_iff :
    dewPointOf formula x y = .error e ↔ e = .valueError ∧ Dry x y := by
  rw [dewPointOf, Dry]
  cases hx : finiteDouble x with
  | none => simp [pure_ne_error]
  | some t =>
    cases hy : finiteDouble y with
    | none => simp [pure_ne_error]
    | some hr =>
      simp only [Option.some.injEq, exists_and_left, exists_eq_left']
      by_cases hhr : hr ≤ 0 ∨ hrTolerance < hr
      · rw [if_pos hhr]
        refine iff_of_false pure_ne_error ?_
        rintro ⟨-, -, -, hpos, hle, -⟩
        rcases hhr with hhr | hhr
        · exact absurd hhr (not_le.mpr hpos)
        · have hbig : (100 : ℚ) < hrTolerance := by norm_num [hrTolerance]
          exact absurd hle (not_le.mpr (hbig.trans hhr))
      · rw [if_neg hhr]
        obtain ⟨hpos, htolerance⟩ := not_or.mp hhr
        by_cases ht : t < tMin ∨ tMax < t
        · rw [if_pos ht]
          refine iff_of_false pure_ne_error ?_
          rintro ⟨-, hmin, hmax, -⟩
          rcases ht with ht | ht
          · exact absurd ht (not_lt.mpr hmin)
          · exact absurd ht (not_lt.mpr hmax)
        · rw [if_neg ht]
          obtain ⟨hmin, hmax⟩ := not_or.mp ht
          have hratio : toDouble (min hr 100 / 100) = 0 ↔ hr ≤ 100 ∧ toDouble (hr / 100) = 0 := by
            by_cases hle : hr ≤ 100
            · rw [min_eq_left hle]
              simp [hle]
            · have hone : toDouble (100 / 100) = 1 := by
                rw [div_self (by norm_num), toDouble_one]
              rw [min_eq_right (not_le.mp hle).le, hone]
              simp [hle]
          simp only [hratio, not_lt.mp hmin, not_lt.mp hmax, not_le.mp hpos, true_and]
          by_cases hzero : hr ≤ 100 ∧ toDouble (hr / 100) = 0
          · simp [hzero, eq_comm]
          · rw [if_neg hzero]
            simp [hzero, pure_ne_error]

theorem floatOf_error {value : Json} (h : floatOf R value = .error e) :
    e = .overflowError ∧ TooLarge value ∨ (e = .valueError ∨ e = .typeError) ∧ ¬ TooLarge value := by
  cases value with
  | int n =>
    rw [floatOf] at h
    split at h
    · rename_i hlarge
      exact .inl ⟨(Except.error.inj h).symm, hlarge⟩
    · cases h
  | str s =>
    rw [floatOf] at h
    split at h
    · cases h
    · exact .inr ⟨.inl (Except.error.inj h).symm, id⟩
  | float x => cases h
  | bool b => cases h
  | null => exact .inr ⟨.inr (Except.error.inj h).symm, id⟩
  | arr l => exact .inr ⟨.inr (Except.error.inj h).symm, id⟩
  | obj l => exact .inr ⟨.inr (Except.error.inj h).symm, id⟩

theorem floatOf_tooLarge {value : Json} (h : TooLarge value) :
    floatOf R value = .error .overflowError := by
  cases value with
  | int n =>
    rw [TooLarge] at h
    rw [floatOf, if_pos h]
  | str s => cases h
  | float x => cases h
  | bool b => cases h
  | null => cases h
  | arr l => cases h
  | obj l => cases h

theorem magnusDewPoint_eq (ht : temperature ≠ .null) (hh : humidity ≠ .null) :
    magnusDewPoint R formula temperature humidity = (do
      let floats ← bothFloats R temperature humidity
      match floats with
      | some (x, y) => dewPointOf formula x y
      | none => pure none) := by
  rw [magnusDewPoint]
  · exact fun h => ht h
  · exact fun h => hh h

variable (formula) in
/-- The dew point raises for a number that is too large and where the logarithm is taken of
zero, and not otherwise. -/
theorem magnusDewPoint_raises_iff :
    (∃ e, magnusDewPoint R formula temperature humidity = .error e) ↔
      DewRaises R temperature humidity := by
  rw [DewRaises]
  by_cases ht : temperature = .null
  · subst ht
    simp [magnusDewPoint]
  · by_cases hh : humidity = .null
    · subst hh
      cases temperature <;> simp [magnusDewPoint]
    · rw [magnusDewPoint_eq ht hh]
      simp only [ne_eq, ht, hh, not_false_eq_true, true_and]
      cases hx : floatOf R temperature with
      | error e =>
        have hboth : bothFloats R temperature humidity = match e with
            | .typeError | .valueError => .ok none
            | e => .error e := by
          simp only [bothFloats, hx, bind, Except.bind]
          cases e <;> rfl
        rcases floatOf_error hx with ⟨rfl, hlarge⟩ | ⟨rfl | rfl, hsmall⟩
        · simp [hboth, hlarge, bind, Except.bind]
        · simp [hboth, hsmall, bind, Except.bind, pure_ne_error]
        · simp [hboth, hsmall, bind, Except.bind, pure_ne_error]
      | ok x =>
        have hsmall : ¬ TooLarge temperature := by
          intro hlarge
          rw [floatOf_tooLarge hlarge] at hx
          cases hx
        cases hy : floatOf R humidity with
        | error e =>
          have hboth : bothFloats R temperature humidity = match e with
              | .typeError | .valueError => .ok none
              | e => .error e := by
            simp only [bothFloats, hx, hy, bind, Except.bind]
            cases e <;> rfl
          rcases floatOf_error hy with ⟨rfl, hlarge⟩ | ⟨rfl | rfl, hsmall'⟩
          · simp [hboth, hlarge, bind, Except.bind]
          · simp [hboth, hsmall, hsmall', bind, Except.bind, pure_ne_error]
          · simp [hboth, hsmall, hsmall', bind, Except.bind, pure_ne_error]
        | ok y =>
          have hsmall' : ¬ TooLarge humidity := by
            intro hlarge
            rw [floatOf_tooLarge hlarge] at hy
            cases hy
          have hboth : bothFloats R temperature humidity = .ok (some (x, y)) := by
            simp only [bothFloats, hx, hy, bind, Except.bind]
            rfl
          simp [hboth, hsmall, hsmall', bind, Except.bind, dewPointOf_raises_iff]

end DataService.DewPoint
