import DataService.Lib.FloatText
import DataService.Lib.OrderedDict

/-! Values that a JSON reader returns. A float is exact until it is rounded, and the reader
also takes the words for infinity and for no number. An object has each key once. -/

namespace JsonValue

open FloatText

inductive Json where
  | null
  | bool (b : Bool)
  | int (n : Int)
  | float (x : Reading)
  | str (s : String)
  | arr (elements : List Json)
  | obj (fields : List (String × Json))

/-- The value under a key of an object; null if it is not there. -/
def get (fields : List (String × Json)) (key : String) : Json :=
  ((fields.find? fun p => p.1 = key).map Prod.snd).getD .null

/-- `fields[key] = value` -/
def setField (key : String) (value : Json) (fields : List (String × Json)) :
    List (String × Json) :=
  OrderedDict.upsert key (fun _ => value) fields

/-- What keeps `json.loads` from returning a value. -/
inductive LoadError where
  | unicodeDecodeError
  | jsonDecodeError
  | valueError
  | recursionError
  deriving DecidableEq, Repr

variable {fields : List (String × Json)} {key other : String} {value : Json}

theorem get_eq_lookup : get fields key = (fields.lookup key).getD .null := by
  induction fields with
  | nil => rfl
  | cons p fields ih =>
    rw [get] at ih ⊢
    rw [List.find?_cons, List.lookup_cons]
    by_cases h : p.1 = key
    · simp [h]
    · have hne : (key == p.1) = false := by simpa using Ne.symm h
      simp [h, hne, ih]

theorem get_setField_self : get (setField key value fields) key = value := by
  rw [get_eq_lookup, setField, OrderedDict.lookup_upsert_self, Option.getD_some]

theorem get_setField_ne (h : other ≠ key) :
    get (setField key value fields) other = get fields other := by
  rw [get_eq_lookup, get_eq_lookup, setField, OrderedDict.lookup_upsert_ne h]

end JsonValue
