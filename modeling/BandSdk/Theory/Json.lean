/-
# Theory.Json -- decoded JSON values

A value as a JSON parser hands it over: numbers keep whether they were integers,
an object is its fields.  Which of two equal keys wins is the parser's affair: a
lookup reads the first.
-/
import Mathlib.Data.String.Basic

namespace BandSdk.Theory

/-- A decoded JSON value; a float is its bits. -/
inductive Json where
  | null
  | bool (value : Bool)
  | int (value : Int)
  | float (bits : UInt64)
  | str (value : String)
  | arr (items : List Json)
  | obj (fields : List (String × Json))

namespace Json

/-- Whether the value counts as true; both float zeros are false. -/
def truthy : Json → Bool
  | .null => false
  | .bool value => value
  | .int value => value ≠ 0
  | .float bits => bits ≠ 0 ∧ bits ≠ 0x8000000000000000
  | .str value => value ≠ ""
  | .arr items => !items.isEmpty
  | .obj fields => !fields.isEmpty

def asStr : Json → Option String
  | .str value => some value
  | _ => none

def asInt : Json → Option Int
  | .int value => some value
  | _ => none

/-- The string field `key` of an object. -/
def strField (fields : List (String × Json)) (key : String) : Option String :=
  (fields.lookup key).bind asStr

/-- The integer field `key` of an object. -/
def intField (fields : List (String × Json)) (key : String) : Option Int :=
  (fields.lookup key).bind asInt

end Json

end BandSdk.Theory
