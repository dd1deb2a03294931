import Mathlib.Data.Rat.Defs

/-! JSON values as they are loaded, and the ways Python compares them. -/

namespace Dagmar

/-- `float` is a number written with a point or an exponent; `infinite` and `nan` are the constants
that Python reads beside those of JSON; the names of an object are distinct. -/
inductive Json where
  | null
  | flag (value : Bool)
  | number (value : Int)
  | float (value : ℚ)
  | infinite (negative : Bool)
  | nan
  | text (value : String)
  | list (items : List Json)
  | object (fields : List (String × Json))

namespace Json

def get (name : String) : Json → Option Json
  | .object fields => (fields.find? (·.1 = name)).map Prod.snd
  | _ => none

/-- `value.get(name)`, where a missing name reads as `null`. -/
def find (name : String) (json : Json) : Json := (json.get name).getD .null

def isNull : Json → Bool
  | .null => true
  | _ => false

def isObject : Json → Bool
  | .object _ => true
  | _ => false

/-- The values that equal 1. -/
def isOne : Json → Bool
  | .number value => value = 1
  | .float value => value = 1
  | .flag value => value
  | _ => false

def isText (text : String) : Json → Bool
  | .text value => value = text
  | _ => false

/-- `type(value) is int`. -/
def integer? : Json → Option Int
  | .number value => some value
  | _ => none

def text? : Json → Option String
  | .text value => some value
  | _ => none

/-- The value is a list of one item that passes a test. -/
def isSingleton (test : Json → Bool) : Json → Bool
  | .list [item] => test item
  | _ => false

/-- The value is an object with exactly these names, each with a value that passes its test. -/
def isRecord (tests : List (String × (Json → Bool))) : Json → Bool
  | .object fields =>
    fields.length = tests.length && tests.all fun test => (fields.find? (·.1 = test.1)).any fun field => test.2 field.2
  | _ => false

end Json

end Dagmar
