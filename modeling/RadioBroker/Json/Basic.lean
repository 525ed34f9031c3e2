/-!
# JSON values

The values a JSON text can hold. An object keeps its members in the order in which they are written,
repeated keys included. Numbers are told apart by what can be read from them: integers of 64 bits,
and all others, which are kept as they are written.
-/

namespace RadioBroker

/-- A JSON value. -/
inductive Json where
  | null
  | bool (value : Bool)
  /-- A number without fraction and exponent, between `-2 ^ 63` and `2 ^ 64 - 1`. -/
  | integer (value : Int)
  /-- Any other number, as it is written. -/
  | decimal (written : String)
  | string (value : String)
  | array (elements : List Json)
  | object (members : List (String × Json))
deriving Inhabited

namespace Json

/-- Why a JSON text cannot be read. -/
inductive ReadError where
  /-- The text is not JSON. -/
  | malformed
  /-- The text ends inside a value. -/
  | truncated
  /-- The text is JSON for something else than what is wanted. -/
  | mismatch
deriving DecidableEq, Repr

/-- The values a key has, in order. -/
def valuesOf (key : String) (members : List (String × Json)) : List Json :=
  (members.filter fun member => member.1 = key).map Prod.snd

/-- The value of a key that is written at most once; the inner `none` is a missing key. -/
def single? (key : String) (members : List (String × Json)) : Option (Option Json) :=
  match valuesOf key members with
  | [] => some none
  | [value] => some (some value)
  | _ => none

/-- A string. -/
def asString? : Json → Option String
  | string value => some value
  | _ => none

/-- A truth value. -/
def asBool? : Json → Option Bool
  | bool value => some value
  | _ => none

/-- An array. -/
def asArray? : Json → Option (List Json)
  | array elements => some elements
  | _ => none

end Json

end RadioBroker
