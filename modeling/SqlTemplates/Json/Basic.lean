import Std.Data.ExtTreeMap

/-!
# JSON values

Data reaches a template as a JSON object.  A number keeps the difference between a
whole number and a float, since a template tells them apart: `1` and `1.0` are not
the same value.  The members of an object have distinct names and stand in the
order of their names, so two objects with the same members are equal.
-/

namespace SqlTemplates

/-- A number as it was read. -/
inductive Json.Number
  /-- A whole number, between `-2 ^ 63` and `2 ^ 64 - 1`. -/
  | integer (value : Int)
  /-- Every other number. -/
  | float (value : Float)

/-- A JSON value. -/
inductive Json
  | null
  | bool (value : Bool)
  | number (value : Json.Number)
  | string (text : String)
  | array (items : List Json)
  /-- The members have distinct names and stand in the order of their names. -/
  | object (members : List (String × Json))
deriving Inhabited

namespace Json

/-- The object with these members.  Of two members of one name the later counts. -/
def ofMembers (members : List (String × Json)) : Json :=
  .object (Std.ExtTreeMap.ofList members).toList

/-- The members of an object. -/
def members? : Json → Option (List (String × Json))
  | .object members => some members
  | _ => none

/-- A whole number. -/
def ofInt (value : Int) : Json := .number (.integer value)

end Json

end SqlTemplates
