import SqlTemplates.Json.Writer

/-!
# Values

A template is evaluated against values of a closed set of types.  Data is turned
into values once, when it enters, and conditions and filters then look at the
type alone.

A value has a text, `Value.display`, which is what a template prints for it, and a
truth, `Value.truthy`.  Two values are compared with `==`, under which a number that
is none differs from itself, the two zeros are equal and an integer never equals a
float.
-/

namespace SqlTemplates

/-- A value that a name can be bound to. -/
inductive Value
  | text (s : String)
  | integer (n : Int64)
  | float (x : Float)
  | bool (b : Bool)
  | collection (items : List Value)
  /-- No value: the name is unbound, or bound to nothing. -/
  | absent
deriving Inhabited

namespace Value

/-! ## Text and truth -/

/-- How floats are printed: never with an exponent, and never without a point, so
that a float does not turn into an integer in a query. -/
def floatLayout : Decimal.Layout where
  positional _ := true
  tie := .up
  infinity := "inf"
  nan := "NaN"

mutual

/-- The text of a value.  The items of a collection follow each other with nothing
between them, and an absent value has no text. -/
def display : Value → String
  | .text s => s
  | .integer n => toString n.toInt
  | .float x => floatLayout.write x
  | .bool true => "true"
  | .bool false => "false"
  | .collection items => displayAll items
  | .absent => ""

/-- The texts of some values in a row. -/
def displayAll : List Value → String
  | [] => ""
  | v :: vs => v.display ++ displayAll vs

end

/-- Every value is true except false and absence; zero, the empty text and the empty
collection are true. -/
def truthy : Value → Bool
  | .bool b => b
  | .absent => false
  | _ => true

/-- There is no value. -/
def isAbsent : Value → Bool
  | .absent => true
  | _ => false

/-- The value is a text. -/
def isText : Value → Bool
  | .text _ => true
  | _ => false

/-- The value is an integer. -/
def isInteger : Value → Bool
  | .integer _ => true
  | _ => false

/-- The value is a float. -/
def isFloat : Value → Bool
  | .float _ => true
  | _ => false

theorem truthy_eq_false_iff {v : Value} : v.truthy = false ↔ v = .bool false ∨ v = .absent := by
  cases v <;> simp [truthy]

theorem displayAll_eq (vs : List Value) : displayAll vs = String.join (vs.map display) := by
  induction vs with
  | nil => rfl
  | cons v vs ih => simp [displayAll, ih, String.join_cons]

/-! ## Equality -/

mutual

/-- Two values have the same type and are equal in it; floats are compared as
numbers. -/
def beq : Value → Value → Bool
  | .text a, .text b => a == b
  | .integer a, .integer b => a == b
  | .float a, .float b => a == b
  | .bool a, .bool b => a == b
  | .collection a, .collection b => beqAll a b
  | .absent, .absent => true
  | _, _ => false

/-- Two lists have equal values in the same places. -/
def beqAll : List Value → List Value → Bool
  | [], [] => true
  | v :: vs, w :: ws => v.beq w && beqAll vs ws
  | _, _ => false

end

instance : BEq Value := ⟨beq⟩

/-! ## Values from JSON -/

/-- The value of a JSON number: an integer if it is whole and fits, otherwise a
float. -/
def ofNumber : Json.Number → Value
  | .integer n =>
      if -Int.pow 2 63 ≤ n ∧ n < Int.pow 2 63 then .integer (Int64.ofInt n)
      else .float n.toNat.toUInt64.toFloat
  | .float x => .float x

mutual

/-- The value of a JSON value.  An object becomes its compact text. -/
def ofJson : Json → Value
  | .null => .absent
  | .bool b => .bool b
  | .number n => ofNumber n
  | .string s => .text s
  | .array items => .collection (ofItems items)
  | .object members => .text (Json.write (.object members))

/-- The values of the items of a JSON array. -/
def ofItems : List Json → List Value
  | [] => []
  | item :: items => ofJson item :: ofItems items

end

end Value

end SqlTemplates
