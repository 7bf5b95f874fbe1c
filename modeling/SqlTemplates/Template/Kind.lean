/-!
# Kinds

A template names what it wants done by a word.

* A *wrapper* turns the rows of a query into JSON, or leaves the query bare.  A
  partial and a block name the wrappers alike, but for the bare one.
* A *branch* says which truth of a condition prints the body.
* A *filter* says which values are allowed and how they are quoted.

Every word names at most one kind of a sort, which is what the lemmas say.
-/

namespace SqlTemplates

/-! ## Wrappers -/

/-- What happens to the query of a partial or of a block. -/
inductive Wrapper
  /-- All rows, as a JSON array. -/
  | array
  /-- One row, as a JSON object. -/
  | object
  /-- The query itself. -/
  | bare
deriving DecidableEq, Repr

namespace Wrapper

/-- The word for a wrapper in a partial. -/
def partialName : Wrapper → String
  | .array => "array"
  | .object => "object"
  | .bare => "include"

/-- The word for a wrapper in a block. -/
def blockName : Wrapper → String
  | .array => "array"
  | .object => "object"
  | .bare => "plain"

/-- The wrapper that a partial names. -/
def ofPartialName? : String → Option Wrapper
  | "array" => some .array
  | "object" => some .object
  | "include" => some .bare
  | _ => none

/-- The wrapper that a block names. -/
def ofBlockName? : String → Option Wrapper
  | "array" => some .array
  | "object" => some .object
  | "plain" => some .bare
  | _ => none

/-- The rows of a query as a JSON array, empty when there are none. -/
def arrayOf (query : String) : String :=
  "(SELECT COALESCE(array_to_json(array_agg(row_to_json(array_row))),'[]'::json) FROM (\n"
    ++ query ++ "\n) array_row)"

/-- The row of a query as a JSON object, empty when there is none. -/
def objectOf (query : String) : String :=
  "(SELECT COALESCE(row_to_json(object_row),'\x7b\x7d'::json) FROM (\n"
    ++ query ++ "\n) object_row)"

/-- The wrapped query. -/
def wrap : Wrapper → String → String
  | .array, query => arrayOf query
  | .object, query => objectOf query
  | .bare, query => query

theorem ofPartialName?_partialName (w : Wrapper) : ofPartialName? w.partialName = some w := by
  cases w <;> rfl

theorem ofBlockName?_blockName (w : Wrapper) : ofBlockName? w.blockName = some w := by
  cases w <;> rfl

theorem partialName_of_ofPartialName? {s : String} {w : Wrapper}
    (h : ofPartialName? s = some w) : w.partialName = s := by
  unfold ofPartialName? at h
  split at h <;> cases h <;> rfl

theorem blockName_of_ofBlockName? {s : String} {w : Wrapper}
    (h : ofBlockName? s = some w) : w.blockName = s := by
  unfold ofBlockName? at h
  split at h <;> cases h <;> rfl

end Wrapper

/-! ## Branches -/

/-- Which truth of a condition prints the body of its section. -/
inductive Branch
  | whenTrue
  | whenFalse
deriving DecidableEq, Repr

namespace Branch

/-- The word for a branch. -/
def name : Branch → String
  | .whenTrue => "if"
  | .whenFalse => "unless"

/-- The branch that a section names. -/
def ofName? : String → Option Branch
  | "if" => some .whenTrue
  | "unless" => some .whenFalse
  | _ => none

/-- The body is printed for this truth of the condition. -/
def printsBody : Branch → Bool → Bool
  | .whenTrue, truth => truth
  | .whenFalse, truth => !truth

theorem ofName?_name (b : Branch) : ofName? b.name = some b := by
  cases b <;> rfl

theorem name_of_ofName? {s : String} {b : Branch} (h : ofName? s = some b) : b.name = s := by
  unfold ofName? at h
  split at h <;> cases h <;> rfl

end Branch

/-! ## Filters -/

/-- Which values a filter takes. -/
inductive Filter
  | int
  | float
  | str
  /-- Collections of one type. -/
  | arr
  /-- Patterns that match a part of a text. -/
  | wild
deriving DecidableEq, Repr

namespace Filter

/-- The word for a filter. -/
def name : Filter → String
  | .int => "int"
  | .float => "float"
  | .str => "str"
  | .arr => "arr"
  | .wild => "wild"

/-- The filter that an expression names. -/
def ofName? : String → Option Filter
  | "int" => some .int
  | "float" => some .float
  | "str" => some .str
  | "arr" => some .arr
  | "wild" => some .wild
  | _ => none

/-- What a filter takes, as its error puts it. -/
def expected : Filter → String
  | .int => "an Integer"
  | .float => "a Float"
  | .str => "a String"
  | .arr => "an Array with all of the same datatype eg String, Integer, Float"
  | .wild => "String, Integer or Float"

theorem ofName?_name (f : Filter) : ofName? f.name = some f := by
  cases f <;> rfl

theorem name_of_ofName? {s : String} {f : Filter} (h : ofName? s = some f) : f.name = s := by
  unfold ofName? at h
  split at h <;> cases h <;> rfl

end Filter

end SqlTemplates
