import SqlTemplates.Value
import SqlTemplates.Error

/-!
# Values as literals of a query

A filter checks the type of a value and writes it as a literal.  Nothing inside a
quoted literal is escaped: the text stands between the quotes as it was bound.
A collection is written when its items all have one of three types, as a list with
commas; texts are quoted one by one.
-/

namespace SqlTemplates.Filter

/-- The items of a collection as a list of literals, if all are texts, all are
integers or all are floats. -/
def encodeItems? (items : List Value) : Option String :=
  let texts := items.map Value.display
  if items.all Value.isText then some ("'" ++ "','".intercalate texts ++ "'")
  else if items.all Value.isInteger || items.all Value.isFloat then some (",".intercalate texts)
  else none

/-- The value as a literal, if the filter takes it. -/
def encode? : Filter → Value → Option String
  | .int, .integer n => some (Value.integer n).display
  | .float, .float x => some (Value.float x).display
  | .str, .text s => some ("'" ++ s ++ "'")
  | .arr, .collection items => encodeItems? items
  | .wild, value =>
      if value.isText || value.isInteger || value.isFloat then
        some ("'%" ++ value.display ++ "%'")
      else none
  | _, _ => none

/-- The value of a parameter as a literal. -/
def apply (filter : Filter) (parameter : String) (value : Value) : Except Error String :=
  match filter.encode? value with
  | some text => .ok text
  | none => .error (.filterType parameter filter)

end SqlTemplates.Filter
