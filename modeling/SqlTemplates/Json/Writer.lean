import SqlTemplates.Json.Basic
import SqlTemplates.Decimal.Layout

/-!
# Writing JSON

The compact form has no blanks.  Of the characters, only the quote, the backslash
and the controls below the space are escaped.  Floats are written with the fewest
digits that read back, with a point from `1e-5` up to below `1e16`, and with an
exponent outside of that range.
-/

namespace SqlTemplates.Json

/-- How floats are written in JSON.  Infinity and the number that is none have no
JSON form and become `null`. -/
def floatLayout : Decimal.Layout where
  positional exponent := -5 ≤ exponent && exponent < 16
  tie := .toEven
  infinity := "null"
  nan := "null"

/-- The text of a number. -/
def Number.write : Number → String
  | .integer value => toString value
  | .float value => floatLayout.write value

/-- One character inside quotes. -/
def writeChar (c : Char) : List Char :=
  if c = '"' then ['\\', '"']
  else if c = '\\' then ['\\', '\\']
  else if c = '\x08' then ['\\', 'b']
  else if c = '\t' then ['\\', 't']
  else if c = '\n' then ['\\', 'n']
  else if c = '\x0c' then ['\\', 'f']
  else if c = '\r' then ['\\', 'r']
  else if c.toNat < 0x20 then
    ['\\', 'u', '0', '0', Nat.digitChar (c.toNat / 16), Nat.digitChar (c.toNat % 16)]
  else [c]

/-- The text of a string. -/
def writeString (s : String) : String :=
  String.ofList ('"' :: s.toList.flatMap writeChar ++ ['"'])

mutual

/-- The compact text of a value. -/
def write : Json → String
  | .null => "null"
  | .bool true => "true"
  | .bool false => "false"
  | .number value => value.write
  | .string text => writeString text
  | .array items => "[" ++ ",".intercalate (writeItems items) ++ "]"
  | .object members => "\x7b" ++ ",".intercalate (writeMembers members) ++ "\x7d"

/-- The texts of the items of an array. -/
def writeItems : List Json → List String
  | [] => []
  | item :: items => item.write :: writeItems items

/-- The texts of the members of an object. -/
def writeMembers : List (String × Json) → List String
  | [] => []
  | (name, value) :: members => (writeString name ++ ":" ++ value.write) :: writeMembers members

end

end SqlTemplates.Json
