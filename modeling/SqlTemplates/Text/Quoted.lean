import SqlTemplates.Text.Shapeless

/-!
# Quoted text

File names and their segments stand in messages in double quotes.  The quote and
the backslash are written with a backslash before them, four control characters
by a letter or a digit, and every other character without a shape of its own by
its code point in braces, in lower case hexadecimal digits.  All other characters
are written as they are.
-/

namespace SqlTemplates.Text

/-- The code point of a character as an escape. -/
def codePointEscape (c : Char) : List Char :=
  ['\\', 'u', '{'] ++ Nat.toDigits 16 c.toNat ++ ['}']

/-- One character inside quotes. -/
def quoteChar (c : Char) : List Char :=
  if c = '"' then ['\\', '"']
  else if c = '\\' then ['\\', '\\']
  else if c = '\n' then ['\\', 'n']
  else if c = '\t' then ['\\', 't']
  else if c = '\r' then ['\\', 'r']
  else if c = Char.ofNat 0 then ['\\', '0']
  else if isShapeless c then codePointEscape c
  else [c]

/-- The text in double quotes, with nothing in it hidden from the reader. -/
def quoted (s : String) : String :=
  String.ofList ('"' :: s.toList.flatMap quoteChar ++ ['"'])

example : quoted "a\"b\\c" = "\"a\\\"b\\\\c\"" := by decide +kernel
example : quoted "e\u0301" = "\"e\\u\x7b301\x7d\"" := by decide +kernel

end SqlTemplates.Text
