import SqlTemplates.Json.Number

/-!
# Reading JSON

`Json.parse?` reads a whole text as one JSON value.  Blanks are the four that the
format names.  A string may name a character by its code units in hexadecimal
digits; a pair of surrogate units is one character, and a surrogate alone is
refused.

Reading a value uses up a part of the text, so a number of steps twice the length
of the text is always enough.
-/

namespace SqlTemplates.Json

/-! ## Strings -/

/-- The value of a hexadecimal digit. -/
def hexDigit? (c : Char) : Option Nat :=
  if c.isDigit then some (c.toNat - '0'.toNat)
  else if 'a' ≤ c && c ≤ 'f' then some (c.toNat - 'a'.toNat + 10)
  else if 'A' ≤ c && c ≤ 'F' then some (c.toNat - 'A'.toNat + 10)
  else none

/-- The code unit of four hexadecimal digits, and what follows them. -/
def codeUnit? : List Char → Option (Nat × List Char)
  | a :: b :: c :: d :: rest => do
      let ds ← [a, b, c, d].mapM hexDigit?
      return (ds.foldl (fun n d => n * 16 + d) 0, rest)
  | _ => none

/-- The character that an escape letter stands for. -/
def escaped? : Char → Option Char
  | '"' => some '"'
  | '\\' => some '\\'
  | '/' => some '/'
  | 'b' => some '\x08'
  | 'f' => some '\x0c'
  | 'n' => some '\n'
  | 'r' => some '\r'
  | 't' => some '\t'
  | _ => none

/-- Reads a string after its opening quote: its characters as numbers, where an
escape may give half of a surrogate pair, and what follows the closing quote. -/
def units? : List Char → Option (List Nat × List Char)
  | [] => none
  | '"' :: rest => some ([], rest)
  | ['\\'] => none
  | '\\' :: 'u' :: a :: b :: c :: d :: rest => do
      let (unit, _) ← codeUnit? [a, b, c, d]
      let (units, rest) ← units? rest
      return (unit :: units, rest)
  | '\\' :: e :: rest => do
      let c ← escaped? e
      let (units, rest) ← units? rest
      return (c.toNat :: units, rest)
  | c :: rest => do
      guard (0x20 ≤ c.toNat)
      let (units, rest) ← units? rest
      return (c.toNat :: units, rest)

/-- The number is the first half of a surrogate pair. -/
def isHighSurrogate (n : Nat) : Bool := 0xD800 ≤ n && n < 0xDC00

/-- The number is the second half of a surrogate pair. -/
def isLowSurrogate (n : Nat) : Bool := 0xDC00 ≤ n && n < 0xE000

/-- Joins the surrogate pairs; a surrogate without its other half is refused. -/
def joinPairs? : List Nat → Option (List Char)
  | [] => some []
  | [n] => if isHighSurrogate n || isLowSurrogate n then none else some [Char.ofNat n]
  | n :: m :: rest =>
      if isHighSurrogate n then
        if isLowSurrogate m then
          (joinPairs? rest).map (Char.ofNat (0x10000 + (n - 0xD800) * 0x400 + (m - 0xDC00)) :: ·)
        else none
      else if isLowSurrogate n then none
      else (joinPairs? (m :: rest)).map (Char.ofNat n :: ·)

/-- Reads a string after its opening quote. -/
def string? (s : List Char) : Option (String × List Char) := do
  let (units, rest) ← units? s
  let chars ← joinPairs? units
  return (String.ofList chars, rest)

/-! ## Values -/

/-- The text without the blanks at its start. -/
def skipBlanks (s : List Char) : List Char :=
  s.dropWhile fun c => c = ' ' || c = '\t' || c = '\n' || c = '\r'

/-- Reads the value that one of the three words stands for, or a number. -/
def scalar? : List Char → Option (Json × List Char)
  | 'n' :: 'u' :: 'l' :: 'l' :: rest => some (.null, rest)
  | 't' :: 'r' :: 'u' :: 'e' :: rest => some (.bool true, rest)
  | 'f' :: 'a' :: 'l' :: 's' :: 'e' :: rest => some (.bool false, rest)
  | s => do
      let (numeral, rest) ← Numeral.read? s
      let value ← numeral.value?
      return (.number value, rest)

mutual

/-- Reads one value. -/
def value? : Nat → List Char → Option (Json × List Char)
  | 0, _ => none
  | steps + 1, s =>
      match skipBlanks s with
      | '"' :: rest => (string? rest).map fun (text, rest) => (.string text, rest)
      | '[' :: rest =>
          match skipBlanks rest with
          | ']' :: rest => some (.array [], rest)
          | rest => (items? steps rest).map fun (items, rest) => (.array items, rest)
      | '{' :: rest =>
          match skipBlanks rest with
          | '}' :: rest => some (.object [], rest)
          | rest => (pairs? steps rest).map fun (members, rest) => (ofMembers members, rest)
      | s => scalar? s

/-- Reads the items of an array up to its end. -/
def items? : Nat → List Char → Option (List Json × List Char)
  | 0, _ => none
  | steps + 1, s => do
      let (item, rest) ← value? steps s
      match skipBlanks rest with
      | ']' :: rest => return ([item], rest)
      | ',' :: rest =>
          let (items, rest) ← items? steps rest
          return (item :: items, rest)
      | _ => none

/-- Reads the members of an object up to its end. -/
def pairs? : Nat → List Char → Option (List (String × Json) × List Char)
  | 0, _ => none
  | steps + 1, s =>
      match skipBlanks s with
      | '"' :: rest => do
          let (name, rest) ← string? rest
          match skipBlanks rest with
          | ':' :: rest =>
              let (value, rest) ← value? steps rest
              match skipBlanks rest with
              | '}' :: rest => return ([(name, value)], rest)
              | ',' :: rest =>
                  let (members, rest) ← pairs? steps rest
                  return ((name, value) :: members, rest)
              | _ => none
          | _ => none
      | _ => none

end

/-- Reads a text that holds one value and blanks around it. -/
def parse? (text : String) : Option Json := do
  let s := text.toList
  let (value, rest) ← value? (2 * s.length + 2) s
  guard (skipBlanks rest).isEmpty
  return value

end SqlTemplates.Json
