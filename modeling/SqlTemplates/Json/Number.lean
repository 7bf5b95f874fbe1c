import SqlTemplates.Json.Basic

/-!
# Reading a JSON number

A number is written as a sign, a whole part, a fraction and an exponent.  Its value
is found in 64 bits.  The digits are read into a significand, from the first one on,
as long as it stays below `2 ^ 64`.  Digits of the whole part that do not fit count
as zeros; of the fraction, the digits from the first that does not fit are dropped.

A number without fraction and exponent whose digits all fit is whole, unless it is
negative and out of the range of 64 signed bits, or zero with a minus sign.  Every
other number is a float: the significand, rounded to a float, times or divided by
one power of ten.  Both steps round, so the result is not always the float nearest
to the number that was written.
-/

namespace SqlTemplates.Json

/-- A number as written. -/
structure Numeral where
  /-- There is a minus sign. -/
  negative : Bool
  /-- The digits of the whole part. -/
  whole : List Char
  /-- The digits after the point, if there is one. -/
  fraction : Option (List Char)
  /-- The sign and the digits of the exponent, if there is one. -/
  exponent : Option (Bool × List Char)
deriving DecidableEq, Repr

namespace Numeral

/-! ## The parts of a number -/

/-- The digits at the start of a text and what follows them.  At least one digit is
needed. -/
def digits? (s : List Char) : Option (List Char × List Char) :=
  match s.takeWhile Char.isDigit with
  | [] => none
  | ds => some (ds, s.dropWhile Char.isDigit)

/-- The fraction, if a point follows. -/
def fraction? : List Char → Option (Option (List Char) × List Char)
  | '.' :: s => (digits? s).map fun (ds, rest) => (some ds, rest)
  | s => some (none, s)

/-- The sign of an exponent: true for a minus. -/
def exponentSign : List Char → Bool × List Char
  | '-' :: s => (true, s)
  | '+' :: s => (false, s)
  | s => (false, s)

/-- The exponent, if its letter follows. -/
def exponent? : List Char → Option (Option (Bool × List Char) × List Char)
  | c :: s =>
      if c = 'e' || c = 'E' then
        let (negative, s) := exponentSign s
        (digits? s).map fun (ds, rest) => (some (negative, ds), rest)
      else some (none, c :: s)
  | [] => some (none, [])

/-- The minus sign, if there is one. -/
def sign : List Char → Bool × List Char
  | '-' :: s => (true, s)
  | s => (false, s)

/-- Reads the number at the start of a text.  A whole part of several digits does
not start with a zero. -/
def read? (s : List Char) : Option (Numeral × List Char) := do
  let (negative, s) := sign s
  let (whole, s) ← digits? s
  guard (whole.length = 1 || whole.head? != some '0')
  let (fraction, s) ← fraction? s
  let (exponent, s) ← exponent? s
  return (⟨negative, whole, fraction, exponent⟩, s)

/-! ## Its value -/

/-- The value of a digit. -/
def digitValue (c : Char) : Nat := c.toNat - '0'.toNat

/-- Reads digits onto a significand while it stays below `limit`: the significand
and the digits that are left. -/
def absorb (limit : Nat) : Nat → List Char → Nat × List Char
  | n, [] => (n, [])
  | n, d :: ds =>
      if n * 10 + digitValue d < limit then absorb limit (n * 10 + digitValue d) ds
      else (n, d :: ds)

/-- A power of ten as a float. -/
def powerOfTen (n : Nat) : Float := Float.ofScientific 1 false n

/-- A float divided by a power of ten, in steps of `10 ^ 308`, the greatest power
that is a float. -/
def divide (x : Float) (n : Nat) : Float :=
  if n ≤ 308 then x / powerOfTen n
  else if x == 0.0 then x
  else divide (x / powerOfTen 308) (n - 308)
termination_by n

/-- A float times a power of ten, if it is finite. -/
def multiply? (x : Float) (n : Nat) : Option Float :=
  if 308 < n then (if x == 0.0 then some x else none)
  else
    let y := x * powerOfTen n
    if y.isInf then none else some y

/-- The float of a significand and an exponent of ten, if it is finite. -/
def scale? (significand : Nat) (exponent : Int) : Option Float :=
  let x := significand.toUInt64.toFloat
  if 0 ≤ exponent then multiply? x exponent.toNat else some (divide x exponent.natAbs)

/-- The float of a significand and an exponent as written.  An exponent of more than
31 bits makes the number zero or puts it out of range. -/
def magnitude? (significand : Nat) (places : Int) : Option (Bool × List Char) → Option Float
  | none => scale? significand places
  | some (negative, ds) =>
      match absorb (Nat.pow 2 31) 0 ds with
      | (n, []) => scale? significand (if negative then places - n else places + n)
      | (_, _ :: _) => if significand = 0 || negative then some 0.0 else none

/-- The value of a number without fraction and exponent whose digits fit. -/
def wholeValue (negative : Bool) (n : Nat) : Number :=
  if negative then
    if n = 0 || Nat.pow 2 63 < n then .float (-n.toUInt64.toFloat) else .integer (-n)
  else .integer n

/-- The value of a number, if it is in the range of a float. -/
def value? (x : Numeral) : Option Number :=
  let (n, left) := absorb (Nat.pow 2 64) 0 x.whole
  match left, x.fraction, x.exponent with
  | [], none, none => some (wholeValue x.negative n)
  | _, _, _ =>
      let fraction := x.fraction.getD []
      let (m, dropped) := absorb (Nat.pow 2 64) n fraction
      let places := (left.length : Int) - ((fraction.length - dropped.length : Nat) : Int)
      (magnitude? m places x.exponent).map fun y => .float (if x.negative then -y else y)

end Numeral

end SqlTemplates.Json
