import SqlTemplates.Decimal.Shortest

/-!
# Laying out a float

The digits of a float are written in one of two forms: with a point among them, or
with one digit before the point and an exponent.  A `Layout` says for which
exponents the first form is taken, how a tie between two digits goes and how the
numbers that have no digits are written.
-/

namespace SqlTemplates.Decimal

/-- How floats are written. -/
structure Layout where
  /-- The leading digit's exponents that are written with a point and no
  exponent. -/
  positional : Int → Bool
  /-- The choice between two digits that are equally near. -/
  tie : Tie
  /-- The text of positive infinity; the sign comes before it. -/
  infinity : String
  /-- The text of a number that is none. -/
  nan : String

/-- Digits with a point: a part of a whole number is always shown. -/
def pointed (digits : List Char) (exp : Int) : List Char :=
  let places := (digits.length : Int) + exp
  if 0 ≤ exp then digits ++ List.replicate exp.toNat '0' ++ ['.', '0']
  else if 0 < places then digits.take places.toNat ++ '.' :: digits.drop places.toNat
  else ['0', '.'] ++ List.replicate (-places).toNat '0' ++ digits

/-- Digits with an exponent, which always has a sign. -/
def exponential (digits : List Char) (exp : Int) : List Char :=
  let leading := (digits.length : Int) - 1 + exp
  let mantissa := match digits with
    | [] => []
    | [d] => [d]
    | d :: rest => d :: '.' :: rest
  mantissa ++ 'e' :: (if leading < 0 then '-' else '+') :: Nat.toDigits 10 leading.natAbs

/-- The digits of a magnitude, laid out. -/
def Layout.magnitude (layout : Layout) (s : Scaled) : List Char :=
  let digits := Nat.toDigits 10 s.digits
  if layout.positional ((digits.length : Int) - 1 + s.exp) then pointed digits s.exp
  else exponential digits s.exp

/-- The text of a float. -/
def Layout.write (layout : Layout) (x : Float) : String :=
  let bits := x.toBits
  let sign := if bits.toNat / Nat.pow 2 63 = 1 then "-" else ""
  if x.isNaN then layout.nan
  else if x.isInf then sign ++ layout.infinity
  else if bits.toNat % Nat.pow 2 63 = 0 then sign ++ "0.0"
  else sign ++ String.ofList (layout.magnitude ((Binary.ofBits bits).shortest layout.tie))

example : pointed ['1', '2'] 1 = ['1', '2', '0', '.', '0'] := by decide
example : pointed ['1', '2'] (-1) = ['1', '.', '2'] := by decide
example : pointed ['1', '2'] (-3) = ['0', '.', '0', '1', '2'] := by decide
example : exponential ['1', '2'] 19 = ['1', '.', '2', 'e', '+', '2', '0'] := by decide

end SqlTemplates.Decimal
