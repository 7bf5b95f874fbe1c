/-!
# Shortest decimal digits

A float is written with the fewest decimal digits that read back as the same
float.  A positive finite float is `mant * 2 ^ exp`.  The reals that round to it
form an interval around it: half way to the next float on either side, the ends
included when `mant` is even.

For one digit, two digits and so on, the two neighbours of the value on that
decimal grid are tried, in exact arithmetic on natural numbers.  The first grid
with a neighbour inside the interval wins.  Of two such neighbours the nearer is
taken, and `Tie` says which when both are equally near.
-/

namespace SqlTemplates.Decimal

/-- Which of two equally near decimals is taken. -/
inductive Tie
  /-- The one whose last digit is even. -/
  | toEven
  | up
deriving DecidableEq, Repr

/-- A positive number in binary: `mant * 2 ^ exp`. -/
structure Binary where
  mant : Nat
  /-- The exponent of the last binary place. -/
  exp : Int
  /-- The float below is half as far away as the float above. -/
  narrowBelow : Bool
deriving DecidableEq, Repr

/-- A number in decimal: `digits * 10 ^ exp`. -/
structure Scaled where
  /-- The digits, read as one number. -/
  digits : Nat
  /-- The exponent of the last digit. -/
  exp : Int
deriving DecidableEq, Repr

/-- The magnitude of a finite float, by its bits: 52 of fraction below 11 of
exponent.  Zero and the sign have no part in it. -/
def Binary.ofBits (bits : UInt64) : Binary :=
  let fraction : Nat := bits.toNat % Nat.pow 2 52
  let field : Nat := bits.toNat / Nat.pow 2 52 % Nat.pow 2 11
  if field = 0 then ⟨fraction, -1074, false⟩
  else ⟨Nat.pow 2 52 + fraction, (field : Int) - 1075, fraction = 0 && 1 < field⟩

namespace Binary

/-! ## A grid of decimals

On the grid of exponent `e` the points are the multiples of `10 ^ e`.  Numbers
are counted in quarters of the last binary place, so that the ends of the interval
are whole: the value is `4 * mant` quarters. -/

/-- One quarter of the last binary place, in units of `10 ^ e`, as a fraction. -/
def quarter (x : Binary) (e : Int) : Nat × Nat :=
  (Nat.pow 2 (x.exp - 2).toNat * Nat.pow 10 (-e).toNat,
    Nat.pow 2 (2 - x.exp).toNat * Nat.pow 10 e.toNat)

/-- The point `k * 10 ^ e` reads back as the float. -/
def reads (x : Binary) (e : Int) (k : Nat) : Bool :=
  let (num, den) := x.quarter e
  let low := (4 * x.mant - if x.narrowBelow then 1 else 2) * num
  let high := (4 * x.mant + 2) * num
  if x.mant % 2 = 0 then low ≤ k * den && k * den ≤ high
  else low < k * den && k * den < high

/-- The nearer of the neighbours `k` and `k + 1` of the value on the grid. -/
def nearer (x : Binary) (tie : Tie) (e : Int) (k : Nat) : Nat :=
  let (num, den) := x.quarter e
  match compare (2 * (4 * x.mant * num - k * den)) den with
  | .lt => k
  | .gt => k + 1
  | .eq => match tie with
    | .up => k + 1
    | .toEven => if k % 2 = 0 then k else k + 1

/-- The point of the grid that reads back, if one of the two neighbours does. -/
def onGrid? (x : Binary) (tie : Tie) (e : Int) : Option Nat :=
  let (num, den) := x.quarter e
  let k := 4 * x.mant * num / den
  match x.reads e k, x.reads e (k + 1) with
  | true, true => some (x.nearer tie e k)
  | true, false => some k
  | false, true => some (k + 1)
  | false, false => none

/-! ## The search -/

/-- The number of digits before the decimal point, negative when zeros follow the
point.  A finite float is above `10 ^ -340`, so it is read off the whole part of
the value times `10 ^ 340`. -/
def magnitude (x : Binary) : Int :=
  let (num, den) := x.quarter (-340)
  ((Nat.toDigits 10 (4 * x.mant * num / den)).length : Int) - 340

/-- Removes the zeros at the end of the digits; `fuel` bounds how many. -/
def dropZeros : Nat → Scaled → Scaled
  | 0, s => s
  | fuel + 1, s =>
      if s.digits ≠ 0 ∧ s.digits % 10 = 0 then dropZeros fuel ⟨s.digits / 10, s.exp + 1⟩ else s

/-- The shortest decimal that reads back.  Seventeen digits are enough for every
float. -/
def shortest (x : Binary) (tie : Tie) : Scaled :=
  let places := x.magnitude
  let grids := (List.range 17).map fun n => places - ((n + 1 : Nat) : Int)
  match grids.findSome? fun e => (x.onGrid? tie e).map (Scaled.mk · e) with
  | some s => dropZeros 18 s
  | none => ⟨0, 0⟩

end Binary

/-- One tenth has one digit. -/
example : (Binary.ofBits 0x3FB999999999999A).shortest .toEven = ⟨1, -1⟩ := by decide +kernel
/-- The least positive float reads back from `5e-324`, and from no nearer digit. -/
example : (Binary.ofBits 1).shortest .toEven = ⟨5, -324⟩ := by decide +kernel
/-- The float below two to the fifty-fourth needs all its digits. -/
example : (Binary.ofBits 0x434FFFFFFFFFFFFF).shortest .up = ⟨18014398509481982, 0⟩ := by
  decide +kernel

end SqlTemplates.Decimal
