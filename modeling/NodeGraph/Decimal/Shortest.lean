/-!
# The shortest decimal that reads back

A finite float stands for every real that rounds to it. `shortest` finds the decimal in that
interval with the fewest digits and, of those, the one nearest to the float; when two are equally
near, `Tie` decides. Everything is exact arithmetic on natural numbers.

The interval is put on a grid of multiples of a power of ten, first of the power of the float's
first digit and then of smaller and smaller ones. The first grid with a point in the interval gives
the digits.
-/

namespace NodeGraph

/-- The number `coefficient * 10 ^ exponent`. A number has many of these, with more and more zeros
at the end of the coefficient. -/
structure Decimal where
  coefficient : Nat
  exponent : Int
  deriving DecidableEq, Repr

namespace Decimal

open Float.Model (Format)

/-- Which of two decimals that are equally near is taken. Readers do not care, but writers of
different formats do it in different ways. -/
inductive Tie where
  /-- The larger one. -/
  | up
  /-- The one whose last digit is even. -/
  | toEven
  deriving DecidableEq, Repr

/-- The number of decimal digits of `n`, one for zero. -/
def digitCount (n : Nat) : Nat :=
  (Nat.toDigits 10 n).length

/-- The digits of the coefficient, first digit first. They start with a zero only if there is no
other digit. -/
def digits (d : Decimal) : List Char :=
  Nat.toDigits 10 d.coefficient

/-- The power of ten of the first digit. It says where positional notation has to put the point. -/
def leadingExponent (d : Decimal) : Int :=
  d.exponent + digitCount d.coefficient - 1

/-- Moves trailing zeros of the coefficient to the exponent, at most `fuel` of them. A coefficient
of zero is left alone, which would otherwise never end. -/
def stripZeros : Nat → Decimal → Decimal
  | 0, d => d
  | fuel + 1, d =>
    if d.coefficient ≠ 0 ∧ d.coefficient % 10 = 0 then
      stripZeros fuel ⟨d.coefficient / 10, d.exponent + 1⟩
    else d

/-- The reals that round to one float, in units of a quarter of the gap above it: the float itself
is `value / scale` with bounds `low / scale` and `high / scale`, which belong to the interval when
`closed` holds. -/
structure Interval where
  low : Nat
  value : Nat
  high : Nat
  scale : Nat
  closed : Bool

/-- The interval of the float `mantissa * 2 ^ exponent` of a format. Below a power of two the floats
are twice as dense, unless the float is the least normal one. Ties between floats go to the even
mantissa, so the bounds round to an even one. -/
def Interval.around (spec : Format) (mantissa : Nat) (exponent : Int) : Interval :=
  let denseBelow := mantissa = 1 <<< spec.mantissaBitsWithoutImplicit ∧ spec.minExponent < exponent
  let shift := exponent - 2
  { low := (4 * mantissa - if denseBelow then 1 else 2) <<< shift.toNat
    value := (4 * mantissa) <<< shift.toNat
    high := (4 * mantissa + 2) <<< shift.toNat
    scale := 1 <<< (-shift).toNat
    closed := mantissa % 2 = 0 }

/-- Whether `coefficient * 10 ^ exponent` lies in the interval. Both sides are multiplied up to
whole numbers before they are compared. -/
def Interval.contains (i : Interval) (d : Decimal) : Bool :=
  let x := d.coefficient * Nat.pow 10 d.exponent.toNat * i.scale
  let unit := Nat.pow 10 (-d.exponent).toNat
  if i.closed then decide (i.low * unit ≤ x ∧ x ≤ i.high * unit)
  else decide (i.low * unit < x ∧ x < i.high * unit)

/-- The power of ten of the first digit of the interval's float. For a float below one it is found
from the reciprocal. -/
def Interval.leadingExponent (i : Interval) : Int :=
  if i.scale ≤ i.value then digitCount (i.value / i.scale) - 1
  else -(digitCount ((i.scale + i.value - 1) / i.value - 1) : Int)

/-- The decimal on the grid of multiples of `10 ^ exponent` that lies in the interval and is nearest
to the float, if the grid has one. Only the two multiples around the float need to be looked at. -/
def Interval.onGrid (tie : Tie) (i : Interval) (exponent : Int) : Option Decimal :=
  let x := i.value * Nat.pow 10 (-exponent).toNat
  let unit := i.scale * Nat.pow 10 exponent.toNat
  let below : Decimal := ⟨x / unit, exponent⟩
  let above : Decimal := ⟨x / unit + 1, exponent⟩
  let rest := x % unit
  let nearer :=
    match compare (2 * rest) unit with
    | .lt => below
    | .gt => above
    | .eq =>
      match tie with
      | .up => above
      | .toEven => if below.coefficient % 2 = 0 then below else above
  match i.contains below, i.contains above with
  | true, true => some nearer
  | true, false => some below
  | false, true => some above
  | false, false => none

/-- The decimal with the fewest digits that reads back as the float `mantissa * 2 ^ exponent`. A
binary64 float never needs more than seventeen digits, a binary32 float never more than nine. -/
def shortest (tie : Tie) (spec : Format) (mantissa : Nat) (exponent : Int) : Decimal :=
  let i := Interval.around spec mantissa exponent
  let lead := i.leadingExponent
  let found := (List.range 17).findSome? fun (n : Nat) => i.onGrid tie (lead - n)
  stripZeros 20 (found.getD ⟨i.value / i.scale, 0⟩)

end Decimal

end NodeGraph
