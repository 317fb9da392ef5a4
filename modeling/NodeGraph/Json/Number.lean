import NodeGraph.Binary
import NodeGraph.Json.Basic

/-!
# Numbers of a document

A numeral without point and exponent is an integer if it fits in 64 bits. Every other numeral is
read as a double: its leading digits that fit in 64 bits, scaled once by a power of ten. The scaling
rounds a second time, so the result is not always the nearest double.

The readers of fields start from `Json.number?`. Whether a number is an integer is decided by how it
is written and not by its value.
-/

namespace NodeGraph.Json

/-- The number that a numeral stands for in a document. Integers are exact, and everything else is a
double. -/
inductive Number where
  | natural (n : Nat)
  /-- An integer below zero. -/
  | negative (n : Int)
  | real (x : Float)

namespace Number

/-- The digits in front that fit in 64 bits after `start`, as a number, and the remaining ones. The
remaining digits do not count any more but for their number, even if a later one would fit again. -/
def significand (start : Nat) : List Char → Nat × List Char
  | [] => (start, [])
  | d :: ds =>
    let next := start * 10 + Numeral.digitValue d
    if next < UInt64.size then significand next ds else (start, d :: ds)

/-- A power of ten up to `10 ^ 308`, rounded to the nearest double where it is none. -/
def powerOfTen (n : Nat) : Float :=
  Float.ofScientific 1 false n

/-- The number times a power of ten, in steps of at most `10 ^ 308` and at most `fuel` of them.
There is no result when it would be infinite. A product is one step, so that only a number that gets
smaller takes several. -/
def scale? : Nat → Float → Int → Option Float
  | 0, x, _ => some x
  | fuel + 1, x, e =>
    if e.natAbs ≤ 308 then
      if 0 ≤ e then
        let y := x * powerOfTen e.natAbs
        if y.isInf then none else some y
      else some (x / powerOfTen e.natAbs)
    else if x == 0 then some x
    else if 0 ≤ e then none
    else scale? fuel (x / powerOfTen 308) (e + 308)

/-- The double of a numeral. A number below `10 ^ 20` vanishes after three steps of scaling down, so
the fourth is the last. -/
def real? (n : Numeral) : Option Float := do
  let (s, beyond) := significand 0 n.whole
  let (s, dropped) := significand s n.fraction
  let exponent : Int := beyond.length - (n.fraction.length - dropped.length) + n.exponent.getD 0
  let x ← scale? 4 (Float.ofNat s) exponent
  return if n.negative then -x else x

/-- The number of a numeral, if it is in range. Minus zero is a double, as is an integer that does
not fit in 64 bits. -/
def ofNumeral? (n : Numeral) : Option Number :=
  match n.fraction, n.exponent, significand 0 n.whole with
  | [], none, (s, []) =>
    if !n.negative then some (.natural s)
    else if 0 < s ∧ s ≤ 9223372036854775808 then some (.negative (-s))
    else some (.real (-Float.ofNat s))
  | _, _, _ => (real? n).map .real

/-- The integer, if the number is one. A double is none, even if it is whole. -/
def int? : Number → Option Int
  | .natural n => some n
  | .negative n => some n
  | .real _ => none

/-- The number as a scalar. An integer is rounded once, and a double a second time. -/
def scalar : Number → Float32
  | .natural n => Binary.single n
  | .negative n => Binary.single n
  | .real x => Binary.narrow x

/-- The number with double precision. A large integer is rounded. -/
def double : Number → Float
  | .natural n => Float.ofNat n
  | .negative n => Float.ofInt n
  | .real x => x

end Number

/-- The number of a tree that is one. A numeral that is out of range has none. -/
def number? : Json → Option Number
  | .number n => Number.ofNumeral? n
  | _ => none

/-- The integer of a tree that is one. -/
def int? (j : Json) : Option Int :=
  j.number?.bind Number.int?

/-- The natural number below `bound` of a tree that is one. Numbers of nodes, ports and operations
are read with it. -/
def nat? (bound : Nat) (j : Json) : Option Nat := do
  let n ← j.int?
  if 0 ≤ n ∧ n < bound then some n.toNat else none

end NodeGraph.Json
