import NodeGraph.Decimal.Numeral

/-!
# Numbers among the arguments

How counts and decimal numbers are written on the command line. A text is read as a whole: what is
left over after a number makes it no number.
-/

namespace NodeGraph.CommandLine

/-- Digits, and at least one. Nothing else may stand between them or after them. -/
def digits? (cs : List Char) : Option (List Char) :=
  if !cs.isEmpty && cs.all Char.isDigit then some cs else none

/-- An integer with an optional sign, and without a bound. A sign alone is no integer. -/
def integer? (cs : List Char) : Option Int :=
  let (negative, cs) := Numeral.splitSign cs
  (digits? cs).map fun ds =>
    let n : Int := Numeral.ofDigits 10 0 ds
    if negative then -n else n

/-- A count that fits in 32 bits. A plus sign in front is allowed, and so is a minus sign in front
of zeros. -/
def count? (s : String) : Option UInt32 :=
  match integer? s.toList with
  | none => none
  | some n => if 0 ≤ n ∧ n < UInt32.size then some (UInt32.ofNat n.toNat) else none

/-- A decimal number without a sign, which has been read and is handed in. Digits can be missing on
one side of the point, but not on both. An exponent has at least one digit. -/
def magnitude? (negative : Bool) (cs : List Char) : Option Numeral := do
  let mantissa := cs.takeWhile (!Numeral.isExponentMark ·)
  let exponent ← match cs.dropWhile (!Numeral.isExponentMark ·) with
    | [] => some none
    | _ :: rest => (integer? rest).map some
  let whole := mantissa.takeWhile (· ≠ '.')
  let fraction := (mantissa.dropWhile (· ≠ '.')).drop 1
  let _ ← digits? (whole ++ fraction)
  return { negative, whole, fraction, exponent }

/-- A number: a decimal one as the nearest double, an infinity, or no number. Letters count in
either case. A sign is allowed in front of all three, and makes no difference to what is no
number. -/
def number? (s : String) : Option Float :=
  let (negative, cs) := Numeral.splitSign s.toList
  match String.ofList (cs.map Char.toLower) with
  | "inf" | "infinity" => some (if negative then -1 / 0 else 1 / 0)
  | "nan" => some (0 / 0)
  | _ => (magnitude? negative cs).map Numeral.value

end NodeGraph.CommandLine
