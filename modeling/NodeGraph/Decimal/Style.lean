import NodeGraph.Decimal.Shortest
import NodeGraph.Decimal.Numeral

/-!
# How floats are written

A `Layout` says how a float becomes a numeral: which digits, and where positional notation ends. A
`Style` adds the texts of the values that have no numeral. Text for people is in `Style.plain`, log
messages are in `Style.logged`, and the settings file is in `Style.toml`. Documents have no text for
such values, and use a layout alone.
-/

namespace NodeGraph.Decimal

open Float.Model (Format UnpackedFloat)
open Float.Model.UnpackedFloat (Sign)

/-- How a finite float becomes a numeral. The digits are always those of the shortest decimal. -/
structure Layout where
  /-- Which of two equally near decimals is written. -/
  tie : Tie
  /-- Whether a number with this power of ten at its first digit is written positionally. Otherwise
  it has one digit before the point and an exponent. -/
  positional : Int → Bool
  /-- Whether a positional whole number ends in `.0`, so that it cannot be taken for an integer. -/
  pointZero : Bool

/-- How any float is written, with texts for what is infinite or no number. An infinity has its sign
in front of the text. -/
structure Style extends Layout where
  notANumber : String
  infinity : String

/-- Positional at every size, without a fraction on whole numbers. This is how values, readouts and
rates are shown. -/
def Style.plain : Style where
  tie := .up
  positional _ := true
  pointZero := false
  notANumber := "NaN"
  infinity := "inf"

/-- Positional from `0.0001` to below `10 ^ 16`, always with a fraction there. Outside of it there
is an exponent, and a fraction only if more than one digit is needed. -/
def Style.logged : Style where
  tie := .up
  positional e := -4 ≤ e && e < 16
  pointZero := true
  notANumber := "NaN"
  infinity := "inf"

/-- Positional at every size, always with a fraction, since the settings file tells floats from
integers by it. -/
def Style.toml : Style where
  tie := .up
  positional _ := true
  pointZero := true
  notANumber := "nan"
  infinity := "inf"

/-- Whether a sign is a minus. -/
def isMinus : Sign → Bool
  | .negative => true
  | .positive => false

namespace Layout

/-- The fraction of a positional whole number: a zero or nothing. -/
def noFraction (l : Layout) : List Char :=
  if l.pointZero then ['0'] else []

/-- The digits `ds`, the first of them at the power `lead`, with the point in its place. Zeros fill
the places between the digits and the point. -/
def positionalNumeral (l : Layout) (negative : Bool) (ds : List Char) (lead : Int) : Numeral :=
  let places := (lead + 1).toNat
  if lead < 0 then
    { negative, whole := ['0'], fraction := List.replicate (-lead - 1).toNat '0' ++ ds }
  else if ds.length ≤ places then
    { negative
      whole := ds ++ List.replicate (places - ds.length) '0'
      fraction := l.noFraction }
  else
    { negative, whole := ds.take places, fraction := ds.drop places }

/-- The numeral of a positive decimal, or of its negation, positional or with an exponent as the
layout says. -/
def decimal (l : Layout) (negative : Bool) (d : Decimal) : Numeral :=
  let lead := d.leadingExponent
  if l.positional lead then l.positionalNumeral negative d.digits lead
  else { negative, whole := d.digits.take 1, fraction := d.digits.drop 1, exponent := some lead }

/-- The numeral of a float of the format `spec`, if it is finite. A negative zero keeps its sign. -/
def numeral? (l : Layout) (spec : Format) : UnpackedFloat → Option Numeral
  | .notANumber | .infinity _ => none
  | .zero sign => some { negative := isMinus sign, whole := ['0'], fraction := l.noFraction }
  | .finite sign mantissa exponent _ =>
    some (l.decimal (isMinus sign) (shortest l.tie spec mantissa exponent))

end Layout

namespace Style

/-- The text of a float of the format `spec`. Exponents are written without a plus sign. -/
def chars (s : Style) (spec : Format) (x : UnpackedFloat) : List Char :=
  match s.numeral? spec x, x with
  | some n, _ => n.chars false
  | none, .infinity sign => (if isMinus sign then ['-'] else []) ++ s.infinity.toList
  | none, _ => s.notANumber.toList

/-- The text of a scalar, with as many digits as are needed to tell it from other scalars. -/
def scalar (s : Style) (x : Float32) : String :=
  String.ofList (s.chars .binary32 x.toModel.unpack)

/-- The text of a double, with as many digits as are needed to tell it from other doubles. -/
def double (s : Style) (x : Float) : String :=
  String.ofList (s.chars .binary64 x.toModel.unpack)

end Style

end NodeGraph.Decimal
