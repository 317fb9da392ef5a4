/-!
# Numerals

A numeral is a decimal number as it stands in a text: sign, digits before and after the point, and
an exponent. `Numeral.chars` writes it, `Numeral.value` is the double nearest to it. Documents,
settings and the command line each have their own rules for which texts are numerals, and share what
a numeral means.
-/

namespace NodeGraph

/-- A decimal number as written. Two numerals of the same number are different, for instance if one
has zeros at the end. -/
structure Numeral where
  negative : Bool := false
  /-- The digits before the point. There are none where a reader allows a number to start with the
  point. -/
  whole : List Char
  /-- The digits after the point; there is no point when there are none. -/
  fraction : List Char := []
  /-- The number after the exponent mark, if there is one. An exponent that is zero is not the same
  as none. -/
  exponent : Option Int := none
  deriving DecidableEq, Repr

namespace Numeral

/-- The value of a decimal digit. It is not asked whether the character is one. -/
def digitValue (c : Char) : Nat :=
  c.toNat - '0'.toNat

/-- The number that a list of digits stands for, in a base and after the digits of `start`. With
`start` the digits after a point are read on from those before it. -/
def ofDigits (base start : Nat) (ds : List Char) : Nat :=
  ds.foldl (fun n d => n * base + digitValue d) start

/-- An optional sign at the front of a text: whether it is a minus, and what follows. At most one
sign is taken. -/
def splitSign : List Char → Bool × List Char
  | '-' :: rest => (true, rest)
  | '+' :: rest => (false, rest)
  | cs => (false, cs)

/-- Whether a character starts an exponent, in either case. -/
def isExponentMark (c : Char) : Bool :=
  c = 'e' || c = 'E'

/-- The numeral of an integer, without a point and without an exponent. -/
def ofInt (n : Int) : Numeral where
  negative := n < 0
  whole := Nat.toDigits 10 n.natAbs

/-- The digits of an exponent after its mark. A positive one has a sign if `plus` holds, as it has
in documents. -/
def exponentChars (plus : Bool) (e : Int) : List Char :=
  if e < 0 then '-' :: Nat.toDigits 10 e.natAbs
  else if plus then '+' :: Nat.toDigits 10 e.natAbs
  else Nat.toDigits 10 e.natAbs

/-- The numeral as text. A positive exponent has a sign if `plus` holds. Digits are written as they
are, so what has been read is written as it was but for the exponent mark. -/
def chars (plus : Bool) (n : Numeral) : List Char :=
  (if n.negative then ['-'] else []) ++ n.whole ++
    (if n.fraction.isEmpty then [] else '.' :: n.fraction) ++
    (match n.exponent with
      | none => []
      | some e => 'e' :: exponentChars plus e)

/-- The double nearest to the number, ties going to the even mantissa. A number out of range is an
infinity, and a negative number that rounds to zero is the negative zero. -/
def value (n : Numeral) : Float :=
  let coefficient := ofDigits 10 (ofDigits 10 0 n.whole) n.fraction
  let exponent := n.exponent.getD 0 - n.fraction.length
  let magnitude := Float.ofScientific coefficient (exponent < 0) exponent.natAbs
  if n.negative then -magnitude else magnitude

end Numeral

end NodeGraph
