/-!
# Spans of time

A span of time is a number of nanoseconds; its whole seconds fit in 64 bits. Addition stops at the
longest span. `Duration.ofSeconds` rounds a number of seconds to the nearest nanosecond, and says in
its error whether the number is negative or too large.
-/

namespace NodeGraph

/-- The nanoseconds of a second, in which spans are counted. -/
abbrev nanosPerSecond : Nat := 1000000000

/-- A span of time. That it is short enough for 64 bits of seconds and 32 bits of nanoseconds is
part of it, so sums do not have to be checked again. -/
structure Duration where
  nanos : Nat
  bounded : nanos < UInt64.size * nanosPerSecond
  deriving DecidableEq

namespace Duration

/-- The longest span, one nanosecond short of `UInt64.size` seconds. -/
def longest : Duration := ⟨UInt64.size * nanosPerSecond - 1, by decide⟩

/-- A span of so many nanoseconds, or the longest span if these are too many. -/
def ofNanos (n : Nat) : Duration :=
  if h : n < UInt64.size * nanosPerSecond then ⟨n, h⟩ else longest

/-- No time. A frame of this length still runs a pass if one is due. -/
def zero : Duration := ⟨0, by decide⟩

/-- Both spans together, or the longest span if they are too long together. A pacer adds up with it
the time that goes by. -/
def add (a b : Duration) : Duration :=
  ofNanos (a.nanos + b.nanos)

instance : Add Duration := ⟨add⟩

instance : LE Duration := ⟨fun a b => a.nanos ≤ b.nanos⟩

instance : DecidableLE Duration := fun a b => inferInstanceAs (Decidable (a.nanos ≤ b.nanos))

/-- Why a number of seconds is no span. What is no number at all is too long. -/
inductive Error where
  | negative
  | tooLong
  deriving DecidableEq, Repr

/-- The error in words, as it stands below a complaint about the length of a frame. -/
def Error.message : Error → String
  | .negative => "cannot convert float seconds to Duration: value is negative"
  | .tooLong => "cannot convert float seconds to Duration: value is either too big or NaN"

/-- The quotient rounded to the nearest whole number, ties going to the even one. -/
def roundQuotient (n d : Nat) : Nat :=
  let q := n / d
  match compare (2 * (n % d)) d with
  | .lt => q
  | .gt => q + 1
  | .eq => q + q % 2

/-- The span of `mantissa * 2 ^ exponent` seconds, rounded to a nanosecond. The product is exact, so
that there is one rounding. -/
def ofBinary (mantissa : Nat) (exponent : Int) : Except Error Duration :=
  let n := roundQuotient ((mantissa * nanosPerSecond) <<< exponent.toNat) (1 <<< (-exponent).toNat)
  if h : n < UInt64.size * nanosPerSecond then .ok ⟨n, h⟩ else .error .tooLong

/-- The span of a number of seconds. Both zeros are no time, and so are positive numbers of less
than half a nanosecond. -/
def ofSeconds (x : Float) : Except Error Duration :=
  match x.toModel.unpack with
  | .zero _ => .ok zero
  | .notANumber | .infinity .positive => .error .tooLong
  | .infinity .negative | .finite .negative _ _ _ => .error .negative
  | .finite .positive mantissa exponent _ => ofBinary mantissa exponent

/-- The span of a number of seconds of which it is known that it has one. The interval of the
standard rate is written with it, so that it is computed as every other interval is. -/
def ofSpan (x : Float) (h : (ofSeconds x).toOption.isSome) : Duration :=
  (ofSeconds x).toOption.get h

end Duration

end NodeGraph
