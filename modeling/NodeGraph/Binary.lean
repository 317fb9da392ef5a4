/-!
# Conversions between number formats

Scalars are `Float32`, the settings file and the frame time are `Float`. The conversions here are
written on the exact value of a float, so that they can be evaluated and reasoned about: `narrow`
and `widen` change the format, `single` takes an integer to the nearest scalar, and `remainder` is
the exact remainder of a division that is truncated toward zero.

A conversion takes a float apart, computes with its mantissa and exponent as integers, and rounds
once at the end. Nothing is rounded twice, which would show in the last digit of a scalar.
-/

namespace NodeGraph.Binary

open Float.Model (Format UnpackedFloat)

/-- The value rounded to the nearest number of the format `spec`, ties going to the even mantissa.
Zeros, infinities and NaN have a counterpart in every format. -/
def roundTo (spec : Format) : UnpackedFloat → UnpackedFloat
  | .finite sign mantissa exponent _ => UnpackedFloat.round spec sign mantissa exponent
  | .zero sign => .zero sign
  | .infinity sign => .infinity sign
  | .notANumber => .notANumber

/-- The nearest scalar, for a number that comes from a document or from the settings. A number
beyond the range of scalars becomes an infinity, with its sign. -/
def narrow (x : Float) : Float32 :=
  .ofModel (.pack (roundTo .binary32 x.toModel.unpack))

/-- The same number with double precision. Nothing is rounded, since the scalars are among the
doubles. The interval of a pacer is computed from a rate that has been widened. -/
def widen (x : Float32) : Float :=
  .ofModel (.pack (roundTo .binary64 x.toModel.unpack))

/-- The scalar nearest to an integer, rounded once. To go through a double would round twice, and
come to another scalar for some large integers. -/
def single (n : Int) : Float32 :=
  .ofModel (.ofInt n)

/-- The remainder of `x` by `y` as exact values. The result has the sign of `x`, also when it is
zero. There is no remainder of an infinity or by a zero; an infinite divisor leaves `x` as it is. -/
def remainderValue : UnpackedFloat → UnpackedFloat → UnpackedFloat
  | .notANumber, _ | _, .notANumber | .infinity _, _ | _, .zero _ => .notANumber
  | .zero sign, _ => .zero sign
  | x, .infinity _ => x
  | .finite sign m e _, .finite _ m' e' _ =>
    let base := min e e'
    let rest := (m <<< (e - base).toNat) % (m' <<< (e' - base).toNat)
    if rest = 0 then .zero sign else UnpackedFloat.round .binary32 sign rest base

/-- The remainder of `x` by `y`, see `remainderValue`. It is always representable, so that the
rounding at the end changes nothing. -/
def remainder (x y : Float32) : Float32 :=
  .ofModel (.pack (remainderValue x.toModel.unpack y.toModel.unpack))

end NodeGraph.Binary
