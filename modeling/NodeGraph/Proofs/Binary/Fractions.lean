import Mathlib.Algebra.Order.Field.Basic
import Mathlib.Algebra.Order.Ring.Rat
import NodeGraph.Random

/-!
# Fractions with 24 binary digits

A scalar has room for 24 binary digits, so a whole number below `2 ^ 24` is a scalar, and so is its
fraction of `2 ^ 24`: neither the conversion nor the division rounds. `Binary.value?` is the number
that a float stands for, and `Random.value?_unitScalar` gives that of the scalar of a random word.

A number is rounded by shifting its mantissa to the exponent that the format has for it. Nothing is
lost if only zeros are shifted out (`Binary.roundWithAccuracy_shiftLeft`), and what is packed with
all its digits is unpacked as it was (`Binary.unpack_pack_of_log2`). The number 0 is a case of its
own.
-/

namespace NodeGraph.Binary

open Float.Model (Format UnpackedFloat totalExponent)
open Float.Model.UnpackedFloat

/-- The number that a float stands for. Infinities and NaN stand for none, and zeros of either sign
stand for zero. -/
def value? : UnpackedFloat → Option ℚ
  | .zero _ => some 0
  | .finite .positive mantissa exponent _ => some (mantissa * 2 ^ exponent)
  | .finite .negative mantissa exponent _ => some (-(mantissa * 2 ^ exponent))
  | .infinity _ | .notANumber => none

/-- A positive float stands for its mantissa times a power of two. -/
theorem value?_positive {m : Nat} {e : Int} (hm : 0 < m) :
    value? (.finite .positive m e hm) = some ((m : ℚ) * 2 ^ e) :=
  rfl

/-- Floats with equal parts are equal, whatever the proofs that their mantissas are positive. -/
theorem finite_congr {sign sign' : Sign} {m m' : Nat} {e e' : Int} {hm : 0 < m} {hm' : 0 < m'}
    (hsign : sign = sign') (hmantissa : m = m') (hexponent : e = e') :
    UnpackedFloat.finite sign m e hm = .finite sign' m' e' hm' := by
  subst hsign hmantissa hexponent
  rfl

/-! ## Rounding what needs none -/

/-- A mantissa with zeros at its end loses nothing when it is shifted past them. -/
theorem shiftRight_shiftLeft (m k n : Nat) :
    (ExtendedMantissa.mk (m <<< (n + k)) false false) >>> k = ⟨m <<< n, false, false⟩ := by
  show Nat.repeat ExtendedMantissa.shiftRightOne k ⟨m <<< (n + k), false, false⟩ = _
  induction k generalizing n with
  | zero => rfl
  | succ k ih =>
    show ExtendedMantissa.shiftRightOne (Nat.repeat ExtendedMantissa.shiftRightOne k _) = _
    have hsucc : n + (k + 1) = n + 1 + k := by omega
    rw [hsucc, ih (n + 1), ExtendedMantissa.shiftRightOne, Nat.shiftLeft_succ]
    simp

/-- A mantissa that is shifted to an exponent is as exact as it was, if only zeros are lost. The
exponent is the one that the format asks for. -/
theorem shiftToTargetExponent_shiftLeft (spec : Format) (m : Nat) {k : Nat} {e : Int}
    (h : spec.targetExponent (totalExponent (m <<< k) e) = e + k) :
    shiftToTargetExponent spec (m <<< k) e .exact = (⟨m, false, false⟩, e + k) := by
  have hshift : (e + k - e).toNat = k := by omega
  have hright := shiftRight_shiftLeft m k 0
  rw [Nat.zero_add, Nat.shiftLeft_zero] at hright
  unfold shiftToTargetExponent shiftToExponent
  dsimp only
  rw [h, hshift]
  exact Prod.ext hright rfl

/-- A number gets as many binary digits as it is shifted to the left. -/
theorem log2_shiftLeft {m : Nat} (hm : m ≠ 0) (k : Nat) : (m <<< k).log2 = m.log2 + k := by
  induction k with
  | zero => rfl
  | succ k ih =>
    have hne : m <<< k ≠ 0 := by simpa [Nat.shiftLeft_eq] using hm
    rw [Nat.shiftLeft_succ, Nat.log2_two_mul hne, ih, Nat.add_assoc]

/-- A number that the format can hold is not changed by rounding. It may come with zeros at its end,
which are shifted out. -/
theorem roundWithAccuracy_shiftLeft (spec : Format) {m k : Nat} {e : Int} (hm : 0 < m)
    (h : spec.targetExponent (totalExponent m (e + k)) = e + k) (sign : Sign) :
    roundWithAccuracy spec sign (m <<< k) e .exact = .finite sign m (e + k) hm := by
  have htotal : totalExponent (m <<< k) e = totalExponent m (e + k) := by
    unfold totalExponent
    rw [log2_shiftLeft hm.ne']
    omega
  -- Rounding shifts once more, in case the mantissa has become longer. Here it has not.
  have hfirst := shiftToTargetExponent_shiftLeft spec m (htotal ▸ h)
  have hsecond := shiftToTargetExponent_shiftLeft spec m (k := 0) (e := e + k)
    (by rw [Nat.shiftLeft_zero, h]; omega)
  rw [Nat.shiftLeft_zero] at hsecond
  unfold roundWithAccuracy
  rw [hfirst]
  dsimp only [ExtendedMantissa.roundedMantissa, ExtendedMantissa.accuracy,
    Accuracy.roundToNearestEven]
  rw [hsecond]
  dsimp only
  rw [dif_neg hm.ne']
  exact finite_congr rfl rfl (by omega)

/-- A positive number stays so when it is shifted to the left. -/
theorem shiftLeft_pos {m : Nat} (hm : 0 < m) (k : Nat) : 0 < m <<< k := by
  rw [Nat.shiftLeft_eq]
  exact Nat.mul_pos hm (Nat.pow_pos Nat.two_pos)

/-- A number that the format can hold is not changed by rounding, also if it comes with fewer
digits. It gets zeros at its end then. -/
theorem round_eq {spec : Format} {m k : Nat} {e : Int} (hm : 0 < m)
    (h : spec.targetExponent (totalExponent m e) = e - k) (sign : Sign) :
    UnpackedFloat.round spec sign m e = .finite sign (m <<< k) (e - k) (shiftLeft_pos hm k) := by
  have hshift : (e - (e - k)).toNat = k := by omega
  have htotal : totalExponent (m <<< k) (e - k + (0 : Nat)) = totalExponent m e := by
    unfold totalExponent
    rw [log2_shiftLeft hm.ne']
    omega
  have hround := roundWithAccuracy_shiftLeft spec (k := 0) (e := e - k) (shiftLeft_pos hm k)
    (by rw [htotal, h]; omega) sign
  unfold UnpackedFloat.round decreaseExponent
  dsimp only
  rw [h, hshift]
  exact hround.trans (finite_congr rfl rfl (by omega))

/-! ## Packing what has all its digits -/

/-- The sign of a float comes back when it is unpacked. -/
theorem unpackSign_packComponents {spec : Format} (sign : Sign) (field : BitVec spec.exponentBits)
    (mantissa : BitVec spec.mantissaBitsWithoutImplicit) :
    Sign.ofBitVec (unpackSign (packComponents spec sign field mantissa)) = sign := by
  have hbits : unpackSign (packComponents spec sign field mantissa) = sign.toBitVec := by
    ext i hi
    obtain rfl : i = 0 := by omega
    unfold unpackSign packComponents
    simp [BitVec.getLsbD_append, BitVec.getElem_append]
  rw [hbits]
  cases sign <;> rfl

/-- The first digit of a mantissa that has all its digits need not be stored: put in front of what
is stored it gives the mantissa. -/
theorem toNat_append_ofNat {m k : Nat} (hm : m ≠ 0) (hlog : m.log2 = k) :
    (BitVec.ofNat 1 1 ++ BitVec.ofNat k m).toNat = m := by
  obtain ⟨hle, hlt⟩ := (Nat.log2_eq_iff hm).1 hlog
  have hmod : m % 2 ^ k = m - 2 ^ k := by
    rw [Nat.mod_eq_sub_mod hle, Nat.mod_eq_of_lt (by omega)]
  rw [BitVec.toNat_append, ← Nat.shiftLeft_add_eq_or_of_lt (BitVec.isLt _), BitVec.toNat_ofNat,
    BitVec.toNat_ofNat, hmod, Nat.shiftLeft_eq]
  omega

/-- A float with all its digits is packed with the first of them left out. -/
theorem pack_of_log2 {spec : Format} {m field : Nat} {e : Int} (hm : 0 < m)
    (hlog : m.log2 + 1 = spec.mantissaBits)
    (hfield : e + spec.exponentBias + spec.mantissaBitsWithoutImplicit = field)
    (hlt : field + 1 < 2 ^ spec.exponentBits) (sign : Sign) :
    pack spec (.finite sign m e hm) =
      packComponents spec sign (BitVec.ofNat _ field) (BitVec.ofNat _ m) := by
  unfold pack
  dsimp only
  rw [hfield, Int.toNat_natCast, if_neg (by omega), if_pos hlog]

/-- If the field of the exponent is neither the least nor the greatest, what is unpacked has one
digit more than its mantissa. -/
theorem unpack_packComponents {spec : Format} {field : BitVec spec.exponentBits}
    (hleast : field ≠ BitVec.ofNat _ 0) (hgreatest : field ≠ -BitVec.ofNat _ 1) (sign : Sign)
    {mantissa : BitVec spec.mantissaBitsWithoutImplicit}
    (hpos : 0 < (BitVec.ofNat 1 1 ++ mantissa).toNat) :
    unpack spec (packComponents spec sign field mantissa) =
      .finite sign (BitVec.ofNat 1 1 ++ mantissa).toNat
        (field.toNat - (spec.exponentBias + spec.mantissaBitsWithoutImplicit)) hpos := by
  have hexponent : unpackExponent (packComponents spec sign field mantissa) = field :=
    unpackExponent_packComponents
  have hmantissa : unpackMantissa (packComponents spec sign field mantissa) = mantissa :=
    unpackMantissa_packComponents
  generalize hb : packComponents spec sign field mantissa = b at hexponent hmantissa
  subst hexponent hmantissa
  refine (if_neg hgreatest).trans ((if_neg hleast).trans ?_)
  exact finite_congr (hb ▸ unpackSign_packComponents ..) rfl rfl

/-- A float with all its digits comes back when it is packed and unpacked, if its exponent is in the
range of the format. -/
theorem unpack_pack_of_log2 {spec : Format} {m field : Nat} {e : Int} (hm : 0 < m)
    (hlog : m.log2 + 1 = spec.mantissaBits)
    (hfield : e + spec.exponentBias + spec.mantissaBitsWithoutImplicit = field) (hpos : 0 < field)
    (hlt : field + 1 < 2 ^ spec.exponentBits) (sign : Sign) :
    unpack spec (pack spec (.finite sign m e hm)) = .finite sign m e hm := by
  have hnat : (BitVec.ofNat spec.exponentBits field).toNat = field := by
    rw [BitVec.toNat_ofNat, Nat.mod_eq_of_lt (by omega)]
  have hleast : BitVec.ofNat spec.exponentBits field ≠ BitVec.ofNat _ 0 := by
    intro heq
    rw [heq, BitVec.toNat_zero] at hnat
    omega
  have hgreatest : BitVec.ofNat spec.exponentBits field ≠ -BitVec.ofNat _ 1 := by
    intro heq
    rw [heq, BitVec.neg_one_eq_allOnes, BitVec.toNat_allOnes] at hnat
    omega
  have hdigits : m.log2 = spec.mantissaBitsWithoutImplicit := by
    unfold Format.mantissaBits at hlog
    omega
  have hmantissa := toNat_append_ofNat hm.ne' hdigits
  rw [pack_of_log2 hm hlog hfield hlt,
    unpack_packComponents hleast hgreatest sign (by rw [hmantissa]; exact hm)]
  refine finite_congr rfl hmantissa ?_
  rw [hnat]
  omega

/-! ## Scalars -/

/-- A scalar with 24 digits comes back when it is packed and unpacked. The bounds are those of the
exponents of scalars. -/
theorem unpack_pack_scalar {m : Nat} {e : Int} (hm : 0 < m) (hlog : m.log2 = 23) (hlow : -149 ≤ e)
    (hhigh : e ≤ 104) (sign : Sign) :
    (Float32.ofModel (.pack (.finite sign m e hm))).toModel.unpack = .finite sign m e hm := by
  have hbias : (Format.binary32.exponentBias : Int) +
      (Format.binary32.mantissaBitsWithoutImplicit : Nat) = 150 := rfl
  have hsize : 2 ^ Format.binary32.exponentBits = 256 := rfl
  have hbits : Format.binary32.mantissaBits = 24 := rfl
  have hfield : e + Format.binary32.exponentBias +
      (Format.binary32.mantissaBitsWithoutImplicit : Nat) = ((e + 150).toNat : Int) := by
    rw [Int.add_assoc, hbias]
    omega
  exact unpack_pack_of_log2 hm (by omega) hfield (by omega) (by rw [hsize]; omega) sign

/-- With zeros at its end, a number below `2 ^ 24` has 24 digits. -/
theorem log2_shiftLeft_sub {n : Nat} (hn : 0 < n) (hlt : n < 2 ^ 24) :
    (n <<< (23 - n.log2)).log2 = 23 := by
  have hlog : n.log2 < 24 := (Nat.log2_lt hn.ne').2 hlt
  rw [log2_shiftLeft hn.ne']
  omega

/-- A whole number below `2 ^ 24` is a scalar: it is converted without rounding, with zeros at the
end of its mantissa. -/
theorem unpack_toFloat32 {n : UInt32} (hn : 0 < n.toNat) (hlt : n.toNat < 2 ^ 24) :
    n.toFloat32.toModel.unpack =
      .finite .positive (n.toNat <<< (23 - n.toNat.log2)) (n.toNat.log2 - 23)
        (shiftLeft_pos hn _) := by
  have hlog : n.toNat.log2 < 24 := (Nat.log2_lt hn.ne').2 hlt
  have htarget : Format.binary32.targetExponent (totalExponent n.toNat 0) =
      0 - (23 - n.toNat.log2 : Nat) := by
    show max ((n.toNat.log2 : Int) + 1 + 0 - 24) (-149) = _
    omega
  have hexponent : (0 : Int) - (23 - n.toNat.log2 : Nat) = n.toNat.log2 - 23 := by omega
  have hnormal : UnpackedFloat.ofUInt32 .binary32 n =
      .finite .positive (n.toNat <<< (23 - n.toNat.log2)) (n.toNat.log2 - 23)
        (shiftLeft_pos hn _) := by
    show UnpackedFloat.normalize .binary32 (n.toNat : Int) 0 .positive = _
    unfold UnpackedFloat.normalize
    have hcompare : compare (n.toNat : Int) 0 = .gt := by
      rw [compare_gt_iff_gt]
      omega
    rw [hcompare]
    dsimp only
    rw [Int.toNat_natCast, round_eq hn htarget]
    exact finite_congr rfl rfl hexponent
  show (Float32.ofModel (.pack (UnpackedFloat.ofUInt32 .binary32 n))).toModel.unpack = _
  rw [hnormal]
  exact unpack_pack_scalar _ (log2_shiftLeft_sub hn hlt) (by omega) (by omega) _

/-- A scalar with 24 digits is divided by `2 ^ 24` without rounding. Only the exponent changes,
which has to stay in the range of scalars. -/
theorem div_two_pow {m : Nat} {e : Int} (hm : 0 < m) (hlog : m.log2 = 23) (hlow : -124 ≤ e) :
    div .binary32 (.finite .positive m e hm) (.finite .positive (2 ^ 23) 1 (by decide)) =
      .finite .positive m (e - 24) hm := by
  have htarget : Format.binary32.targetExponent
      (totalExponent m e - totalExponent (2 ^ 23) 1) = e - 25 := by
    have hone : totalExponent (2 ^ 23) 1 = 25 := rfl
    show max ((m.log2 : Int) + 1 + e - totalExponent (2 ^ 23) 1 - 24) (-149) = _
    rw [hone]
    omega
  -- The quotient has 25 digits before it is rounded, the last of which is zero.
  have hcore : divCore .binary32 m e (2 ^ 23) 1 = (m <<< 1, e - 25, .exact) := by
    unfold divCore
    dsimp only
    have hmin : min (e - 1) (e - 25) = e - 25 := by omega
    have hshift : (e - 1 - (e - 25)).toNat = 24 := by omega
    have hsplit : m <<< 24 = m <<< 1 * 2 ^ 23 := by
      rw [Nat.shiftLeft_eq, Nat.shiftLeft_eq, Nat.mul_assoc, ← Nat.pow_add]
    rw [htarget, hmin, hshift, hsplit, Nat.mul_mod_left, Nat.mul_div_cancel _ (by decide)]
    rfl
  have hround := roundWithAccuracy_shiftLeft .binary32 (k := 1) (e := e - 25) hm
    (by show max ((m.log2 : Int) + 1 + (e - 25 + 1) - 24) (-149) = _; omega) .positive
  have hexponent : e - 25 + (1 : Nat) = e - 24 := by omega
  unfold div
  dsimp only
  rw [hcore]
  dsimp only
  exact hround.trans (finite_congr rfl rfl hexponent)

end NodeGraph.Binary

namespace NodeGraph.Random

open Binary

/-- The upper 24 bits of a word are a number below `2 ^ 24`. -/
theorem toNat_shiftRight_lt (w : UInt32) : (w >>> 8).toNat < 2 ^ 24 := by
  have hlt := w.toNat_lt
  rw [UInt32.toNat_shiftRight, Nat.shiftRight_eq_div_pow]
  exact Nat.div_lt_of_lt_mul hlt

/-- The scalar of a word stands for the fraction that its upper 24 bits are of `2 ^ 24`. The lower
bits do not matter. -/
theorem value?_unitScalar (w : UInt32) :
    value? (unitScalar w).toModel.unpack = some (((w >>> 8).toNat : ℚ) / 2 ^ 24) := by
  have hlt := toNat_shiftRight_lt w
  unfold unitScalar
  generalize w >>> 8 = n at hlt
  rcases Nat.eq_zero_or_pos n.toNat with hzero | hpos
  · obtain rfl : n = 0 := UInt32.toNat_inj.1 hzero
    have hquotient : ((0 : UInt32).toFloat32 / 16777216).toModel.unpack = .zero .positive := rfl
    show value? _ = some (((0 : Nat) : ℚ) / 2 ^ 24)
    rw [hquotient, Nat.cast_zero, zero_div]
    rfl
  · have hdivisor : (16777216 : Float32).toModel.unpack =
        .finite .positive (2 ^ 23) 1 (by decide) := rfl
    have hlog : n.toNat.log2 < 24 := (Nat.log2_lt hpos.ne').2 hlt
    have hquotient : (n.toFloat32 / 16777216).toModel.unpack =
        .finite .positive (n.toNat <<< (23 - n.toNat.log2)) (n.toNat.log2 - 23 - 24)
          (shiftLeft_pos hpos _) := by
      show (Float32.ofModel (.pack (Float.Model.UnpackedFloat.div .binary32
        n.toFloat32.toModel.unpack (16777216 : Float32).toModel.unpack))).toModel.unpack = _
      rw [hdivisor, unpack_toFloat32 hpos hlt,
        div_two_pow _ (log2_shiftLeft_sub hpos hlt) (by omega)]
      exact unpack_pack_scalar _ (log2_shiftLeft_sub hpos hlt) (by omega) (by omega) _
    have hexponent : ((23 - n.toNat.log2 : Nat) : Int) + (n.toNat.log2 - 23 - 24) = -24 := by omega
    rw [hquotient, value?_positive, Nat.shiftLeft_eq, Nat.cast_mul, Nat.cast_pow, mul_assoc,
      ← zpow_natCast, Nat.cast_ofNat, ← zpow_add₀ two_ne_zero, hexponent, zpow_neg, div_eq_mul_inv]
    rfl

/-- The scalar of a word stands for a number that is at least 0 and less than 1. It is not rounded
up to 1, as it would be with more digits. -/
theorem unitScalar_fraction (w : UInt32) :
    ∃ q : ℚ, value? (unitScalar w).toModel.unpack = some q ∧ q = (w >>> 8).toNat / 2 ^ 24 ∧
      0 ≤ q ∧ q < 1 := by
  have hvalue := value?_unitScalar w
  have hlt := toNat_shiftRight_lt w
  generalize (w >>> 8).toNat = n at hvalue hlt ⊢
  have hpos : (0 : ℚ) < 2 ^ 24 := pow_pos two_pos 24
  have hcast : (n : ℚ) < 2 ^ 24 := by exact_mod_cast hlt
  exact ⟨_, hvalue, rfl, div_nonneg (Nat.cast_nonneg _) hpos.le, (div_lt_one₀ hpos).2 hcast⟩

end NodeGraph.Random
