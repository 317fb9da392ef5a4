import Mathlib.Algebra.Order.Ring.Nat
import NodeGraph.Json.Number

/-!
# The range of doubles

A double is `Within` a bound if it is finite and its exponent is at most the bound. Rounding,
packing and products keep doubles within bounds that are easily computed, if generous
(`Binary.within_roundWithAccuracy`, `Binary.within_unpack_pack`, `Binary.within_mul`). They are good
enough to see that a number of 64 bits times a power of ten that a scalar can have is finite
(`Json.Number.isInf_mul_powerOfTen`).

Numbers of a document are read as doubles before they become scalars, and a document with a number
beyond the range of doubles is refused. That no number written of a scalar is refused rests on these
bounds.
-/

namespace NodeGraph.Binary

open Float.Model (Format UnpackedFloat totalExponent)
open Float.Model.UnpackedFloat

/-- Whether a float is finite and its exponent is at most `bound`. The mantissa is not looked at,
since it is bounded by the format. -/
def Within (bound : Int) : UnpackedFloat → Prop
  | .zero _ => True
  | .finite _ _ exponent _ => exponent ≤ bound
  | .infinity _ | .notANumber => False

instance (bound : Int) : DecidablePred (Within bound)
  | .zero _ => isTrue trivial
  | .finite _ _ exponent _ => inferInstanceAs (Decidable (exponent ≤ bound))
  | .infinity _ | .notANumber => isFalse id

/-- What is within a bound is not infinite. -/
theorem Within.isInf {bound : Int} {x : UnpackedFloat} (h : Within bound x) : x.isInf = false := by
  cases x with
  | infinity sign => exact h.elim
  | notANumber | zero | finite => rfl

/-- A number has no more binary digits than the power of two above it. -/
theorem log2_add_one_le {n k : Nat} (hk : 0 < k) (h : n < 2 ^ k) : n.log2 + 1 ≤ k := by
  by_cases hn : n = 0
  · subst hn
    exact hk
  · exact (Nat.log2_lt hn).2 h

/-! ## What is unpacked -/

/-- What is unpacked, by the field of the exponent. The greatest field stands for what is not
finite, and the exponent of the least one is that of the next. -/
theorem unpack_cases {spec : Format} (b : BitVec spec.numBits) :
    (unpackExponent b = -BitVec.ofNat _ 1 ∧ (unpack spec b).isFinite = false) ∨
      unpackExponent b ≠ -BitVec.ofNat _ 1 ∧
        ((∃ sign, unpack spec b = .zero sign) ∨
          ∃ sign mantissa exponent hpos, unpack spec b = .finite sign mantissa exponent hpos ∧
            mantissa < 2 ^ spec.mantissaBits ∧
            exponent + (spec.exponentBias + spec.mantissaBitsWithoutImplicit) =
              max ((unpackExponent b).toNat : Int) 1) := by
  unfold unpack
  dsimp only
  by_cases hfield : unpackExponent b = -BitVec.ofNat _ 1
  · refine .inl ⟨hfield, ?_⟩
    rw [if_pos hfield]
    by_cases hmantissa : unpackMantissa b = BitVec.ofNat _ 0
    · rw [if_pos hmantissa]
      rfl
    · rw [if_neg hmantissa]
      rfl
  · refine .inr ⟨hfield, ?_⟩
    rw [if_neg hfield]
    by_cases hzero : unpackExponent b = BitVec.ofNat _ 0
    · rw [if_pos hzero]
      by_cases hmantissa : unpackMantissa b = BitVec.ofNat _ 0
      · rw [dif_pos hmantissa]
        exact .inl ⟨_, rfl⟩
      · rw [dif_neg hmantissa]
        have hbits : spec.mantissaBitsWithoutImplicit < spec.mantissaBits :=
          Nat.lt_add_of_pos_left Nat.one_pos
        have hpos : 0 < (unpackMantissa b).toNat := by
          refine Nat.pos_of_ne_zero fun heq => hmantissa (BitVec.eq_of_toNat_eq ?_)
          exact heq.trans BitVec.toNat_zero.symm
        refine .inr ⟨_, _, _, hpos, rfl, ?_, ?_⟩
        · exact (BitVec.isLt _).trans (Nat.pow_lt_pow_right (by decide) hbits)
        · rw [hzero, BitVec.toNat_zero]
          omega
    · rw [if_neg hzero]
      have hne : (unpackExponent b).toNat ≠ 0 := by
        intro heq
        exact hzero (BitVec.eq_of_toNat_eq (heq.trans BitVec.toNat_zero.symm))
      have hpos : 0 < (BitVec.ofNat 1 1 ++ unpackMantissa b).toNat := by simp
      refine .inr ⟨_, _, _, hpos, rfl, BitVec.isLt _, ?_⟩
      omega

/-- The mantissa and exponent of a finite number of a format are bounded. This follows from
`unpack_cases`, and holds of all formats with at least two bits for the exponent. -/
theorem unpack_eq_finite {spec : Format} (hspec : 2 ≤ spec.exponentBits) {b : BitVec spec.numBits}
    {sign : Sign} {mantissa : Nat} {exponent : Int} {hpos : 0 < mantissa}
    (h : unpack spec b = .finite sign mantissa exponent hpos) :
    mantissa < 2 ^ spec.mantissaBits ∧
      exponent + (spec.exponentBias + spec.mantissaBitsWithoutImplicit) + 2 ≤
        2 ^ spec.exponentBits := by
  rcases unpack_cases b with ⟨-, hb⟩ | ⟨hfield, ⟨_, hb⟩ | ⟨_, _, _, _, hb, hmantissa, hexponent⟩⟩
  · rw [h] at hb
    cases hb
  · cases h.symm.trans hb
  · cases h.symm.trans hb
    refine ⟨hmantissa, ?_⟩
    have hpow : 2 ^ 2 ≤ 2 ^ spec.exponentBits := Nat.pow_le_pow_right (by decide) hspec
    have hcast : ((2 ^ spec.exponentBits : Nat) : Int) = 2 ^ spec.exponentBits :=
      Int.natCast_pow 2 _
    have hlt := (unpackExponent b).isLt
    have hne : (unpackExponent b).toNat ≠ 2 ^ spec.exponentBits - 1 := by
      intro heq
      refine hfield (BitVec.eq_of_toNat_eq ?_)
      rw [BitVec.neg_one_eq_allOnes, BitVec.toNat_allOnes, heq]
    rw [hexponent, ← hcast]
    omega

/-- The field of the exponent tells what a packed float is within, whatever its mantissa. -/
theorem within_unpack_packComponents {spec : Format} {bound : Int}
    {field : BitVec spec.exponentBits} (hbound : 0 ≤ bound) (hbias : 1 ≤ spec.exponentBias)
    (hle : (field.toNat : Int) ≤
      bound + (spec.exponentBias + spec.mantissaBitsWithoutImplicit))
    (hlt : field.toNat + 1 < 2 ^ spec.exponentBits) (sign : Sign)
    (mantissa : BitVec spec.mantissaBitsWithoutImplicit) :
    Within bound (unpack spec (packComponents spec sign field mantissa)) := by
  have hne : field ≠ -BitVec.ofNat _ 1 := by
    intro heq
    rw [heq, BitVec.neg_one_eq_allOnes, BitVec.toNat_allOnes] at hlt
    omega
  have hcases := unpack_cases (packComponents spec sign field mantissa)
  rw [unpackExponent_packComponents] at hcases
  rcases hcases with ⟨heq, -⟩ | ⟨-, ⟨_, h⟩ | ⟨_, _, exponent, _, h, -, hexponent⟩⟩
  · exact absurd heq hne
  · rw [h]
    trivial
  · rw [h]
    show exponent ≤ bound
    omega

/-- What is within a bound stays so when it is packed, if the bound is in the range of the
format. -/
theorem within_unpack_pack {spec : Format} {bound : Int} (hbound : 0 ≤ bound)
    (hbias : 1 ≤ spec.exponentBias)
    (hmax : bound + (spec.exponentBias + spec.mantissaBitsWithoutImplicit) + 1 <
      2 ^ spec.exponentBits)
    {x : UnpackedFloat} (h : Within bound x) : Within bound (unpack spec (pack spec x)) := by
  have hzero : ∀ sign mantissa,
      Within bound (unpack spec (packComponents spec sign (BitVec.ofNat _ 0) mantissa)) := by
    refine within_unpack_packComponents hbound hbias ?_ ?_
    · rw [BitVec.toNat_zero]
      omega
    · rw [BitVec.toNat_zero]
      exact Nat.one_lt_two_pow spec.he.ne'
  cases x with
  | infinity sign => exact h.elim
  | notANumber => exact h.elim
  | zero sign => exact hzero ..
  | finite sign mantissa exponent hpos =>
    have hexponent : exponent ≤ bound := h
    have hbiased : ((exponent + spec.exponentBias + spec.mantissaBitsWithoutImplicit).toNat : Int) ≤
        bound + (spec.exponentBias + spec.mantissaBitsWithoutImplicit) := by
      omega
    have hfield : (exponent + spec.exponentBias + spec.mantissaBitsWithoutImplicit).toNat + 1 <
        2 ^ spec.exponentBits := by
      exact_mod_cast (Int.add_le_add_right hbiased 1).trans_lt hmax
    unfold pack
    dsimp only
    rw [if_neg (Nat.not_le_of_lt hfield)]
    split
    · have hnat := BitVec.toNat_ofNat
        (exponent + spec.exponentBias + spec.mantissaBitsWithoutImplicit).toNat spec.exponentBits
      rw [Nat.mod_eq_of_lt (Nat.lt_of_succ_lt hfield)] at hnat
      refine within_unpack_packComponents hbound hbias ?_ ?_ ..
      · rwa [hnat]
      · rwa [hnat]
    · exact hzero ..

/-! ## Rounding -/

/-- Shifting a mantissa to the right does not make it greater. -/
theorem mantissa_shiftRight_le (m : ExtendedMantissa) (n : Nat) :
    (m >>> n).mantissa ≤ m.mantissa := by
  show (Nat.repeat ExtendedMantissa.shiftRightOne n m).mantissa ≤ m.mantissa
  induction n with
  | zero => exact Nat.le_refl _
  | succ n ih => exact (Nat.div_le_self _ 2).trans ih

/-- Rounding a mantissa adds at most one. -/
theorem roundedMantissa_le (m : ExtendedMantissa) : m.roundedMantissa ≤ m.mantissa + 1 := by
  unfold ExtendedMantissa.roundedMantissa Accuracy.roundToNearestEven
  split <;> omega

/-- A mantissa that is shifted to the exponent of the format is not made greater, and the exponent
is the greater one of the two. -/
theorem shiftToTargetExponent_le (mantissa : Nat) (exponent : Int) (accuracy : Accuracy) :
    let shifted := shiftToTargetExponent .binary64 mantissa exponent accuracy
    shifted.1.mantissa ≤ mantissa ∧
      shifted.2 = max exponent (max ((mantissa.log2 : Int) + 1 + exponent - 53) (-1074)) := by
  have htarget : Format.targetExponent .binary64 (totalExponent mantissa exponent) =
      max ((mantissa.log2 : Int) + 1 + exponent - 53) (-1074) := rfl
  have hmantissa :
      (ExtendedMantissa.ofMantissaAndAccuracy mantissa accuracy).mantissa = mantissa := by
    unfold ExtendedMantissa.ofMantissaAndAccuracy
    split <;> rfl
  refine ⟨(mantissa_shiftRight_le _ _).trans hmantissa.le, ?_⟩
  show exponent + ((Format.targetExponent .binary64 (totalExponent mantissa exponent) -
    exponent).toNat : Int) = _
  rw [htarget]
  omega

/-- A number that is rounded is within twice its binary digits above its exponent. Rounding shifts
the mantissa once to make it fit, and perhaps once more when it was rounded up. -/
theorem within_roundWithAccuracy {mantissa k : Nat} (hk : 0 < k) (hmantissa : mantissa < 2 ^ k)
    {exponent bound : Int} (hbound : exponent + 2 * k + 1 ≤ bound) (hk' : k ≤ bound) (sign : Sign)
    (accuracy : Accuracy) :
    Within bound (roundWithAccuracy .binary64 sign mantissa exponent accuracy) := by
  obtain ⟨hfirst, hexponent⟩ := shiftToTargetExponent_le mantissa exponent accuracy
  unfold roundWithAccuracy
  dsimp only
  generalize shiftToTargetExponent .binary64 mantissa exponent accuracy = first at hfirst hexponent
  have hrounded := roundedMantissa_le first.1
  obtain ⟨-, hfinal⟩ := shiftToTargetExponent_le first.1.roundedMantissa first.2 .exact
  have hlog := log2_add_one_le hk hmantissa
  have hlog' : first.1.roundedMantissa.log2 + 1 ≤ k + 1 := by
    refine log2_add_one_le (Nat.succ_pos k) ?_
    have hpow : 2 ^ (k + 1) = 2 * 2 ^ k := pow_succ' 2 k
    omega
  by_cases hzero :
      (shiftToTargetExponent .binary64 first.1.roundedMantissa first.2 .exact).1.mantissa = 0
  · rw [dif_pos hzero]
    trivial
  · rw [dif_neg hzero]
    show _ ≤ bound
    rw [hfinal, hexponent]
    omega

/-- A number that is rounded, after it has been given more digits where it has few, is within twice
its binary digits above its exponent. -/
theorem within_round {mantissa k : Nat} (hk : 53 ≤ k) (hmantissa : mantissa < 2 ^ k)
    {exponent bound : Int} (hexponent : 0 ≤ exponent) (hbound : exponent + 2 * k + 1 ≤ bound)
    (sign : Sign) : Within bound (round .binary64 sign mantissa exponent) := by
  have htarget : Format.targetExponent .binary64 (totalExponent mantissa exponent) =
      max ((mantissa.log2 : Int) + 1 + exponent - 53) (-1074) := rfl
  have hlog := log2_add_one_le (by omega) hmantissa
  unfold UnpackedFloat.round decreaseExponent
  dsimp only
  rw [htarget]
  generalize hshift : (exponent - max ((mantissa.log2 : Int) + 1 + exponent - 53) (-1074)).toNat =
    shift
  refine within_roundWithAccuracy (k := k) (by omega) ?_ (by omega) (by omega) sign .exact
  rw [Nat.shiftLeft_eq]
  by_cases hzero : mantissa = 0
  · rw [hzero, Nat.zero_mul]
    exact Nat.pow_pos (by decide)
  · calc mantissa * 2 ^ shift
        < 2 ^ (mantissa.log2 + 1) * 2 ^ shift :=
          Nat.mul_lt_mul_of_pos_right ((Nat.log2_lt hzero).1 (Nat.lt_succ_self _))
            (Nat.pow_pos (by decide))
      _ = 2 ^ (mantissa.log2 + 1 + shift) := (pow_add ..).symm
      _ ≤ 2 ^ k := Nat.pow_le_pow_right (by decide) (by omega)

/-- A product is within twice its binary digits above the sum of the exponents, since it is a
product of mantissas that is rounded. -/
theorem within_mul_finite {m m' k : Nat} (hk : 0 < k) (hproduct : m * m' < 2 ^ k) {e e' bound : Int}
    (hbound : e + e' + 2 * k + 1 ≤ bound) (hk' : k ≤ bound) (s s' : Sign) (hm : 0 < m)
    (hm' : 0 < m') : Within bound (mul .binary64 (.finite s m e hm) (.finite s' m' e' hm')) :=
  within_roundWithAccuracy hk hproduct hbound hk' (s * s') .exact

/-! ## Doubles -/

/-- The mantissa of a double has 53 bits. -/
theorem mantissa_lt {x : Float} {sign : Sign} {mantissa : Nat} {exponent : Int}
    {hpos : 0 < mantissa} (h : x.toModel.unpack = .finite sign mantissa exponent hpos) :
    mantissa < 2 ^ 53 :=
  (unpack_eq_finite (by decide) h).1

/-- A double is within the bound of what it is made of. The greatest exponent of a double is 971. -/
theorem within_pack {bound : Int} (hbound : 0 ≤ bound) (hmax : bound ≤ 970) {x : UnpackedFloat}
    (h : Within bound x) : Within bound (Float.ofModel (.pack x)).toModel.unpack := by
  have hbias : (Format.binary64.exponentBias : Int) +
      Format.binary64.mantissaBitsWithoutImplicit = 1075 := rfl
  have hsize : (2 : Int) ^ Format.binary64.exponentBits = 2048 := rfl
  refine within_unpack_pack hbound (by decide) ?_ h
  rw [hbias, hsize]
  omega

/-- The product of two doubles is within the sum of their bounds and their binary digits. -/
theorem within_mul {x y : Float} {a b : Int} (hx : Within a x.toModel.unpack)
    (hy : Within b y.toModel.unpack) (ha : 0 ≤ a) (hb : 0 ≤ b) (hbound : a + b + 213 ≤ 970) :
    Within (a + b + 213) (x * y).toModel.unpack := by
  refine within_pack (by omega) hbound ?_
  have hmx : ∀ sign m e h, x.toModel.unpack = .finite sign m e h → m < 2 ^ 53 :=
    fun _ _ _ _ => mantissa_lt
  have hmy : ∀ sign m e h, y.toModel.unpack = .finite sign m e h → m < 2 ^ 53 :=
    fun _ _ _ _ => mantissa_lt
  generalize x.toModel.unpack = u at hx hmx
  generalize y.toModel.unpack = v at hy hmy
  cases u with
  | infinity sign => exact hx.elim
  | notANumber => exact hx.elim
  | zero sign =>
    cases v with
    | infinity sign => exact hy.elim
    | notANumber => exact hy.elim
    | zero | finite => trivial
  | finite sign m e hm =>
    cases v with
    | infinity sign => exact hy.elim
    | notANumber => exact hy.elim
    | zero => trivial
    | finite sign' m' e' hm' =>
      have he : e ≤ a := hx
      have he' : e' ≤ b := hy
      have hproduct : m * m' < 2 ^ 106 :=
        calc m * m' < 2 ^ 53 * 2 ^ 53 :=
              Nat.mul_lt_mul'' (hmx sign m e hm rfl) (hmy sign' m' e' hm' rfl)
          _ = 2 ^ 106 := (pow_add 2 53 53).symm
      exact within_mul_finite (by decide) hproduct (by omega) (by omega) sign sign' hm hm'

/-- A machine number of 64 bits is a double within a small bound. -/
theorem within_toFloat (n : UInt64) : Within 129 n.toFloat.toModel.unpack := by
  refine within_pack (by decide) (by decide) ?_
  show Within 129 (normalize .binary64 (n.toNat : Int) 0 .positive)
  unfold UnpackedFloat.normalize
  split
  · rename_i hneg
    rw [compare_lt_iff_lt] at hneg
    omega
  · trivial
  · exact within_round (by decide) n.toNat_lt (by decide) (by decide) .positive

/-- A number of 64 bits is a double within a small bound. It is converted like a decimal, by a
product with a power of ten, so that the bound is greater than that of a machine number. -/
theorem within_ofNat {n : Nat} (h : n < 2 ^ 64) : Within 342 (Float.ofNat n).toModel.unpack := by
  unfold Float.ofNat
  show Within 342 (Float.ofScientific n false 0).toModel.unpack
  unfold Float.ofScientific
  split
  · have hone : Within 0 (Float.exactlyRepresentablePowersOfTen[0]).toModel.unpack := by
      decide +kernel
    exact within_mul (within_toFloat _) hone (by decide) (by decide) (by decide)
  · refine within_pack (by decide) (by decide) ?_
    show Within 342 (UnpackedFloat.ofScientific .binary64 n 0)
    have hsize : (2 : Int) ^ Format.binary64.exponentBits = 2048 := rfl
    unfold UnpackedFloat.ofScientific
    by_cases hzero : n = 0
    · rw [dif_pos hzero]
      trivial
    · rw [dif_neg hzero, if_neg (by rw [hsize]; decide), if_neg (by rw [hsize]; omega),
        if_pos (by decide)]
      refine within_mul_finite (k := 117) (by decide) ?_ (by decide) (by decide) _ _ _ _
      rw [Nat.shiftLeft_eq, Int.toNat_zero, Nat.pow_zero, Nat.mul_one]
      calc n * 2 ^ 53 < 2 ^ 64 * 2 ^ 53 := Nat.mul_lt_mul_of_pos_right h (Nat.pow_pos (by decide))
        _ = 2 ^ 117 := (pow_add 2 64 53).symm

end NodeGraph.Binary

namespace NodeGraph.Json.Number

/-- The powers of ten up to the range of scalars are doubles within a small bound. -/
theorem within_powerOfTen {n : Nat} (h : n < 40) :
    Binary.Within 77 (powerOfTen n).toModel.unpack := by
  have hall : ∀ i : Fin 40, Binary.Within 77 (powerOfTen i).toModel.unpack := by decide +kernel
  exact hall ⟨n, h⟩

/-- A number of 64 bits times a power of ten that a scalar can have is finite. -/
theorem isInf_mul_powerOfTen {n e : Nat} (hn : n < UInt64.size) (he : e < 40) :
    (Float.ofNat n * powerOfTen e).isInf = false :=
  (Binary.within_mul (Binary.within_ofNat hn) (within_powerOfTen he) (by decide) (by decide)
    (by decide)).isInf

end NodeGraph.Json.Number
