import NodeGraph.Graph.Document
import NodeGraph.Proofs.Binary.Range
import NodeGraph.Proofs.Decimal.Written
import NodeGraph.Proofs.Json.Spacing

/-!
# Written numbers

A whole number of 64 bits that is written is read as that number (`Json.int?_int`). Its digits are
taken one by one, and none of them leads out of 64 bits.

A numeral that stays below the range of doubles is read as a number
(`Json.Number.isSome_ofNumeral?`), and what is written of a finite scalar does. So a scalar that is
written can be read again exactly if it is finite: `Json.isSome_reread?`. Nothing is said here about
which scalar is read.
-/

namespace NodeGraph.Json

open Float.Model (Format)
open Decimal

/-! ## Whole numbers -/

namespace Number

/-- Further digits do not make a number smaller, so that what fits in the end fits on the way. -/
theorem le_ofDigits (start : Nat) (ds : List Char) : start ≤ Numeral.ofDigits 10 start ds := by
  induction ds generalizing start with
  | nil => exact Nat.le_refl start
  | cons d ds ih =>
    have hnext : start ≤ start * 10 + Numeral.digitValue d := by omega
    exact hnext.trans (ih _)

/-- Digits that make a number of 64 bits are all taken, and none is left over for the exponent. -/
theorem significand_eq {start : Nat} {ds : List Char}
    (h : Numeral.ofDigits 10 start ds < UInt64.size) :
    significand start ds = (Numeral.ofDigits 10 start ds, []) := by
  induction ds generalizing start with
  | nil => rfl
  | cons d ds ih =>
    have hnext : start * 10 + Numeral.digitValue d < UInt64.size := (le_ofDigits _ ds).trans_lt h
    rw [significand, if_pos hnext]
    exact ih h

end Number

/-- A whole number that fits in 64 bits is read as that number. With a sign there is one bit
less. -/
theorem int?_int {n : Int} (hlow : -9223372036854775808 ≤ n) (hhigh : n < UInt64.size) :
    (int n).int? = some n := by
  have hsize : (UInt64.size : Int) = 18446744073709551616 := rfl
  have hdigits : Number.significand 0 (Nat.toDigits 10 n.natAbs) = (n.natAbs, []) := by
    have hlt : Numeral.ofDigits 10 0 (Nat.toDigits 10 n.natAbs) < UInt64.size := by
      rw [Numeral.ofDigits_toDigits]
      omega
    rw [Number.significand_eq hlt, Numeral.ofDigits_toDigits]
  have hnumber : (int n).number? =
      if 0 ≤ n then some (.natural n.natAbs) else some (.negative (-n.natAbs)) := by
    show Number.ofNumeral? (.ofInt n) = _
    unfold Number.ofNumeral? Numeral.ofInt
    dsimp only
    rw [hdigits]
    by_cases hneg : n < 0
    · have hbound : 0 < n.natAbs ∧ n.natAbs ≤ 9223372036854775808 := by omega
      simp [hneg, hbound]
    · simp [hneg, Int.not_lt.1 hneg]
  rw [int?, hnumber]
  split
  · show some (n.natAbs : Int) = some n
    congr 1
    omega
  · show some (-(n.natAbs : Int)) = some n
    congr 1
    omega

/-- A natural number below a bound of 64 bits is read as that number. Node numbers and the like are
read so. -/
theorem nat?_int {bound n : Nat} (hbound : bound ≤ UInt64.size) (h : n < bound) :
    (int n).nat? bound = some n := by
  have hsize : (UInt64.size : Int) = 18446744073709551616 := rfl
  have hint : (int n).int? = some (n : Int) := int?_int (by omega) (by omega)
  rw [nat?, hint]
  show (if 0 ≤ (n : Int) ∧ (n : Int) < bound then some (n : Int).toNat else none) = some n
  rw [if_pos (by omega), Int.toNat_natCast]

/-- A whole number is a tree that can be written, of any size. -/
@[simp]
theorem writable_int (n : Int) : (int n).Writable := by
  refine .number ⟨Nat.toDigits_ne_nil, fun c hc => ?_, fun hhead => ?_, fun c hc => ?_⟩
  · exact Nat.isDigit_of_mem_toDigits (by decide) (by decide) hc
  · show Nat.toDigits 10 n.natAbs = ['0']
    rw [eq_zero_of_head?_toDigits hhead]
    rfl
  · cases hc

/-! ## Scalars -/

namespace Number

/-- The digits that are taken make a number of 64 bits, and no digits come in addition. -/
theorem significand_bounds {start : Nat} (h : start < UInt64.size) (ds : List Char) :
    (significand start ds).1 < UInt64.size ∧ (significand start ds).2.length ≤ ds.length := by
  induction ds generalizing start with
  | nil => exact ⟨h, Nat.le_refl 0⟩
  | cons d ds ih =>
    rw [significand]
    split
    · rename_i hnext
      obtain ⟨hlt, hle⟩ := ih hnext
      exact ⟨hlt, Nat.le_succ_of_le hle⟩
    · exact ⟨h, Nat.le_refl _⟩

/-- Scaling down always has a result: a number that gets too small is zero, which is no error. -/
theorem isSome_scale?_of_neg (fuel : Nat) (x : Float) {e : Int} (h : e < 0) :
    (scale? fuel x e).isSome := by
  induction fuel generalizing x e with
  | zero => rfl
  | succ fuel ih =>
    have hneg : ¬0 ≤ e := by omega
    rw [scale?, if_neg hneg, if_neg hneg]
    split
    · rfl
    · split
      · rfl
      · exact ih _ (by omega)

/-- Scaling a number of 64 bits has a result if it stays in the range of scalars. That range is far
below the one of doubles, where the error would be. -/
theorem isSome_scale? {n : Nat} (hn : n < UInt64.size) {e : Int} (he : e < 40) (fuel : Nat) :
    (scale? (fuel + 1) (Float.ofNat n) e).isSome := by
  by_cases hneg : e < 0
  · exact isSome_scale?_of_neg (fuel + 1) _ hneg
  · have hfinite := isInf_mul_powerOfTen hn (e := e.natAbs) (by omega)
    rw [scale?, if_pos (by omega), if_pos (by omega)]
    dsimp only
    rw [hfinite]
    rfl

/-- A numeral whose digits before the point and exponent stay in the range of scalars is a number.
Digits after the point only make the exponent smaller. -/
theorem isSome_ofNumeral? {n : Numeral} (h : (n.whole.length : Int) + n.exponent.getD 0 < 40) :
    (ofNumeral? n).isSome := by
  have hreal : (real? n).isSome := by
    obtain ⟨hs, hbeyond⟩ := significand_bounds (by decide : 0 < UInt64.size) n.whole
    obtain ⟨hs', hdropped⟩ := significand_bounds hs n.fraction
    have hscale := isSome_scale? hs' (e := ((significand 0 n.whole).2.length : Int) -
      (n.fraction.length - (significand (significand 0 n.whole).1 n.fraction).2.length) +
        n.exponent.getD 0) (by omega) 3
    obtain ⟨x, hx⟩ := Option.isSome_iff_exists.1 hscale
    unfold real?
    dsimp only
    rw [hx]
    rfl
  unfold ofNumeral?
  split
  · split
    · rfl
    · split <;> rfl
  · rw [Option.isSome_map]
    exact hreal

end Number

/-- The interval of a scalar ends in the range of scalars. The greatest exponent that a scalar can
have is 104. -/
theorem high_around_lt {mantissa : Nat} {exponent : Int} (hmantissa : mantissa < 2 ^ 24)
    (hexponent : exponent ≤ 104) :
    (Interval.around .binary32 mantissa exponent).high < 10 ^ 39 := by
  have hpow : 2 ^ (exponent - 2).toNat ≤ 2 ^ 102 := Nat.pow_le_pow_right (by decide) (by omega)
  calc (4 * mantissa + 2) <<< (exponent - 2).toNat
      = (4 * mantissa + 2) * 2 ^ (exponent - 2).toNat := Nat.shiftLeft_eq ..
    _ ≤ 2 ^ 26 * 2 ^ 102 := Nat.mul_le_mul (by omega) hpow
    _ < 10 ^ 39 := by decide

/-- The numeral of a scalar stays in the range of scalars, since its digits are those of a decimal
in the scalar's interval. -/
theorem extent_lt {x : Float32} {n : Numeral}
    (h : scalarLayout.numeral? .binary32 x.toModel.unpack = some n) :
    (n.whole.length : Int) + n.exponent.getD 0 < 40 := by
  cases hx : x.toModel.unpack with
  | notANumber => rw [hx] at h; cases h
  | infinity sign => rw [hx] at h; cases h
  | zero sign =>
    rw [hx] at h
    cases h
    show (1 : Int) + 0 < 40
    decide
  | finite sign mantissa exponent hpos =>
    rw [hx] at h
    cases h
    obtain ⟨hmantissa, hexponent⟩ := Binary.unpack_eq_finite (by decide) hx
    have hle : exponent ≤ 104 := by
      have hbias : ((Format.binary32.exponentBias : Int) +
          Format.binary32.mantissaBitsWithoutImplicit) = 150 := rfl
      have hsize : (2 : Int) ^ Format.binary32.exponentBits = 256 := rfl
      rw [hbias, hsize] at hexponent
      omega
    have hlead := leadingExponent_shortest_lt scalarLayout.tie hpos
      (high_around_lt hmantissa hle) (by decide)
    generalize shortest scalarLayout.tie .binary32 mantissa exponent = d at hlead
    unfold Layout.decimal
    dsimp only
    split
    · rename_i hpositional
      have hsmall : d.leadingExponent ≤ 12 := by
        simp only [scalarLayout, Bool.and_eq_true, decide_eq_true_eq] at hpositional
        exact hpositional.2
      unfold Layout.positionalNumeral
      dsimp only
      split
      · show (1 : Int) + 0 < 40
        decide
      · split
        · simp only [List.length_append, List.length_replicate, Option.getD_none]
          omega
        · simp only [List.length_take, Option.getD_none]
          omega
    · simp only [List.length_take, Option.getD_some]
      omega

/-- What stands for a scalar is a tree that can be written. It is `null` for a scalar that is not
finite. -/
@[simp]
theorem writable_ofScalar (x : Float32) : (ofScalar x).Writable := by
  unfold ofScalar
  split
  · exact .number (Layout.wellFormed_numeral? ‹_›)
  · exact .null

/-- The scalar that is read from the text that is written of a scalar. It is defined by texts,
without the tree in between. -/
def reread? (x : Float32) : Option Float32 :=
  (parse? (ofScalar x).pretty).bind scalar?

/-- A scalar that is written is read from its tree, since the text of a tree is read as the tree. -/
theorem reread?_eq (x : Float32) : reread? x = (ofScalar x).scalar? := by
  rw [reread?, parse?_pretty (writable_ofScalar x)]
  rfl

/-- A scalar that is written can be read again exactly if it is finite. The text of a scalar that is
not finite is `null`, which no reader of scalars takes. -/
theorem isSome_reread? (x : Float32) : (reread? x).isSome = x.isFinite := by
  have hfinite : x.isFinite = x.toModel.unpack.isFinite := rfl
  rw [reread?_eq, hfinite]
  unfold ofScalar
  split
  · rename_i n hn
    have hnumber := Number.isSome_ofNumeral? (extent_lt hn)
    have hunpacked : x.toModel.unpack.isFinite = true := by
      cases hx : x.toModel.unpack with
      | notANumber => rw [hx] at hn; cases hn
      | infinity sign => rw [hx] at hn; cases hn
      | zero | finite => rfl
    rw [scalar?, Option.isSome_map, hunpacked]
    exact hnumber
  · rename_i hnone
    cases hx : x.toModel.unpack with
    | notANumber | infinity => rfl
    | zero | finite => rw [hx] at hnone; cases hnone

end NodeGraph.Json
