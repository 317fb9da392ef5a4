import Mathlib.Algebra.Order.Ring.Nat
import NodeGraph.Decimal.Style
import NodeGraph.Proofs.Json.Tokens

/-!
# The numerals of floats

The decimal that stands for a float lies in the float's interval, or is the float's whole part
(`Decimal.shortest_cases`). From this follow its size (`Decimal.leadingExponent_shortest_lt`) and,
as no interval reaches down to zero, that it is written with no needless zero in front
(`Decimal.Layout.wellFormed_numeral?`).

Nothing is said here about the decimal being the shortest one, or the nearest. What is needed is
that its numeral is one that a document can have, and that the number it stands for is in the range
of scalars.
-/

namespace NodeGraph.Decimal

open Float.Model (Format UnpackedFloat)

/-! ## Digits -/

/-- Only the digits of zero start with zero. -/
theorem eq_zero_of_head?_toDigits {n : Nat} (h : (Nat.toDigits 10 n).head? = some '0') :
    n = 0 := by
  induction n using Nat.strongRecOn with
  | ind n ih =>
    rw [Nat.toDigits_eq_if (by decide)] at h
    split at h
    · rename_i hlt
      have hdigit : n.digitChar = '0' := by simpa using h
      revert hdigit
      have hall : ∀ i : Fin 10, Nat.digitChar i = '0' → i.val = 0 := by decide
      exact hall ⟨n, hlt⟩
    · rename_i hge
      have hfirst : (Nat.toDigits 10 (n / 10)).head? = some '0' := by
        rw [List.head?_append, List.head?_eq_some_head Nat.toDigits_ne_nil] at h
        rwa [List.head?_eq_some_head Nat.toDigits_ne_nil]
      have hzero := ih (n / 10) (by omega) hfirst
      omega

/-- A number is at least the power of ten of its first digit. -/
theorem pow_digitCount_le {n : Nat} (h : n ≠ 0) : 10 ^ (digitCount n - 1) ≤ n := by
  unfold digitCount
  by_contra hlt
  have hpos : 0 < (Nat.toDigits 10 n).length := Nat.length_toDigits_pos
  by_cases hone : (Nat.toDigits 10 n).length = 1
  · rw [hone, Nat.sub_self, pow_zero] at hlt
    omega
  · have hle := (Nat.length_toDigits_le_iff (b := 10) (n := n)
      (k := (Nat.toDigits 10 n).length - 1) (by decide) (by omega)).2 (by omega)
    omega

/-- A decimal below a power of ten has its first digit below that power. Both sides are multiplied
out, so that they are whole numbers. -/
theorem leadingExponent_lt {d : Decimal} {high bound : Nat} (hd : d.coefficient ≠ 0)
    (hle : d.coefficient * 10 ^ d.exponent.toNat ≤ high * 10 ^ (-d.exponent).toNat)
    (hhigh : high < 10 ^ bound) : d.leadingExponent < bound := by
  have hlt : 10 ^ (digitCount d.coefficient - 1 + d.exponent.toNat) <
      10 ^ (bound + (-d.exponent).toNat) :=
    calc 10 ^ (digitCount d.coefficient - 1 + d.exponent.toNat)
        = 10 ^ (digitCount d.coefficient - 1) * 10 ^ d.exponent.toNat := pow_add ..
      _ ≤ d.coefficient * 10 ^ d.exponent.toNat := Nat.mul_le_mul_right _ (pow_digitCount_le hd)
      _ ≤ high * 10 ^ (-d.exponent).toNat := hle
      _ < 10 ^ bound * 10 ^ (-d.exponent).toNat :=
        Nat.mul_lt_mul_of_pos_right hhigh (Nat.pow_pos (by decide))
      _ = 10 ^ (bound + (-d.exponent).toNat) := (pow_add ..).symm
  have hexponents := (Nat.pow_lt_pow_iff_right (by decide)).1 hlt
  unfold leadingExponent
  omega

/-! ## Decimals in an interval -/

namespace Interval

variable {i : Interval} {d : Decimal}

/-- A decimal in an interval is not above it. It may be its upper end. -/
theorem le_of_contains (h : i.contains d) :
    d.coefficient * 10 ^ d.exponent.toNat * i.scale ≤ i.high * 10 ^ (-d.exponent).toNat := by
  unfold contains at h
  simp only [Nat.pow_eq] at h
  split at h <;> simp only [decide_eq_true_eq] at h
  · exact h.2
  · exact h.2.le

/-- Zero is not in an interval that starts above it. -/
theorem coefficient_ne_zero_of_contains (hlow : 0 < i.low) (h : i.contains d) :
    d.coefficient ≠ 0 := by
  intro hzero
  unfold contains at h
  simp only [hzero, Nat.pow_eq, Nat.zero_mul] at h
  have hpos : 0 < i.low * 10 ^ (-d.exponent).toNat := Nat.mul_pos hlow (Nat.pow_pos (by decide))
  split at h <;> simp only [decide_eq_true_eq] at h <;> omega

/-- What is found on a grid is in the interval, since it is looked for there. -/
theorem contains_of_onGrid {tie : Tie} {exponent : Int} (h : i.onGrid tie exponent = some d) :
    i.contains d := by
  unfold onGrid at h
  dsimp only at h
  split at h
  · rename_i hbelow habove
    cases h
    split
    · exact hbelow
    · exact habove
    · split
      · exact habove
      · split
        · exact hbelow
        · exact habove
  · rename_i hbelow _
    cases h
    exact hbelow
  · rename_i _ habove
    cases h
    exact habove
  · cases h

/-- The interval of a float does not reach down to zero, since it goes at most half way to the float
below. -/
theorem low_around_pos (spec : Format) {mantissa : Nat} (h : 0 < mantissa) (exponent : Int) :
    0 < (around spec mantissa exponent).low := by
  unfold around
  dsimp only
  rw [Nat.shiftLeft_eq]
  refine Nat.mul_pos ?_ (Nat.pow_pos (by decide))
  split <;> omega

end Interval

/-! ## The shortest decimal -/

/-- Moving zeros to the exponent leaves the first digit where it is. -/
theorem leadingExponent_stripZeros (fuel : Nat) (d : Decimal) :
    (stripZeros fuel d).leadingExponent = d.leadingExponent := by
  induction fuel generalizing d with
  | zero => rfl
  | succ fuel ih =>
    rw [stripZeros]
    split
    · rename_i h
      have hcount : digitCount d.coefficient = digitCount (d.coefficient / 10) + 1 := by
        unfold digitCount
        rw [Nat.toDigits_of_base_le (by decide) (by omega : 10 ≤ d.coefficient)]
        simp
      rw [ih, leadingExponent, leadingExponent, hcount]
      dsimp only
      omega
    · rfl

/-- Moving zeros to the exponent makes nothing zero, and leaves zero as it is. -/
theorem stripZeros_cases (fuel : Nat) (d : Decimal) :
    (stripZeros fuel d).coefficient ≠ 0 ∨ stripZeros fuel d = d ∧ d.coefficient = 0 := by
  induction fuel generalizing d with
  | zero => exact (Decidable.em _).symm.imp id fun h => ⟨rfl, h⟩
  | succ fuel ih =>
    rw [stripZeros]
    split
    · rename_i h
      rcases ih ⟨d.coefficient / 10, d.exponent + 1⟩ with hne | ⟨-, hzero⟩
      · exact .inl hne
      · dsimp only at hzero
        omega
    · exact (Decidable.em _).symm.imp id fun h => ⟨rfl, h⟩

/-- The shortest decimal, before zeros are moved to the exponent, is in the float's interval, or it
is the whole part of the float. The latter is there for the case that no grid has a decimal in the
interval. -/
theorem shortest_cases (tie : Tie) (spec : Format) (mantissa : Nat) (exponent : Int) :
    ∃ d, shortest tie spec mantissa exponent = stripZeros 20 d ∧
      ((Interval.around spec mantissa exponent).contains d ∨
        d.exponent = 0 ∧ d.coefficient ≤ (Interval.around spec mantissa exponent).value) := by
  unfold shortest
  dsimp only
  cases hfound : (List.range 17).findSome? fun (n : Nat) =>
      (Interval.around spec mantissa exponent).onGrid tie
        ((Interval.around spec mantissa exponent).leadingExponent - n) with
  | none => exact ⟨_, rfl, .inr ⟨rfl, Nat.div_le_self _ _⟩⟩
  | some d =>
    obtain ⟨n, -, hgrid⟩ := List.exists_of_findSome?_eq_some hfound
    exact ⟨d, rfl, .inl (Interval.contains_of_onGrid hgrid)⟩

/-- The shortest decimal is zero only if it is a single zero, which is written as such. -/
theorem coefficient_shortest (tie : Tie) (spec : Format) {mantissa : Nat} (h : 0 < mantissa)
    (exponent : Int) :
    (shortest tie spec mantissa exponent).coefficient ≠ 0 ∨
      (shortest tie spec mantissa exponent).exponent = 0 := by
  obtain ⟨d, hd, hcases⟩ := shortest_cases tie spec mantissa exponent
  rw [hd]
  rcases stripZeros_cases 20 d with hne | ⟨heq, hzero⟩
  · exact .inl hne
  · rw [heq]
    rcases hcases with hcontains | ⟨hexponent, -⟩
    · exact .inl (Interval.coefficient_ne_zero_of_contains
        (Interval.low_around_pos spec h exponent) hcontains)
    · exact .inr hexponent

/-- The shortest decimal of a float that is below a power of ten has its first digit below that
power. -/
theorem leadingExponent_shortest_lt (tie : Tie) {spec : Format} {mantissa : Nat} (h : 0 < mantissa)
    {exponent : Int} {bound : Nat}
    (hhigh : (Interval.around spec mantissa exponent).high < 10 ^ bound) (hbound : 0 < bound) :
    (shortest tie spec mantissa exponent).leadingExponent < bound := by
  have hvalue : (Interval.around spec mantissa exponent).value ≤
      (Interval.around spec mantissa exponent).high := by
    simp only [Interval.around, Nat.shiftLeft_eq]
    exact Nat.mul_le_mul_right _ (by omega)
  have hscale : 0 < (Interval.around spec mantissa exponent).scale := by
    simp only [Interval.around, Nat.shiftLeft_eq]
    exact Nat.mul_pos (by decide) (Nat.pow_pos (by decide))
  obtain ⟨d, hd, hcases⟩ := shortest_cases tie spec mantissa exponent
  rw [hd, leadingExponent_stripZeros]
  rcases hcases with hcontains | ⟨hexponent, hle⟩
  · refine leadingExponent_lt (Interval.coefficient_ne_zero_of_contains
      (Interval.low_around_pos spec h exponent) hcontains) ?_ hhigh
    exact (Nat.le_mul_of_pos_right _ hscale).trans (Interval.le_of_contains hcontains)
  · by_cases hzero : d.coefficient = 0
    · have hone : digitCount 0 = 1 := rfl
      rw [leadingExponent, hzero, hexponent, hone]
      omega
    · refine leadingExponent_lt hzero ?_ hhigh
      simpa [hexponent] using hle.trans hvalue

/-! ## Numerals -/

namespace Layout

/-- A decimal that is not zero, or a single zero, has a well-formed numeral, in any layout. -/
theorem wellFormed_decimal (l : Layout) (negative : Bool) {d : Decimal}
    (h : d.coefficient ≠ 0 ∨ d.exponent = 0) : (l.decimal negative d).WellFormed := by
  have hne : d.digits ≠ [] := Nat.toDigits_ne_nil
  have hdigits : ∀ c ∈ d.digits, c.isDigit :=
    fun c hc => Nat.isDigit_of_mem_toDigits (by decide) (by decide) hc
  have hzeros : ∀ n, ∀ c ∈ List.replicate n '0', c.isDigit := by
    intro n c hc
    rw [List.eq_of_mem_replicate hc]
    rfl
  -- Digits that start with zero are those of zero, whose first and only place is the lowest one.
  have hleading : d.digits.head? = some '0' → d.digits = ['0'] ∧ d.leadingExponent = 0 := by
    intro hhead
    have hzero := eq_zero_of_head?_toDigits hhead
    have hexponent := h.resolve_left (not_not_intro hzero)
    rw [digits, leadingExponent, hzero, hexponent]
    exact ⟨rfl, rfl⟩
  unfold decimal
  dsimp only
  split
  · unfold positionalNumeral
    dsimp only
    split
    · refine ⟨List.cons_ne_nil _ _, by simp, fun _ => rfl, ?_⟩
      exact List.forall_mem_append.2 ⟨hzeros _, hdigits⟩
    · rename_i hlead
      split
      · refine ⟨by simp [hne], List.forall_mem_append.2 ⟨hdigits, hzeros _⟩, fun hhead => ?_, ?_⟩
        · have hfirst : d.digits.head? = some '0' := by
            rw [List.head?_append, List.head?_eq_some_head hne] at hhead
            rwa [List.head?_eq_some_head hne]
          obtain ⟨hone, hplace⟩ := hleading hfirst
          dsimp only
          rw [hone, hplace]
          rfl
        · unfold noFraction
          split <;> simp
      · rename_i hlong
        have hplaces : 0 < (d.leadingExponent + 1).toNat := by omega
        refine ⟨by simp [hne]; omega, fun c hc => hdigits c (List.mem_of_mem_take hc),
          fun hhead => ?_, fun c hc => hdigits c (List.mem_of_mem_drop hc)⟩
        dsimp only at hhead
        rw [List.head?_take, if_neg (by omega)] at hhead
        obtain ⟨hone, hplace⟩ := hleading hhead
        rw [hone, hplace] at hlong
        exact absurd (Nat.le_refl 1) hlong
  · refine ⟨by simp [hne], fun c hc => hdigits c (List.mem_of_mem_take hc), fun hhead => ?_,
      fun c hc => hdigits c (List.mem_of_mem_drop hc)⟩
    dsimp only at hhead ⊢
    rw [List.head?_take, if_neg (by decide)] at hhead
    rw [(hleading hhead).1]
    rfl

/-- The numeral of a float is well formed, of a zero or of any other finite float. -/
theorem wellFormed_numeral? {l : Layout} {spec : Format} {x : UnpackedFloat} {n : Numeral}
    (h : l.numeral? spec x = some n) : n.WellFormed := by
  cases x with
  | notANumber => cases h
  | infinity sign => cases h
  | zero sign =>
    cases h
    refine ⟨List.cons_ne_nil _ _, by simp, fun _ => rfl, ?_⟩
    unfold noFraction
    split <;> simp
  | finite sign mantissa exponent hpos =>
    cases h
    exact l.wellFormed_decimal _ (coefficient_shortest l.tie spec hpos exponent)

end Layout

end NodeGraph.Decimal
