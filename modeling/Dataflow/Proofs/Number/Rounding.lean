import Mathlib
import Dataflow.Number.Binary64

/-!
# Rounding to doubles

The functions that round fractions work on numerators and denominators.  What they compute is said
here in terms of the rational number that a fraction stands for: `Fraction.exponent` is its binary
exponent, a fraction that is a double rounds to this double (`nearestMagnitude_eq`), and one below
half of the least positive double rounds to zero (`nearestMagnitude_eq_zero`).
-/

namespace Dataflow
namespace Number

lemma roundDiv_mul (n : ℕ) {den : ℕ} (hden : 0 < den) : roundDiv (n * den) den = n := by
  have hrest : 2 * (n * den % den) < den := by rwa [Nat.mul_mod_left, Nat.mul_zero]
  rw [roundDiv]
  simp only [if_pos hrest, Nat.mul_div_cancel n hden]

lemma roundDiv_eq_zero {num den : ℕ} (h : 2 * num < den) : roundDiv num den = 0 := by
  have hlt : num < den := by omega
  rw [roundDiv]
  simp only [Nat.mod_eq_of_lt hlt, if_pos h, Nat.div_eq_of_lt hlt]

namespace Fraction

/-- The rational number that a fraction stands for. -/
def value (f : Fraction) : ℚ := f.num / f.den

variable {f : Fraction} {e q : ℤ} {n : ℕ}

lemma value_ofBinary (n : ℕ) (q : ℤ) : (ofBinary n q).value = n * 2 ^ q := by
  rw [ofBinary]
  obtain ⟨k, rfl | rfl⟩ := q.eq_nat_or_neg
  · simp [value]
  · split
    · next hk =>
      obtain rfl : k = 0 := by omega
      simp [value]
    · simp [value, div_eq_mul_inv]

/-! ## Exponents -/

section Positive

variable (hden : 0 < f.den)

include hden

lemma atLeastPower_iff : f.atLeastPower q = true ↔ (2 : ℚ) ^ q ≤ f.value := by
  have hden' : (0 : ℚ) < f.den := Nat.cast_pos.mpr hden
  rw [atLeastPower, value, le_div_iff₀ hden']
  obtain ⟨k, rfl | rfl⟩ := q.eq_nat_or_neg
  · rw [if_pos (Int.natCast_nonneg k), decide_eq_true_eq, Int.toNat_natCast, Nat.pow_eq,
      zpow_natCast, mul_comm]
    norm_cast
  · have hpower : (0 : ℚ) < 2 ^ k := by positivity
    rw [zpow_neg, zpow_natCast, inv_mul_le_iff₀ hpower]
    split
    · next hk =>
      obtain rfl : k = 0 := by omega
      simp
    · rw [decide_eq_true_eq, neg_neg, Int.toNat_natCast, Nat.pow_eq, mul_comm f.num]
      norm_cast

variable (hnum : 0 < f.num)

include hnum

/-- The exponent of the largest power of two that a fraction reaches. -/
lemma exponent_spec : (2 : ℚ) ^ f.exponent ≤ f.value ∧ f.value < 2 ^ (f.exponent + 1) := by
  have hden' : (0 : ℚ) < f.den := Nat.cast_pos.mpr hden
  have hnumLow : (2 : ℚ) ^ (f.num.log2 : ℤ) ≤ f.num := by
    exact_mod_cast Nat.log2_self_le hnum.ne'
  have hnumHigh : (f.num : ℚ) < 2 ^ (f.num.log2 + 1 : ℤ) := by
    exact_mod_cast Nat.lt_log2_self
  have hdenLow : (2 : ℚ) ^ (f.den.log2 : ℤ) ≤ f.den := by
    exact_mod_cast Nat.log2_self_le hden.ne'
  have hdenHigh : (f.den : ℚ) < 2 ^ (f.den.log2 + 1 : ℤ) := by
    exact_mod_cast Nat.lt_log2_self
  -- the guess is the exponent or one more
  have hlow : (2 : ℚ) ^ ((f.num.log2 : ℤ) - f.den.log2 - 1) ≤ f.value := by
    rw [value, le_div_iff₀ hden']
    calc (2 : ℚ) ^ ((f.num.log2 : ℤ) - f.den.log2 - 1) * f.den
        ≤ 2 ^ ((f.num.log2 : ℤ) - f.den.log2 - 1) * 2 ^ (f.den.log2 + 1 : ℤ) := by gcongr
      _ = 2 ^ (f.num.log2 : ℤ) := by rw [← zpow_add₀ two_ne_zero]; congr 1; ring
      _ ≤ f.num := hnumLow
  have hhigh : f.value < 2 ^ ((f.num.log2 : ℤ) - f.den.log2 + 1) := by
    rw [value, div_lt_iff₀ hden']
    calc (f.num : ℚ) < 2 ^ (f.num.log2 + 1 : ℤ) := hnumHigh
      _ = 2 ^ ((f.num.log2 : ℤ) - f.den.log2 + 1) * 2 ^ (f.den.log2 : ℤ) := by
        rw [← zpow_add₀ two_ne_zero]; congr 1; ring
      _ ≤ 2 ^ ((f.num.log2 : ℤ) - f.den.log2 + 1) * f.den := by gcongr
  rw [exponent]
  split
  · next hreach => exact ⟨(atLeastPower_iff hden).mp hreach, hhigh⟩
  · next hmiss =>
    refine ⟨hlow, ?_⟩
    rw [sub_add_cancel]
    exact not_le.mp fun hle => hmiss ((atLeastPower_iff hden).mpr hle)

lemma exponent_lt (h : f.value < 2 ^ e) : f.exponent < e :=
  (zpow_lt_zpow_iff_right₀ one_lt_two).mp ((exponent_spec hden hnum).1.trans_lt h)

lemma exponent_eq (hlow : (2 : ℚ) ^ e ≤ f.value) (hhigh : f.value < 2 ^ (e + 1)) :
    f.exponent = e := by
  have hle : e < f.exponent + 1 :=
    (zpow_lt_zpow_iff_right₀ one_lt_two).mp (hlow.trans_lt (exponent_spec hden hnum).2)
  have hlt := exponent_lt hden hnum hhigh
  omega

end Positive

/-! ## Significands -/

/-- A multiple of a power of two has an exact significand on the grid of this power. -/
lemma significand_eq (hden : 0 < f.den) (h : f.value = n * 2 ^ q) : f.significand q = n := by
  have hden' : (f.den : ℚ) ≠ 0 := Nat.cast_ne_zero.mpr hden.ne'
  rw [value, div_eq_iff hden'] at h
  rw [significand]
  obtain ⟨k, rfl | rfl⟩ := q.eq_nat_or_neg
  · have hnum : f.num = n * (f.den * 2 ^ k) := by
      rw [zpow_natCast, mul_assoc, mul_comm (2 ^ k : ℚ)] at h
      exact_mod_cast h
    rw [if_pos (Int.natCast_nonneg k), Int.toNat_natCast, Nat.pow_eq, hnum]
    exact roundDiv_mul n (by positivity)
  · have hnum : f.num * 2 ^ k = n * f.den := by
      rw [zpow_neg, zpow_natCast, mul_right_comm, eq_mul_inv_iff_mul_eq₀ (by positivity)] at h
      exact_mod_cast h
    split
    · next hk =>
      obtain rfl : k = 0 := by omega
      rw [Nat.pow_zero, Nat.mul_one] at hnum
      simpa [hnum] using roundDiv_mul n hden
    · rw [neg_neg, Int.toNat_natCast, Nat.pow_eq, hnum]
      exact roundDiv_mul n hden

/-- What is less than half of a power of two has the significand zero on the grid of this power. -/
lemma significand_eq_zero (hden : 0 < f.den) (h : f.value < 2 ^ (q - 1)) :
    f.significand q = 0 := by
  have hden' : (0 : ℚ) < f.den := Nat.cast_pos.mpr hden
  rw [value, div_lt_iff₀ hden', zpow_sub_one₀ two_ne_zero] at h
  rw [significand]
  obtain ⟨k, rfl | rfl⟩ := q.eq_nat_or_neg
  · have hsmall : 2 * f.num < f.den * 2 ^ k := by
      have hcast : (2 * f.num : ℚ) < f.den * 2 ^ k := by
        rw [zpow_natCast] at h
        linarith
      exact_mod_cast hcast
    rw [if_pos (Int.natCast_nonneg k), Int.toNat_natCast, Nat.pow_eq]
    exact roundDiv_eq_zero hsmall
  · have hsmall : 2 * (f.num * 2 ^ k) < f.den := by
      have hpower : (0 : ℚ) < 2 ^ k := by positivity
      have hcast : (2 * (f.num * 2 ^ k) : ℚ) < f.den := by
        rw [zpow_neg, zpow_natCast, mul_assoc, lt_inv_mul_iff₀ hpower] at h
        linarith
      exact_mod_cast hcast
    split
    · next hk =>
      obtain rfl : k = 0 := by omega
      simpa using roundDiv_eq_zero hsmall
    · rw [neg_neg, Int.toNat_natCast, Nat.pow_eq]
      exact roundDiv_eq_zero hsmall

end Fraction

/-! ## Doubles -/

variable {f : Fraction} {bits : ℕ}

lemma packMagnitude_unpackMagnitude (bits : ℕ) :
    packMagnitude (unpackMagnitude bits).1 (unpackMagnitude bits).2 = bits := by
  rw [unpackMagnitude]
  split
  all_goals
    next hfield =>
    rw [hiddenBit] at hfield
    simp only [packMagnitude, hiddenBit]
    omega

/-- A significand has at most 53 bits, and no fewer unless it is on the finest grid. -/
lemma unpackMagnitude_bounds (bits : ℕ) : (unpackMagnitude bits).1 < 2 ^ 53 ∧
    -1074 ≤ (unpackMagnitude bits).2 ∧
      ((unpackMagnitude bits).2 ≠ -1074 → 2 ^ 52 ≤ (unpackMagnitude bits).1) := by
  rw [unpackMagnitude]
  split
  all_goals
    next hfield =>
    simp only [hiddenBit] at hfield ⊢
    omega

lemma value_magnitudeFraction (bits : ℕ) : (magnitudeFraction bits).value =
    (unpackMagnitude bits).1 * 2 ^ (unpackMagnitude bits).2 := Fraction.value_ofBinary _ _

/-- A fraction that is equal to a finite double rounds to this double. -/
theorem nearestMagnitude_eq (hbits : bits < infinityBits) (hden : 0 < f.den)
    (h : f.value = (magnitudeFraction bits).value) : nearestMagnitude f = bits := by
  have hpack := packMagnitude_unpackMagnitude bits
  obtain ⟨hhigh, hleast, hlow⟩ := unpackMagnitude_bounds bits
  rw [value_magnitudeFraction] at h
  generalize (unpackMagnitude bits).1 = m at *
  generalize (unpackMagnitude bits).2 = q at *
  have hhigh' : (m : ℚ) < 2 ^ (53 : ℤ) := by exact_mod_cast hhigh
  have hpower : (0 : ℚ) < 2 ^ q := by positivity
  rw [nearestMagnitude]
  split
  · next hzero =>
    have hm : m = 0 := by
      rw [Fraction.value, hzero, Nat.cast_zero, zero_div, eq_comm, mul_eq_zero,
        Nat.cast_eq_zero] at h
      exact h.resolve_right hpower.ne'
    have hq : q = -1074 := not_not.mp fun hne => absurd (hlow hne) (by omega)
    rw [← hpack, hm, hq]
    rfl
  · next hnum =>
    have hpos : 0 < f.num := Nat.pos_of_ne_zero hnum
    have hbelow : f.value < 2 ^ (q + 52 + 1) := by
      rw [h, show q + 52 + 1 = 53 + q by ring, zpow_add₀ two_ne_zero]
      gcongr
    -- the grid of a double is the one it is rounded on
    have hgrid : f.gridExponent 53 (-1074) = q := by
      show max (-1074) (f.exponent + 1 - ((53 : ℕ) : ℤ)) = q
      by_cases hq : q = -1074
      · have hexponent := Fraction.exponent_lt hden hpos hbelow
        omega
      · have hlow' : (2 : ℚ) ^ (52 : ℤ) ≤ m := by exact_mod_cast hlow hq
        have habove : (2 : ℚ) ^ (q + 52) ≤ f.value := by
          rw [h, add_comm, zpow_add₀ two_ne_zero]
          gcongr
        have hexponent := Fraction.exponent_eq hden hpos habove hbelow
        omega
    have hsignificand : f.significand q = m := Fraction.significand_eq hden h
    simp only [hgrid, hsignificand, hpack]
    exact min_eq_left hbits.le

/-- What is less than half of the least positive double rounds to zero. -/
theorem nearestMagnitude_eq_zero (hden : 0 < f.den) (h : f.value < 2 ^ (-1075 : ℤ)) :
    nearestMagnitude f = 0 := by
  rw [nearestMagnitude]
  split
  · rfl
  · next hnum =>
    have hexponent := Fraction.exponent_lt hden (Nat.pos_of_ne_zero hnum) h
    have hgrid : f.gridExponent 53 (-1074) = -1074 := by
      rw [Fraction.gridExponent]
      omega
    have hsignificand : f.significand (-1074) = 0 := Fraction.significand_eq_zero hden h
    simp only [hgrid, hsignificand]
    rfl

end Number
end Dataflow
