import Dataflow.Proofs.Number.Rounding

/-!
# Rounding keeps the order

Rounding a fraction to a grid gives the nearest multiple of the grid's spacing, the even one if two
are as near (`Fraction.significand_spec`).  So a larger fraction is never rounded to something
smaller, neither on one grid (`Fraction.significand_mono`) nor when the grid depends on the size of
the fraction (`Fraction.rounded_mono`), and what has been rounded stays (`Fraction.rounded_eq`).
Doubles are rounded fractions: their bits are ordered as their values (`value_strictMono`).
-/

namespace Dataflow
namespace Number

lemma roundDiv_spec (num : ℕ) {den : ℕ} (hden : 0 < den) :
    2 * num ≤ 2 * (roundDiv num den * den) + den ∧ 2 * (roundDiv num den * den) ≤ 2 * num + den ∧
      (2 * num = 2 * (roundDiv num den * den) + den ∨
        2 * (roundDiv num den * den) = 2 * num + den → roundDiv num den % 2 = 0) := by
  have hparts := Nat.div_add_mod' num den
  have hrest := Nat.mod_lt num hden
  rw [roundDiv]
  generalize num / den = quotient at *
  generalize num % den = rest at *
  have hnext : (quotient + 1) * den = quotient * den + den := Nat.succ_mul quotient den
  split_ifs with hlow hhigh
  · omega
  · omega
  · rcases Nat.mod_two_eq_zero_or_one quotient with heven | hodd
    · rw [heven, Nat.add_zero]
      omega
    · rw [hodd]
      omega

namespace Fraction

variable {f f' : Fraction} {q least : ℤ} {n precision : ℕ}

/-- A significand is the nearest integer to the number of times that the grid's spacing fits in, the
even one if two are as near. -/
lemma significand_spec (hden : 0 < f.den) (q : ℤ) :
    f.value / 2 ^ q ≤ f.significand q + 1 / 2 ∧ f.significand q ≤ f.value / 2 ^ q + 1 / 2 ∧
      (f.value / 2 ^ q = f.significand q + 1 / 2 ∨ f.significand q = f.value / 2 ^ q + 1 / 2 →
        f.significand q % 2 = 0) := by
  -- the quotient that is rounded
  obtain ⟨num, den, hpos, hquotient, hvalue⟩ : ∃ num den : ℕ, 0 < den ∧
      f.significand q = roundDiv num den ∧ f.value / 2 ^ q = num / den := by
    rw [significand, value]
    obtain ⟨k, rfl | rfl⟩ := q.eq_nat_or_neg
    · refine ⟨f.num, f.den * 2 ^ k, by positivity, ?_, ?_⟩
      · rw [if_pos (Int.natCast_nonneg k), Int.toNat_natCast, Nat.pow_eq]
      · rw [zpow_natCast, div_div]
        push_cast
        rfl
    · refine ⟨f.num * 2 ^ k, f.den, hden, ?_, ?_⟩
      · split
        · next hk =>
          obtain rfl : k = 0 := by omega
          simp
        · rw [neg_neg, Int.toNat_natCast, Nat.pow_eq]
      · rw [zpow_neg, zpow_natCast, div_inv_eq_mul, div_mul_eq_mul_div]
        push_cast
        rfl
  obtain ⟨hle, hge, htie⟩ := roundDiv_spec num hpos
  have hpos' : (0 : ℚ) < den := Nat.cast_pos.mpr hpos
  have hle' : (2 * num : ℚ) ≤ 2 * (roundDiv num den * den) + den := by exact_mod_cast hle
  have hge' : (2 * (roundDiv num den * den) : ℚ) ≤ 2 * num + den := by exact_mod_cast hge
  rw [hquotient, hvalue]
  refine ⟨?_, ?_, fun h => htie (h.imp (fun h => ?_) fun h => ?_)⟩
  · rw [div_le_iff₀ hpos']
    linarith
  · rw [← sub_le_iff_le_add, le_div_iff₀ hpos']
    linarith
  · rw [div_eq_iff hpos'.ne'] at h
    have h' : (2 * num : ℚ) = 2 * (roundDiv num den * den) + den := by linarith
    exact_mod_cast h'
  · rw [← sub_eq_iff_eq_add, eq_div_iff hpos'.ne'] at h
    have h' : (2 * (roundDiv num den * den) : ℚ) = 2 * num + den := by linarith
    exact_mod_cast h'

/-- On one grid a larger fraction has no smaller significand. -/
lemma significand_mono (hden : 0 < f.den) (hden' : 0 < f'.den) (h : f.value ≤ f'.value) (q : ℤ) :
    f.significand q ≤ f'.significand q := by
  obtain ⟨-, hge, htie⟩ := significand_spec hden q
  obtain ⟨hle, -, htie'⟩ := significand_spec hden' q
  have hdiv : f.value / 2 ^ q ≤ f'.value / 2 ^ q := by gcongr
  by_contra hlt
  have hnext : (f'.significand q : ℚ) + 1 ≤ f.significand q := by exact_mod_cast not_le.mp hlt
  -- both fractions lie in the middle between two neighbours, one of which is odd
  have heven := htie (.inr (by linarith))
  have heven' := htie' (.inl (by linarith))
  have heq : (f.significand q : ℚ) = f'.significand q + 1 := by linarith
  have heq' : f.significand q = f'.significand q + 1 := by exact_mod_cast heq
  omega

lemma den_ofBinary_pos (n : ℕ) (q : ℤ) : 0 < (ofBinary n q).den := by
  rw [ofBinary]
  split
  · exact Nat.one_pos
  · exact Nat.pow_pos (by decide)

lemma significand_le (hden : 0 < f.den) (h : f.value ≤ n * 2 ^ q) : f.significand q ≤ n := by
  have hpos := den_ofBinary_pos n q
  rw [← value_ofBinary] at h
  exact (significand_mono hden hpos h q).trans_eq (significand_eq hpos (value_ofBinary n q))

lemma le_significand (hden : 0 < f.den) (h : n * 2 ^ q ≤ f.value) : n ≤ f.significand q := by
  have hpos := den_ofBinary_pos n q
  rw [← value_ofBinary] at h
  exact (significand_eq hpos (value_ofBinary n q)).ge.trans (significand_mono hpos hden h q)

/-! ## Grids that depend on the fraction -/

/-- The fraction rounded to so many significant bits. -/
def rounded (f : Fraction) (precision : ℕ) (least : ℤ) : ℚ :=
  f.significand (f.gridExponent precision least) * 2 ^ f.gridExponent precision least

lemma value_nonneg (f : Fraction) : 0 ≤ f.value := by
  rw [value]
  positivity

lemma rounded_nonneg (f : Fraction) (precision : ℕ) (least : ℤ) :
    0 ≤ f.rounded precision least := by
  rw [rounded]
  positivity

lemma num_pos_of_value (h : 0 < f.value) : 0 < f.num := by
  rw [Nat.pos_iff_ne_zero]
  rintro heq
  rw [value, heq, Nat.cast_zero, zero_div] at h
  exact lt_irrefl _ h

lemma rounded_of_value (hden : 0 < f.den) (h : f.value = 0) :
    f.rounded precision least = 0 := by
  have hzero := significand_le (n := 0) (q := f.gridExponent precision least) hden (by simp [h])
  rw [rounded, Nat.le_zero.mp hzero, Nat.cast_zero, zero_mul]

/-- **A larger fraction is rounded to no less.** -/
lemma rounded_mono (hprecision : 0 < precision) (hden : 0 < f.den) (hden' : 0 < f'.den)
    (h : f.value ≤ f'.value) : f.rounded precision least ≤ f'.rounded precision least := by
  rcases f.value_nonneg.eq_or_lt with hzero | hpos
  · rw [rounded_of_value hden hzero.symm]
    exact rounded_nonneg ..
  have hnum := num_pos_of_value hpos
  have hnum' := num_pos_of_value (hpos.trans_le h)
  obtain ⟨hlow, hhigh⟩ := exponent_spec hden hnum
  obtain ⟨hlow', hhigh'⟩ := exponent_spec hden' hnum'
  have hexponent : f.exponent < f'.exponent + 1 :=
    (zpow_lt_zpow_iff_right₀ one_lt_two).mp (hlow.trans_lt (h.trans_lt hhigh'))
  rw [rounded, rounded]
  by_cases hgrid : f.gridExponent precision least = f'.gridExponent precision least
  · rw [hgrid]
    gcongr
    exact significand_mono hden hden' h _
  -- the power of two that the larger fraction reaches lies between the two
  · obtain ⟨hone, htwo, hthree⟩ : f.exponent + 1 ≤ f'.exponent ∧
        f.gridExponent precision least ≤ f'.exponent ∧
        f'.gridExponent precision least ≤ f'.exponent := by
      rw [gridExponent, gridExponent] at *
      omega
    have hpower : ∀ {q : ℤ}, q ≤ f'.exponent → ((2 ^ (f'.exponent - q).toNat : ℕ) : ℚ) * 2 ^ q =
        2 ^ f'.exponent := by
      intro q hq
      push_cast
      rw [← zpow_natCast, ← zpow_add₀ two_ne_zero]
      congr 1
      omega
    calc (f.significand (f.gridExponent precision least) : ℚ) * 2 ^ f.gridExponent precision least
        ≤ ((2 ^ (f'.exponent - f.gridExponent precision least).toNat : ℕ) : ℚ) *
            2 ^ f.gridExponent precision least := by
          gcongr
          refine significand_le hden ?_
          rw [hpower htwo]
          exact hhigh.le.trans (zpow_le_zpow_right₀ one_le_two hone)
      _ = 2 ^ f'.exponent := hpower htwo
      _ = ((2 ^ (f'.exponent - f'.gridExponent precision least).toNat : ℕ) : ℚ) *
            2 ^ f'.gridExponent precision least := (hpower hthree).symm
      _ ≤ f'.significand (f'.gridExponent precision least) *
            2 ^ f'.gridExponent precision least := by
          gcongr
          refine le_significand hden' ?_
          rw [hpower hthree]
          exact hlow'

/-- A significand has no more than the bits that the grid leaves it. -/
lemma significand_le_pow (hden : 0 < f.den) :
    f.significand (f.gridExponent precision least) ≤ 2 ^ precision := by
  rcases f.value_nonneg.eq_or_lt with hzero | hpos
  · refine significand_le hden ?_
    rw [← hzero]
    positivity
  · obtain ⟨-, hhigh⟩ := exponent_spec hden (num_pos_of_value hpos)
    refine significand_le hden ?_
    rw [Nat.cast_pow, Nat.cast_ofNat, ← zpow_natCast, ← zpow_add₀ two_ne_zero]
    refine hhigh.le.trans (zpow_le_zpow_right₀ one_le_two ?_)
    rw [gridExponent]
    omega

/-- What lies on a grid lies on every finer one. -/
lemma exists_multiple {q' : ℤ} (h : q' ≤ q) (n : ℕ) : ∃ m : ℕ, (n : ℚ) * 2 ^ q = m * 2 ^ q' := by
  refine ⟨n * 2 ^ (q - q').toNat, ?_⟩
  push_cast
  rw [mul_assoc, ← zpow_natCast, ← zpow_add₀ two_ne_zero, Int.toNat_of_nonneg (by omega),
    sub_add_cancel]

/-- **What has no more bits is not changed by rounding.** -/
lemma rounded_eq (hprecision : 0 < precision) (hden : 0 < f.den) (hn : n ≤ 2 ^ precision)
    (hq : least ≤ q) (h : f.value = n * 2 ^ q) : f.rounded precision least = f.value := by
  rcases f.value_nonneg.eq_or_lt with hzero | hpos
  · rw [rounded_of_value hden hzero.symm, ← hzero]
  have hnum := num_pos_of_value hpos
  obtain ⟨m, hm⟩ : ∃ m : ℕ, f.value = m * 2 ^ f.gridExponent precision least := by
    have hcast : (2 : ℚ) ^ (precision + q) = (2 ^ precision : ℕ) * 2 ^ q := by
      rw [zpow_add₀ two_ne_zero, zpow_natCast, Nat.cast_pow, Nat.cast_ofNat]
    rcases hn.eq_or_lt with rfl | hlt
    · -- a power of two lies on the next coarser grid, too
      have hexponent : f.exponent = precision + q := by
        refine exponent_eq hden hnum (by rw [h, hcast]) ?_
        rw [h, ← hcast]
        exact zpow_lt_zpow_right₀ one_lt_two (by omega)
      have hgrid : f.gridExponent precision least ≤ precision + q := by
        rw [gridExponent]
        omega
      obtain ⟨m, hm⟩ := exists_multiple hgrid 1
      exact ⟨m, by rw [h, ← hcast, ← hm, Nat.cast_one, one_mul]⟩
    · have hexponent : f.exponent < precision + q := by
        refine exponent_lt hden hnum ?_
        rw [h, hcast]
        gcongr
      have hgrid : f.gridExponent precision least ≤ q := by
        rw [gridExponent]
        omega
      obtain ⟨m, hm⟩ := exists_multiple hgrid n
      exact ⟨m, h.trans hm⟩
  rw [rounded, significand_eq hden hm, ← hm]

end Fraction

/-! ## Doubles -/

variable {bits bits' : ℕ} {f f' : Fraction}

lemma unpackMagnitude_subnormal (h : bits / hiddenBit = 0) :
    unpackMagnitude bits = (bits % hiddenBit, -1074) := if_pos h

lemma unpackMagnitude_normal (h : bits / hiddenBit ≠ 0) :
    unpackMagnitude bits = (bits % hiddenBit + hiddenBit, ((bits / hiddenBit : ℕ) : ℤ) - 1075) :=
  if_neg h

lemma den_magnitudeFraction_pos (bits : ℕ) : 0 < (magnitudeFraction bits).den :=
  Fraction.den_ofBinary_pos ..

/-- A significand may have been carried to the next power of two. -/
lemma value_packMagnitude {n : ℕ} {q : ℤ} (hn : n ≤ 2 ^ 53) (hq : -1074 ≤ q)
    (hlow : q ≠ -1074 → 2 ^ 52 ≤ n) :
    (magnitudeFraction (packMagnitude n q)).value = n * 2 ^ q := by
  obtain ⟨k, rfl⟩ : ∃ k : ℕ, q = k - 1074 := ⟨(q + 1074).toNat, by omega⟩
  have hpack : packMagnitude n (k - 1074) = k * hiddenBit + n := by
    rw [packMagnitude, sub_add_cancel, Int.toNat_natCast]
  rw [value_magnitudeFraction, hpack]
  have hhidden : hiddenBit = 2 ^ 52 := rfl
  rcases Nat.lt_or_ge n hiddenBit with hsmall | hlarge
  · obtain rfl : k = 0 := by omega
    rw [Nat.zero_mul, Nat.zero_add, unpackMagnitude_subnormal (Nat.div_eq_of_lt hsmall),
      Nat.mod_eq_of_lt hsmall]
    rfl
  · rcases hn.eq_or_lt with rfl | hlt
    · have hcarried : k * hiddenBit + 2 ^ 53 = (k + 2) * hiddenBit := by rw [hhidden]; ring
      have hfield : (k * hiddenBit + 2 ^ 53) / hiddenBit = k + 2 := by
        rw [hcarried, Nat.mul_div_cancel _ (by decide)]
      rw [unpackMagnitude_normal (by omega), hfield, hcarried, Nat.mul_mod_left, hhidden]
      have hnext : ((k + 2 : ℕ) : ℤ) - 1075 = 1 + (k - 1074) := by push_cast; ring
      rw [hnext, zpow_add₀ two_ne_zero]
      push_cast
      ring
    · obtain ⟨low, rfl⟩ := Nat.exists_eq_add_of_le hlarge
      have hparts : k * hiddenBit + (hiddenBit + low) = low + hiddenBit * (k + 1) := by ring
      have hrest : low < hiddenBit := by omega
      have hfield : (k * hiddenBit + (hiddenBit + low)) / hiddenBit = k + 1 := by
        rw [hparts, Nat.add_mul_div_left _ _ (by decide), Nat.div_eq_of_lt hrest, Nat.zero_add]
      have hmod : (k * hiddenBit + (hiddenBit + low)) % hiddenBit = low := by
        rw [hparts, Nat.add_mul_mod_self_left, Nat.mod_eq_of_lt hrest]
      rw [unpackMagnitude_normal (by omega), hfield, hmod, Nat.add_comm low]
      congr 2
      push_cast
      ring

/-- Magnitudes are ordered as their values. -/
lemma value_strictMono : StrictMono fun bits => (magnitudeFraction bits).value := by
  refine strictMono_nat_of_lt_succ fun bits => ?_
  obtain ⟨hhigh, hleast, hlow⟩ := unpackMagnitude_bounds bits
  have hnext : packMagnitude ((unpackMagnitude bits).1 + 1) (unpackMagnitude bits).2 = bits + 1 :=
    congrArg Nat.succ (packMagnitude_unpackMagnitude bits)
  rw [← hnext, value_packMagnitude hhigh hleast fun hne => (hlow hne).trans (Nat.le_succ _),
    value_magnitudeFraction]
  gcongr
  exact Nat.lt_succ_self _

lemma value_infinityBits : (magnitudeFraction infinityBits).value = 2 ^ (1024 : ℤ) := by
  have hpack : infinityBits = packMagnitude (2 ^ 52) 972 := by decide
  rw [hpack, value_packMagnitude (by decide) (by decide) fun _ => le_refl _, Nat.cast_pow,
    Nat.cast_ofNat, ← zpow_natCast, ← zpow_add₀ two_ne_zero]
  rfl

/-- The nearest double has the rounded value, unless there is none as large. -/
lemma value_nearestMagnitude (hden : 0 < f.den) : (magnitudeFraction (nearestMagnitude f)).value =
    min (f.rounded 53 (-1074)) (2 ^ (1024 : ℤ)) := by
  rw [nearestMagnitude]
  split
  · next hzero =>
    have hvalue : f.value = 0 := by rw [Fraction.value, hzero, Nat.cast_zero, zero_div]
    rw [Fraction.rounded_of_value hden hvalue, min_eq_left (by positivity)]
    decide +kernel
  · next hnum =>
    have hpos := Nat.pos_of_ne_zero hnum
    dsimp only
    rw [value_strictMono.monotone.map_min, value_infinityBits, Fraction.rounded]
    congr 1
    refine value_packMagnitude (Fraction.significand_le_pow hden)
      (by rw [Fraction.gridExponent]; omega) fun hne => Fraction.le_significand hden ?_
    obtain ⟨hlow, -⟩ := Fraction.exponent_spec hden hpos
    have hgrid : f.gridExponent 53 (-1074) = f.exponent - 52 := by
      rw [Fraction.gridExponent] at *
      omega
    rw [hgrid, Nat.cast_pow, Nat.cast_ofNat, ← zpow_natCast, ← zpow_add₀ two_ne_zero]
    exact (congrArg ((2 : ℚ) ^ ·) (by push_cast; ring)).trans_le hlow

end Number
end Dataflow
