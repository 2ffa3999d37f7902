import Dataflow.ElementType
import Dataflow.Proofs.Number.Order

/-!
# Coercion to element types

What a slot stores, it stores again without a change (`ElementType.coerce_coerce`), and a number
stays a number.  Except for truth values, coercion keeps the order: single-precision numbers are
rounded fractions, integers are whole parts that stop at the ends of their range
(`ElementType.key_coerce_mono`).
-/

namespace Dataflow
namespace Number

variable {a b v : Float} {bits bits' bound : ℕ} {n : ℤ}

lemma key_ofMagnitudeBits (negative : Bool) (h : bits ≤ infinityBits) :
    key (ofMagnitudeBits negative bits) = if negative then -(bits : ℤ) else bits := by
  obtain ⟨hsign, hbits⟩ := parts_ofMagnitudeBits negative h
  rw [key, hsign, hbits]

lemma isNaN_ofMagnitudeBits (negative : Bool) (h : bits ≤ infinityBits) :
    (ofMagnitudeBits negative bits).isNaN = false :=
  isNaN_eq_false_iff.mpr ((parts_ofMagnitudeBits negative h).2.trans_le h)

lemma nearestMagnitude_le (f : Fraction) : nearestMagnitude f ≤ infinityBits := by
  rw [nearestMagnitude]
  split
  · exact Nat.zero_le _
  · exact min_le_right ..

/-! ## Single-precision numbers -/

/-- The magnitude of the nearest single-precision number. -/
def singleMagnitude (bits : ℕ) : ℕ :=
  if infinityBits ≤ bits then bits
  else
    let f := magnitudeFraction bits
    if f.num = 0 then bits
    else
      let grid := f.gridExponent 24 (-149)
      let rounded := Fraction.ofBinary (f.significand grid) grid
      if rounded.atLeastPower 128 then infinityBits else nearestMagnitude rounded

/-- A single-precision slot keeps the sign. -/
lemma roundSingle_eq (v : Float) :
    roundSingle v = ofMagnitudeBits (isNegative v) (singleMagnitude (magnitudeBits v)) := by
  rw [roundSingle, singleMagnitude]
  dsimp only
  split_ifs
  · exact (ofMagnitudeBits_magnitudeBits v).symm
  · exact (ofMagnitudeBits_magnitudeBits v).symm
  · rfl
  · rfl

/-- The value of a single-precision number. -/
lemma value_singleMagnitude (h : bits < infinityBits) :
    (magnitudeFraction (singleMagnitude bits)).value =
      if 2 ^ (128 : ℤ) ≤ (magnitudeFraction bits).rounded 24 (-149) then 2 ^ (1024 : ℤ)
      else (magnitudeFraction bits).rounded 24 (-149) := by
  have hden := den_magnitudeFraction_pos bits
  rw [singleMagnitude, if_neg (not_le.mpr h)]
  dsimp only
  generalize hf : magnitudeFraction bits = f at *
  by_cases hzero : f.num = 0
  · have hvalue : f.value = 0 := by rw [Fraction.value, hzero, Nat.cast_zero, zero_div]
    rw [if_pos hzero, hf, Fraction.rounded_of_value hden hvalue, hvalue,
      if_neg (not_le.mpr (by positivity))]
  · have hpos := Fraction.den_ofBinary_pos (f.significand (f.gridExponent 24 (-149)))
      (f.gridExponent 24 (-149))
    have hrounded : (Fraction.ofBinary (f.significand (f.gridExponent 24 (-149)))
        (f.gridExponent 24 (-149))).value = f.rounded 24 (-149) := Fraction.value_ofBinary ..
    simp only [if_neg hzero, Fraction.atLeastPower_iff hpos, hrounded]
    split_ifs with hlarge
    · exact value_infinityBits
    -- a significand of 24 bits has less than 53
    · have hexact : (Fraction.ofBinary (f.significand (f.gridExponent 24 (-149)))
          (f.gridExponent 24 (-149))).rounded 53 (-1074) = f.rounded 24 (-149) :=
        (Fraction.rounded_eq (by decide) hpos
          ((Fraction.significand_le_pow hden).trans (by decide))
          (by rw [Fraction.gridExponent]; omega) hrounded).trans hrounded
      rw [value_nearestMagnitude hpos, hexact]
      exact min_eq_left ((not_le.mp hlarge).le.trans
        (zpow_le_zpow_right₀ one_le_two (by decide)))

lemma singleMagnitude_le (h : bits ≤ infinityBits) : singleMagnitude bits ≤ infinityBits := by
  rw [singleMagnitude]
  dsimp only
  split_ifs
  · exact h
  · exact h
  · exact le_refl _
  · exact nearestMagnitude_le _

lemma singleMagnitude_of_le (h : infinityBits ≤ bits) : singleMagnitude bits = bits := if_pos h

lemma singleMagnitude_mono : Monotone singleMagnitude := by
  intro bits bits' h
  rcases Nat.lt_or_ge bits' infinityBits with hlt | hge
  · have hmono : (magnitudeFraction bits).rounded 24 (-149) ≤
        (magnitudeFraction bits').rounded 24 (-149) :=
      Fraction.rounded_mono (by decide) (den_magnitudeFraction_pos _) (den_magnitudeFraction_pos _)
        (value_strictMono.monotone h)
    rw [← value_strictMono.le_iff_le]
    simp only [value_singleMagnitude hlt, value_singleMagnitude (h.trans_lt hlt)]
    split_ifs with hlarge hlarge'
    · exact le_refl _
    · exact absurd (hlarge.trans hmono) hlarge'
    · exact (not_le.mp hlarge).le.trans (zpow_le_zpow_right₀ one_le_two (by decide))
    · exact hmono
  · rw [singleMagnitude_of_le hge]
    rcases Nat.lt_or_ge bits infinityBits with hlt | hge'
    · exact (singleMagnitude_le hlt.le).trans hge
    · rwa [singleMagnitude_of_le hge']

lemma singleMagnitude_idem (bits : ℕ) :
    singleMagnitude (singleMagnitude bits) = singleMagnitude bits := by
  rcases Nat.lt_or_ge bits infinityBits with hlt | hge
  · rcases Nat.lt_or_ge (singleMagnitude bits) infinityBits with hlt' | hge'
    · have hvalue := value_singleMagnitude hlt
      have hsmall : ¬ 2 ^ (128 : ℤ) ≤ (magnitudeFraction bits).rounded 24 (-149) := by
        intro hlarge
        rw [if_pos hlarge, ← value_infinityBits] at hvalue
        exact hlt'.ne (value_strictMono.injective hvalue)
      rw [if_neg hsmall] at hvalue
      have hagain : (magnitudeFraction (singleMagnitude bits)).rounded 24 (-149) =
          (magnitudeFraction (singleMagnitude bits)).value :=
        Fraction.rounded_eq (by decide) (den_magnitudeFraction_pos _)
          (Fraction.significand_le_pow (den_magnitudeFraction_pos bits))
          (by rw [Fraction.gridExponent]; exact le_max_left _ _) hvalue
      apply value_strictMono.injective
      simp only [value_singleMagnitude hlt', hagain, hvalue, if_neg hsmall]
    · exact singleMagnitude_of_le hge'
  · rw [singleMagnitude_of_le hge, singleMagnitude_of_le hge]

/-! ## Integers -/

/-- The whole part of a magnitude. -/
def wholePart (bits : ℕ) : ℕ :=
  if infinityBits ≤ bits then integerBound
  else (magnitudeFraction bits).num / (magnitudeFraction bits).den

lemma wholePart_of_value (h : bits < infinityBits) :
    wholePart bits = ⌊(magnitudeFraction bits).value⌋₊ := by
  rw [wholePart, if_neg (not_le.mpr h), Fraction.value, Nat.floor_div_eq_div]

lemma min_wholePart_mono (hbound : bound ≤ integerBound) (h : bits ≤ bits') :
    min (wholePart bits) bound ≤ min (wholePart bits') bound := by
  rcases Nat.lt_or_ge bits' infinityBits with hlt | hge
  · rw [wholePart_of_value hlt, wholePart_of_value (h.trans_lt hlt)]
    exact min_le_min_right _ (Nat.floor_mono (value_strictMono.monotone h))
  · rw [wholePart, wholePart, if_pos hge, min_eq_right hbound]
    exact min_le_right ..

lemma truncate_eq (h : v.isNaN = false) : truncate v =
    if isNegative v then -((min (wholePart (magnitudeBits v)) integerBound : ℕ) : ℤ)
    else ((min (wholePart (magnitudeBits v)) (integerBound - 1) : ℕ) : ℤ) := by
  rw [truncate, wholePart]
  simp only [h, Bool.false_eq_true, if_false]

lemma truncate_mono (ha : a.isNaN = false) (hb : b.isNaN = false) (h : key a ≤ key b) :
    truncate a ≤ truncate b := by
  rw [truncate_eq ha, truncate_eq hb]
  rw [key, key] at h
  split_ifs at h ⊢
  · have hle : magnitudeBits b ≤ magnitudeBits a := by omega
    have := min_wholePart_mono (le_refl integerBound) hle
    omega
  · omega
  · have hzero : magnitudeBits a = 0 ∧ magnitudeBits b = 0 := by omega
    rw [hzero.1, hzero.2]
    have hwhole : wholePart 0 = 0 := by decide +kernel
    rw [hwhole]
    decide
  · have hle : magnitudeBits a ≤ magnitudeBits b := by omega
    have := min_wholePart_mono (Nat.sub_le integerBound 1) hle
    omega

lemma truncate_bounds (v : Float) : -integerBound ≤ truncate v ∧ truncate v < integerBound := by
  have hbound : 0 < integerBound := by decide
  cases h : v.isNaN with
  | true =>
    have hzero : truncate v = 0 := by rw [truncate]; simp only [h, if_true]
    omega
  | false =>
    rw [truncate_eq h]
    split_ifs <;> omega

/-- The double of a natural number has its value. -/
lemma value_nearestMagnitude_natCast {m : ℕ} (h : m ≤ integerBound) :
    nearestMagnitude ⟨m, 1⟩ < infinityBits ∧
      (magnitudeFraction (nearestMagnitude ⟨m, 1⟩)).value = m := by
  have hvalue : (⟨m, 1⟩ : Fraction).value = m * 2 ^ (0 : ℤ) := by simp [Fraction.value]
  have hexact : (⟨m, 1⟩ : Fraction).rounded 53 (-1074) = (⟨m, 1⟩ : Fraction).value :=
    Fraction.rounded_eq (by decide) Nat.one_pos (h.trans (by decide)) (by decide) hvalue
  have hlt : (m : ℚ) < 2 ^ (1024 : ℤ) := by
    have hcast : (m : ℚ) ≤ 2 ^ (31 : ℤ) := by exact_mod_cast h
    exact hcast.trans_lt (zpow_lt_zpow_right₀ one_lt_two (by decide))
  have hnearest := value_nearestMagnitude (f := ⟨m, 1⟩) Nat.one_pos
  rw [hexact, hvalue, zpow_zero, mul_one, min_eq_left hlt.le] at hnearest
  refine ⟨value_strictMono.lt_iff_lt.mp ?_, hnearest⟩
  simp only [hnearest, value_infinityBits, hlt]

lemma isNaN_ofInt (n : ℤ) : (ofInt n).isNaN = false :=
  isNaN_ofMagnitudeBits _ (nearestMagnitude_le _)

/-- The integers in range are kept. -/
lemma truncate_ofInt (hlow : -integerBound ≤ n) (hhigh : n < integerBound) :
    truncate (ofInt n) = n := by
  obtain ⟨hlt, hvalue⟩ := value_nearestMagnitude_natCast (m := n.natAbs) (by omega)
  obtain ⟨hsign, hbits⟩ := parts_ofMagnitudeBits (decide (n < 0)) hlt.le
  have hwhole : wholePart (nearestMagnitude ⟨n.natAbs, 1⟩) = n.natAbs := by
    rw [wholePart_of_value hlt, hvalue, Nat.floor_natCast]
  rw [truncate_eq (isNaN_ofInt n), ofInt, nearest, hsign, hbits, hwhole]
  simp only [decide_eq_true_eq]
  split_ifs <;> omega

lemma key_ofInt_mono {n' : ℤ} (h : n ≤ n') : key (ofInt n) ≤ key (ofInt n') := by
  have hmono : ∀ m m' : ℕ, m ≤ m' → nearestMagnitude ⟨m, 1⟩ ≤ nearestMagnitude ⟨m', 1⟩ := by
    intro m m' hle
    rw [← value_strictMono.le_iff_le]
    simp only [value_nearestMagnitude (f := ⟨m, 1⟩) Nat.one_pos,
      value_nearestMagnitude (f := ⟨m', 1⟩) Nat.one_pos]
    refine min_le_min_right _ (Fraction.rounded_mono (by decide) Nat.one_pos Nat.one_pos ?_)
    simpa [Fraction.value] using hle
  rw [ofInt, ofInt, nearest, nearest, key_ofMagnitudeBits _ (nearestMagnitude_le _),
    key_ofMagnitudeBits _ (nearestMagnitude_le _)]
  simp only [decide_eq_true_eq]
  split_ifs
  · have := hmono n'.natAbs n.natAbs (by omega)
    omega
  · omega
  · omega
  · have := hmono n.natAbs n'.natAbs (by omega)
    omega

end Number

namespace ElementType

open Number

variable {a b v : Float} {elementType : ElementType}

/-- What is stored is a number if a number is to be stored. -/
lemma isNaN_coerce (h : v.isNaN = false) : (elementType.coerce v).isNaN = false := by
  cases elementType with
  | real => exact h
  | float =>
    rw [coerce, roundSingle_eq]
    exact isNaN_ofMagnitudeBits _ (singleMagnitude_le (isNaN_eq_false_iff.mp h))
  | int => exact isNaN_ofInt _
  | bool =>
    rw [coerce]
    split <;> decide +kernel

/-- **What is stored is stored again without a change.** -/
theorem coerce_coerce (elementType : ElementType) (v : Float) :
    elementType.coerce (elementType.coerce v) = elementType.coerce v := by
  cases elementType with
  | real => rfl
  | float =>
    rw [coerce, coerce, roundSingle_eq v]
    rcases le_or_gt (magnitudeBits v) infinityBits with hle | hgt
    · obtain ⟨hsign, hbits⟩ := parts_ofMagnitudeBits (isNegative v) (singleMagnitude_le hle)
      rw [roundSingle_eq, hsign, hbits, singleMagnitude_idem]
    · rw [singleMagnitude_of_le hgt.le, ofMagnitudeBits_magnitudeBits, roundSingle_eq,
        singleMagnitude_of_le hgt.le, ofMagnitudeBits_magnitudeBits]
  | int =>
    obtain ⟨hlow, hhigh⟩ := truncate_bounds v
    rw [coerce, coerce, truncate_ofInt hlow hhigh]
  | bool =>
    rw [coerce, coerce]
    split <;> decide +kernel

/-- An integer slot holds the whole numbers of 32 bits, and nothing else. -/
lemma coerce_int_eq_self_iff :
    int.coerce v = v ↔ ∃ n : ℤ, -2147483648 ≤ n ∧ n ≤ 2147483647 ∧ v = ofInt n := by
  have hbound : integerBound = 2147483648 := rfl
  constructor
  · intro h
    obtain ⟨hlow, hhigh⟩ := truncate_bounds v
    exact ⟨truncate v, by omega, by omega, h.symm⟩
  · rintro ⟨n, hlow, hhigh, rfl⟩
    rw [coerce, truncate_ofInt (by omega) (by omega)]

/-- A truth value is zero or one. -/
lemma coerce_bool_eq_self_iff : bool.coerce v = v ↔ v = 0 ∨ v = 1 := by
  constructor
  · intro h
    rw [coerce] at h
    split at h
    · exact .inl h.symm
    · exact .inr h.symm
  · rintro (rfl | rfl) <;> decide +kernel

/-- **Coercion keeps the order**, except for truth values. -/
theorem key_coerce_mono (htype : elementType ≠ .bool) (ha : a.isNaN = false) (hb : b.isNaN = false)
    (h : key a ≤ key b) : key (elementType.coerce a) ≤ key (elementType.coerce b) := by
  cases elementType with
  | real => exact h
  | float =>
    rw [coerce, coerce, roundSingle_eq, roundSingle_eq,
      key_ofMagnitudeBits _ (singleMagnitude_le (isNaN_eq_false_iff.mp ha)),
      key_ofMagnitudeBits _ (singleMagnitude_le (isNaN_eq_false_iff.mp hb))]
    rw [key, key] at h
    split_ifs at h ⊢
    · have := singleMagnitude_mono (show magnitudeBits b ≤ magnitudeBits a by omega)
      omega
    · omega
    · have hzero : magnitudeBits a = 0 ∧ magnitudeBits b = 0 := by omega
      rw [hzero.1, hzero.2]
      decide +kernel
    · have := singleMagnitude_mono (show magnitudeBits a ≤ magnitudeBits b by omega)
      omega
  | int => exact key_ofInt_mono (truncate_mono ha hb h)
  | bool => exact absurd rfl htype

/-- Integers of the same place in the order are the same. -/
lemma coerce_int_eq (h : key (int.coerce a) = key (int.coerce b)) :
    int.coerce a = int.coerce b := by
  have htruncate : ∀ {v w : Float}, key (int.coerce v) ≤ key (int.coerce w) →
      truncate v ≤ truncate w := by
    intro v w hle
    obtain ⟨hlow, hhigh⟩ := truncate_bounds v
    obtain ⟨hlow', hhigh'⟩ := truncate_bounds w
    have hmono := truncate_mono (isNaN_ofInt _) (isNaN_ofInt _) hle
    rwa [truncate_ofInt hlow hhigh, truncate_ofInt hlow' hhigh'] at hmono
  exact congrArg ofInt (le_antisymm (htruncate h.le) (htruncate h.ge))

end ElementType
end Dataflow
