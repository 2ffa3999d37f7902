import Dataflow.Operator
import Dataflow.Proofs.Number.Nearest

/-!
# The order of doubles

A double is its sign and its magnitude, and those that are numbers are ordered by the integer that
these two make up, the double's `key`: they compare as their keys do (`compare_eq`), both zeros
having the same key.  So the larger of two numbers has the larger one of their keys (`larger_eq`),
and what is no number is passed over (`larger_of_isNaN`).
-/

namespace Dataflow
namespace Number

open Float.Model Float.Model.UnpackedFloat

variable {a b v : Float} {bits : ℕ} {negative : Bool}

/-! ## Doubles and their bits -/

lemma ofBits_toBits (v : Float) : Float.ofBits v.toBits = v := by
  obtain ⟨⟨bits, hvalid⟩⟩ := v
  show Float.ofModel (Float.Model.ofBits bits) = _
  congr 1
  rw [Float.Model.ofBits, Float.Model.pack, Float.Model.mk.injEq]
  exact congrArg UInt64.ofBitVec (pack_unpack_of_valid hvalid)

/-- There is only one double that is no number. -/
lemma eq_notANumber (h : v.isNaN = true) : v = notANumber := by
  have hbits := (isNaN_unpack_iff_of_valid v.toModel.valid).mp h
  rw [← ofBits_toBits v]
  show Float.ofBits v.toModel.toBits = Float.ofBits 0x7ff8000000000000
  congr 1
  rw [← UInt64.toBitVec_inj, hbits]
  decide

lemma toNat_unpackExponent (word : UInt64) :
    (@unpackExponent Format.binary64 word.toBitVec).toNat =
      word.toNat % signBit / hiddenBit := by
  rw [unpackExponent_def, BitVec.extractLsb'_toNat, Nat.shiftRight_eq_div_pow]
  show word.toNat / 2 ^ 52 % 2 ^ 11 = _
  rw [signBit, hiddenBit]
  omega

lemma toNat_unpackMantissa (word : UInt64) :
    (@unpackMantissa Format.binary64 word.toBitVec).toNat =
      word.toNat % signBit % hiddenBit := by
  rw [unpackMantissa_def, BitVec.extractLsb'_toNat, Nat.shiftRight_eq_div_pow]
  show word.toNat / 2 ^ 0 % 2 ^ 52 = _
  rw [signBit, hiddenBit]
  omega

lemma isNaN_of_lt_magnitudeBits (h : infinityBits < magnitudeBits v) : v.isNaN = true := by
  have hexponent := toNat_unpackExponent v.toModel.toBits
  have hmantissa := toNat_unpackMantissa v.toModel.toBits
  change _ = magnitudeBits v / _ at hexponent
  change _ = magnitudeBits v % _ at hmantissa
  have hlt : magnitudeBits v < signBit := Nat.mod_lt _ (by decide)
  rw [infinityBits] at h
  rw [hiddenBit] at hexponent hmantissa
  rw [signBit] at hlt
  refine (isNaN_unpack_iff_of_valid v.toModel.valid).mpr (v.toModel.valid.eq_packedNaN ?_ ?_)
  · apply BitVec.eq_of_toNat_eq
    rw [hexponent]
    show _ = 2047
    omega
  · intro hzero
    rw [hzero] at hmantissa
    change 0 = _ at hmantissa
    omega

lemma isNaN_eq_false_iff : v.isNaN = false ↔ magnitudeBits v ≤ infinityBits := by
  refine ⟨fun h => not_lt.mp fun hlt =>
    Bool.false_ne_true (h.symm.trans (isNaN_of_lt_magnitudeBits hlt)), fun hle => ?_⟩
  refine Bool.eq_false_iff.mpr fun hnan => ?_
  rw [eq_notANumber hnan] at hle
  exact absurd hle (by decide +kernel)

/-- A double is its sign and its magnitude. -/
lemma ofMagnitudeBits_magnitudeBits (v : Float) :
    ofMagnitudeBits (isNegative v) (magnitudeBits v) = v := by
  have hlt : v.toBits.toNat < 2 ^ 64 := v.toBits.toNat_lt
  have hbits : (if isNegative v then signBit + magnitudeBits v else magnitudeBits v) =
      v.toBits.toNat := by
    rw [isNegative, magnitudeBits, signBit]
    split
    · next h =>
      rw [decide_eq_true_eq] at h
      omega
    · next h =>
      rw [decide_eq_true_eq] at h
      omega
  rw [ofMagnitudeBits, hbits, UInt64.ofNat_toNat, ofBits_toBits]

/-- Bits that do not say that there is no number are kept. -/
lemma toBits_ofBits {word : UInt64} (h : word.toNat % signBit ≤ infinityBits) :
    (Float.ofBits word).toBits = word := by
  have hexponent := toNat_unpackExponent word
  have hmantissa := toNat_unpackMantissa word
  have hvalid : Format.binary64.Valid word.toBitVec := by
    refine ⟨fun hones hne => absurd ?_ hne⟩
    rw [hones] at hexponent
    change 2047 = _ at hexponent
    rw [infinityBits] at h
    rw [hiddenBit] at hexponent hmantissa
    apply BitVec.eq_of_toNat_eq
    rw [hmantissa]
    show _ = 0
    omega
  exact congrArg Float.toBits (ofBits_toBits (Float.ofModel ⟨word, hvalid⟩))

/-- A number is made of any sign and magnitude. -/
lemma parts_ofMagnitudeBits (negative : Bool) (h : bits ≤ infinityBits) :
    isNegative (ofMagnitudeBits negative bits) = negative ∧
      magnitudeBits (ofMagnitudeBits negative bits) = bits := by
  rw [infinityBits] at h
  have hword : ∀ {n : ℕ}, n % signBit ≤ infinityBits → n < 2 ^ 64 →
      (Float.ofBits (UInt64.ofNat n)).toBits.toNat = n := by
    intro n hle hlt
    have hnat : (UInt64.ofNat n).toNat = n := UInt64.toNat_ofNat_of_lt' hlt
    rw [toBits_ofBits (by rwa [hnat]), hnat]
  rw [isNegative, magnitudeBits, ofMagnitudeBits]
  cases negative
  · rw [if_neg Bool.false_ne_true, hword (by rw [signBit, infinityBits]; omega) (by omega), signBit]
    exact ⟨decide_eq_false (by omega), by omega⟩
  · rw [if_pos rfl, hword (by rw [signBit, infinityBits]; omega) (by rw [signBit]; omega), signBit]
    exact ⟨decide_eq_true (by omega), by omega⟩

/-! ## Comparisons -/

/-- The place of a double in the order of those that are numbers. -/
def key (v : Float) : ℤ := if isNegative v then -(magnitudeBits v : ℤ) else magnitudeBits v

/-- The sign of a double, as it is compared. -/
def sign (v : Float) : Sign := if isNegative v then .negative else .positive

lemma ofBitVec_unpackSign (v : Float) :
    Sign.ofBitVec (@unpackSign Format.binary64 v.toModel.toBits.toBitVec) = sign v := by
  have hbits : v.toModel.toBits.toBitVec.toNat = v.toBits.toNat := rfl
  have hlt : v.toBits.toNat < 2 ^ 64 := v.toBits.toNat_lt
  have hsign : (@unpackSign Format.binary64 v.toModel.toBits.toBitVec).toNat =
      v.toBits.toNat / signBit := by
    rw [unpackSign_def, BitVec.extractLsb'_toNat, hbits, Nat.shiftRight_eq_div_pow]
    show v.toBits.toNat / 2 ^ 63 % 2 ^ 1 = _
    rw [signBit]
    omega
  have hzero : (0#1).toNat = 0 := rfl
  simp only [Sign.ofBitVec, sign, isNegative, decide_eq_true_eq, ← BitVec.toNat_inj, hsign, hzero]
  rw [signBit]
  split_ifs <;> first | rfl | omega

/-- What a double that is a number is compared as. -/
lemma unpack_cases (h : v.isNaN = false) :
    magnitudeBits v = infinityBits ∧ v.toModel.unpack = .infinity (sign v) ∨
    magnitudeBits v = 0 ∧ v.toModel.unpack = .zero (sign v) ∨
    0 < magnitudeBits v ∧ magnitudeBits v < infinityBits ∧ ∃ hpos, v.toModel.unpack =
      .finite (sign v) (unpackMagnitude (magnitudeBits v)).1
        (unpackMagnitude (magnitudeBits v)).2 hpos := by
  have hle := isNaN_eq_false_iff.mp h
  have hexponent := toNat_unpackExponent v.toModel.toBits
  have hmantissa := toNat_unpackMantissa v.toModel.toBits
  change _ = magnitudeBits v / _ at hexponent
  change _ = magnitudeBits v % _ at hmantissa
  have hparts : magnitudeBits v =
      magnitudeBits v / hiddenBit * hiddenBit + magnitudeBits v % hiddenBit :=
    (Nat.div_add_mod' ..).symm
  have hlow : magnitudeBits v % hiddenBit < hiddenBit := Nat.mod_lt _ (by decide)
  -- an exponent field of ones, one of zeros, and a mantissa of zeros
  have hones : (-BitVec.ofNat Format.binary64.exponentBits 1).toNat = 2047 := rfl
  have hzeros : (BitVec.ofNat Format.binary64.exponentBits 0).toNat = 0 := rfl
  have hnone : (BitVec.ofNat Format.binary64.mantissaBitsWithoutImplicit 0).toNat = 0 := rfl
  rw [Float.Model.unpack, UnpackedFloat.unpack]
  simp only [ofBitVec_unpackSign, ← BitVec.toNat_inj, hexponent, hmantissa, hones, hzeros, hnone]
  generalize hfield : magnitudeBits v / hiddenBit = field at *
  generalize hrest : magnitudeBits v % hiddenBit = low at *
  simp only [infinityBits, hiddenBit] at *
  split_ifs with hinf hman hzero hman
  · exact .inl ⟨by omega, rfl⟩
  · omega
  · exact .inr (.inl ⟨by omega, rfl⟩)
  · have hunpack := unpackMagnitude_subnormal (hfield.trans hzero)
    rw [hiddenBit, hrest] at hunpack
    rw [hunpack]
    refine .inr (.inr ⟨by omega, by omega, by omega, ?_⟩)
    simp only [hzero]
    rfl
  · have hunpack := unpackMagnitude_normal (hfield ▸ hzero)
    rw [hiddenBit, hrest, hfield] at hunpack
    rw [hunpack]
    refine .inr (.inr ⟨by omega, by omega, by omega, ?_⟩)
    have hor : (1#1).toNat <<< 52 ||| low = low + 4503599627370496 := by
      rw [← Nat.shiftLeft_add_eq_or_of_lt hlow]
      exact Nat.add_comm _ low
    simp only [BitVec.toNat_append, hmantissa, hor]
    rfl

/-- Magnitudes are compared by their exponents first. -/
lemma compare_unpackMagnitude (bits bits' : ℕ) :
    (compare (unpackMagnitude bits).2 (unpackMagnitude bits').2).then
      (compare (unpackMagnitude bits).1 (unpackMagnitude bits').1) = compare bits bits' := by
  obtain ⟨hhigh, hleast, hlow⟩ := unpackMagnitude_bounds bits
  obtain ⟨hhigh', hleast', hlow'⟩ := unpackMagnitude_bounds bits'
  have hpack := packMagnitude_unpackMagnitude bits
  have hpack' := packMagnitude_unpackMagnitude bits'
  rw [packMagnitude, hiddenBit] at hpack hpack'
  rcases lt_trichotomy (unpackMagnitude bits).2 (unpackMagnitude bits').2 with hlt | heq | hgt
  · rw [compare_lt_iff_lt.mpr hlt, compare_lt_iff_lt.mpr (by omega : bits < bits')]
    rfl
  · rw [compare_eq_iff_eq.mpr heq, Ordering.then]
    rcases lt_trichotomy (unpackMagnitude bits).1 (unpackMagnitude bits').1 with hlt | heq' | hgt
    · rw [compare_lt_iff_lt.mpr hlt, compare_lt_iff_lt.mpr (by omega : bits < bits')]
    · rw [compare_eq_iff_eq.mpr heq', compare_eq_iff_eq.mpr (by omega : bits = bits')]
    · rw [compare_gt_iff_gt.mpr hgt, compare_gt_iff_gt.mpr (by omega : bits > bits')]
  · rw [compare_gt_iff_gt.mpr hgt, compare_gt_iff_gt.mpr (by omega : bits > bits')]
    rfl

lemma compare_natCast (m n : ℕ) : compare (m : ℤ) n = compare m n := by
  simp [compare, compareOfLessAndEq]

lemma compare_neg_natCast (m n : ℕ) : compare (-m : ℤ) (-n) = (compare m n).swap := by
  rw [← compare_natCast, ← Std.OrientedOrd.eq_swap]
  simp [compare, compareOfLessAndEq]
  grind

/-- Doubles that are numbers compare as their keys do. -/
lemma compare_eq (ha : a.isNaN = false) (hb : b.isNaN = false) :
    a.toModel.unpack.compare b.toModel.unpack = some (compare (key a) (key b)) := by
  have hlt : ∀ {x y : ℤ}, x < y → some Ordering.lt = some (compare x y) :=
    fun h => congrArg some (compare_lt_iff_lt.mpr h).symm
  have hgt : ∀ {x y : ℤ}, x > y → some Ordering.gt = some (compare x y) :=
    fun h => congrArg some (compare_gt_iff_gt.mpr h).symm
  have heq : ∀ {x y : ℤ}, x = y → some Ordering.eq = some (compare x y) :=
    fun h => congrArg some (compare_eq_iff_eq.mpr h).symm
  rcases unpack_cases ha with ⟨ha, hua⟩ | ⟨ha, hua⟩ | ⟨ha, ha', hpa, hua⟩ <;>
    rcases unpack_cases hb with ⟨hb, hub⟩ | ⟨hb, hub⟩ | ⟨hb, hb', hpb, hub⟩ <;>
      rw [hua, hub, key, key] <;> simp only [sign, infinityBits] at * <;> split_ifs
  all_goals first
    | exact heq (by omega)
    | exact hlt (by omega)
    | exact hgt (by omega)
    | simp only [UnpackedFloat.compare, compare_unpackMagnitude, compare_natCast,
        compare_neg_natCast]

lemma lt_iff_key (ha : a.isNaN = false) (hb : b.isNaN = false) : a < b ↔ key a < key b := by
  show decide ((a.toModel.unpack.compare b.toModel.unpack == some .lt) = true) = true ↔ _
  rw [compare_eq ha hb, decide_eq_true_eq, beq_iff_eq, Option.some.injEq, compare_lt_iff_lt]

lemma beq_iff_key (ha : a.isNaN = false) (hb : b.isNaN = false) :
    (a == b) = true ↔ key a = key b := by
  show (a.toModel.unpack.compare b.toModel.unpack == some .eq) = true ↔ _
  rw [compare_eq ha hb, beq_iff_eq, Option.some.injEq, compare_eq_iff_eq]

/-! ## The larger and the smaller of two doubles -/

lemma larger_of_isNaN (hb : b.isNaN = true) : larger a b = a := by
  rw [larger, if_pos hb]
  split_ifs with ha
  · rw [eq_notANumber ha, eq_notANumber hb]
  · rfl

lemma smaller_of_isNaN (hb : b.isNaN = true) : smaller a b = a := by
  rw [smaller, if_pos hb]
  split_ifs with ha
  · rw [eq_notANumber ha, eq_notANumber hb]
  · rfl

lemma larger_eq (ha : a.isNaN = false) (hb : b.isNaN = false) :
    larger a b = if key a < key b then b else a := by
  simp only [larger, ha, hb, lt_iff_key ha hb, Bool.false_eq_true, if_false]

lemma smaller_eq (ha : a.isNaN = false) (hb : b.isNaN = false) :
    smaller a b = if key b < key a then b else a := by
  simp only [smaller, ha, hb, lt_iff_key hb ha, Bool.false_eq_true, if_false]

end Number
end Dataflow
