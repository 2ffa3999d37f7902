import Dataflow.Number.Literal
import Dataflow.Proofs.Number.Order

/-!
# Numbers and their texts

The text of a double reads back as the same double (`read?_text`).  The decimal fraction that is
written has been chosen among fractions that round to the double, or is the double itself, and the
reader takes the positional notation apart into the same digits and places.
-/

namespace Dataflow
namespace Number

variable {v : Float} {bits : ℕ}

/-! ## Decimal fractions -/

namespace Decimal

/-- The exact decimal fraction of a double has the value of the double. -/
lemma value_exact (bits : ℕ) :
    (exact bits).toFraction.value = (magnitudeFraction bits).value := by
  rw [value_magnitudeFraction, exact]
  generalize unpackMagnitude bits = parts
  obtain ⟨m, q⟩ := parts
  obtain ⟨k, rfl | rfl⟩ := q.eq_nat_or_neg
  · simp [toFraction, Fraction.value]
  · have hten : (10 : ℚ) ^ k = 5 ^ k * 2 ^ k := by rw [← mul_pow]; norm_num
    have hscaled : (m * 5 ^ k : ℚ) / 10 ^ k = m * (2 ^ k)⁻¹ := by
      rw [hten]
      field_simp
    dsimp only
    split
    · next hk =>
      obtain rfl : k = 0 := by omega
      simp [toFraction, Fraction.value]
    · simp [toFraction, Fraction.value, hscaled]

/-- The decimal fraction that is written for a finite double rounds to it. -/
lemma nearestMagnitude_shortest (hbits : bits < infinityBits) :
    (shortest bits).nearestMagnitude = bits := by
  rw [shortest]
  split
  · next hzero =>
    rw [hzero]
    rfl
  · dsimp only
    generalize hfound : (List.range 17).findSome? (fun (count : ℕ) =>
      (neighbours bits (leadingPower (magnitudeFraction bits) - count)).head?) = found
    cases found with
    | some d =>
      obtain ⟨count, -, hhead⟩ := List.exists_of_findSome?_eq_some hfound
      exact of_decide_eq_true (List.mem_filter.mp (List.mem_of_head? hhead)).2
    | none => exact nearestMagnitude_eq hbits (Nat.pow_pos (by decide)) (value_exact bits)

/-- The reader's shortcut for tiny numbers does not change what they are rounded to. -/
lemma scaledMagnitude_neg (d : Decimal) :
    scaledMagnitude d.digits (-d.places) = d.nearestMagnitude := by
  rw [nearestMagnitude, toFraction, scaledMagnitude]
  split
  · next hzero => rw [hzero, Number.nearestMagnitude, if_pos rfl]
  · rw [if_neg (by omega)]
    split
    · next htiny =>
      refine (nearestMagnitude_eq_zero (Nat.pow_pos (by decide)) ?_).symm
      have hplaces : 401 + d.digits.log2 ≤ d.places := by omega
      have hlt : ∀ k ≤ 1202, 2 ^ k * d.digits < 10 ^ d.places := by
        intro k hk
        calc 2 ^ k * d.digits < 2 ^ k * 2 ^ (d.digits.log2 + 1) :=
              Nat.mul_lt_mul_of_pos_left Nat.lt_log2_self (Nat.two_pow_pos _)
          _ = 2 ^ (k + (d.digits.log2 + 1)) := (Nat.pow_add ..).symm
          _ ≤ 2 ^ (3 * (401 + d.digits.log2)) := Nat.pow_le_pow_right (by decide) (by omega)
          _ = 8 ^ (401 + d.digits.log2) := Nat.pow_mul ..
          _ ≤ 10 ^ (401 + d.digits.log2) := Nat.pow_le_pow_left (by decide) _
          _ ≤ 10 ^ d.places := Nat.pow_le_pow_right (by decide) hplaces
      rw [Fraction.value, Nat.pow_eq, div_lt_iff₀ (by positivity), zpow_neg,
        lt_inv_mul_iff₀ (by positivity)]
      exact_mod_cast hlt 1075 (by decide)
    · split
      · next hplaces =>
        obtain hzero : d.places = 0 := by omega
        simp [hzero]
      · rw [neg_neg, Int.toNat_natCast]

/-! ## Positional notation -/

lemma digitsValue_replicate_append (k : ℕ) (digits : List Char) :
    Text.digitsValue (List.replicate k '0' ++ digits) = Text.digitsValue digits := by
  induction k with
  | zero => rfl
  | succ k ih => exact ih

/-- The digits of a decimal fraction before and behind the point, and how they are written. -/
structure Positional (d : Decimal) (whole fraction : List Char) : Prop where
  nonempty : whole ≠ []
  digits : ∀ c ∈ whole ++ fraction, c.isDigit = true
  value : Text.digitsValue (whole ++ fraction) = d.digits
  places : fraction.length = d.places
  chars : d.toChars = whole ++ if d.places = 0 then [] else '.' :: fraction

lemma exists_positional (d : Decimal) : ∃ whole fraction, d.Positional whole fraction := by
  obtain ⟨digits, hdigits⟩ : ∃ digits, paddedDigits (d.places + 1) d.digits = digits := ⟨_, rfl⟩
  have hlength : d.places + 1 ≤ digits.length := by
    rw [← hdigits, paddedDigits, List.length_append, List.length_replicate]
    omega
  have hall : ∀ c ∈ digits, c.isDigit = true := by
    rw [← hdigits]
    refine List.forall_mem_append.mpr ⟨fun c hc => ?_, fun c hc => ?_⟩
    · rw [List.eq_of_mem_replicate hc]
      rfl
    · exact Nat.isDigit_of_mem_toDigits (by decide) (by decide) hc
  have hvalue : Text.digitsValue digits = d.digits := by
    rw [← hdigits, paddedDigits, digitsValue_replicate_append]
    exact Nat.ofDigitChars_ten_toDigits
  refine ⟨digits.take (digits.length - d.places), digits.drop (digits.length - d.places),
    ?_, ?_, ?_, ?_, ?_⟩
  · exact List.ne_nil_of_length_pos (by rw [List.length_take]; omega)
  · rwa [List.take_append_drop]
  · rwa [List.take_append_drop]
  · rw [List.length_drop]
    omega
  · rw [toChars, hdigits]
    split
    · next hplaces => rw [hplaces, Nat.sub_zero, List.take_length, List.append_nil]
    · rfl

lemma readDigits_toChars (d : Decimal) : readDigits d.toChars = some d.nearestMagnitude := by
  obtain ⟨whole, fraction, h⟩ := d.exists_positional
  obtain ⟨hwhole, hfraction⟩ := List.forall_mem_append.mp h.digits
  have hempty : whole.isEmpty = false := List.isEmpty_eq_false_iff.mpr h.nonempty
  have htakeWhole : whole.takeWhile Char.isDigit = whole := List.takeWhile_eq_self_iff.mpr hwhole
  have hdropWhole : whole.dropWhile Char.isDigit = [] := List.dropWhile_eq_nil_iff.mpr hwhole
  rw [h.chars, readDigits]
  by_cases hplaces : d.places = 0
  · obtain rfl : fraction = [] := List.length_eq_zero_iff.mp (h.places.trans hplaces)
    have hscaled := scaledMagnitude_neg d
    rw [hplaces, ← h.value] at hscaled
    rw [if_pos hplaces]
    simp only [List.append_nil, htakeWhole, hdropWhole, hempty, Bool.false_and, Bool.false_eq_true,
      if_false]
    simpa [readExponent] using hscaled
  · have htake : (whole ++ '.' :: fraction).takeWhile Char.isDigit = whole := by
      rw [List.takeWhile_append_of_pos hwhole]
      exact List.append_nil whole
    have hdrop : (whole ++ '.' :: fraction).dropWhile Char.isDigit = '.' :: fraction := by
      rw [List.dropWhile_append_of_pos hwhole]
      rfl
    have htakeFraction : fraction.takeWhile Char.isDigit = fraction :=
      List.takeWhile_eq_self_iff.mpr hfraction
    have hdropFraction : fraction.dropWhile Char.isDigit = [] :=
      List.dropWhile_eq_nil_iff.mpr hfraction
    have hscaled := scaledMagnitude_neg d
    rw [← h.places, ← h.value] at hscaled
    rw [if_neg hplaces]
    simp only [htake, hdrop, htakeFraction, hdropFraction, hempty, Bool.false_and,
      Bool.false_eq_true, if_false]
    simpa [readExponent] using hscaled

/-- A decimal fraction begins with a digit. -/
lemma exists_toChars_eq_cons (d : Decimal) :
    ∃ c rest, d.toChars = c :: rest ∧ c.isDigit = true := by
  obtain ⟨whole, fraction, h⟩ := d.exists_positional
  obtain ⟨c, others, rfl⟩ := List.exists_cons_of_ne_nil h.nonempty
  exact ⟨c, _, h.chars, h.digits c List.mem_cons_self⟩

lemma mem_toChars {d : Decimal} {c : Char} (h : c ∈ d.toChars) : c.isDigit = true ∨ c = '.' := by
  obtain ⟨whole, fraction, hd⟩ := d.exists_positional
  obtain ⟨hwhole, hfraction⟩ := List.forall_mem_append.mp hd.digits
  rw [hd.chars, List.mem_append] at h
  rcases h with h | h
  · exact .inl (hwhole c h)
  · split at h
    · exact absurd h List.not_mem_nil
    · exact (List.mem_cons.mp h).symm.imp_left (hfraction c)

end Decimal

/-! ## Texts -/

/-- What a double is written as behind its sign. -/
def unsignedText (bits : ℕ) : List Char :=
  if infinityBits ≤ bits then "inf".toList else (Decimal.shortest bits).toChars

lemma text_eq (h : v.isNaN = false) : (text v).toList =
    if isNegative v then '-' :: unsignedText (magnitudeBits v)
    else unsignedText (magnitudeBits v) := by
  rw [text, h, if_neg Bool.false_ne_true]
  exact String.toList_ofList

lemma readUnsigned_unsignedText (hbits : bits ≤ infinityBits) (negative : Bool) :
    readUnsigned negative (unsignedText bits) = some (ofMagnitudeBits negative bits) := by
  rw [unsignedText]
  split
  · next hinfinite =>
    obtain rfl : bits = infinityBits := le_antisymm hbits hinfinite
    rfl
  · next hfinite =>
    rw [readUnsigned, Decimal.readDigits_toChars,
      Decimal.nearestMagnitude_shortest (not_le.mp hfinite)]

/-- No sign is read where none has been written. -/
lemma read?_unsignedText (bits : ℕ) :
    read? (unsignedText bits) = readUnsigned false (unsignedText bits) := by
  rw [unsignedText]
  split
  · rfl
  · obtain ⟨c, rest, hchars, hdigit⟩ := (Decimal.shortest bits).exists_toChars_eq_cons
    rw [hchars, read?]
    · rintro literal ⟨rfl, -⟩
      cases hdigit
    · rintro literal ⟨rfl, -⟩
      cases hdigit

/-- The text of a double reads back as the double, whichever double it is. -/
theorem read?_text (v : Float) : read? (text v).toList = some v := by
  cases hnan : v.isNaN with
  | true =>
    rw [text, if_pos hnan, eq_notANumber hnan]
    rfl
  | false =>
    have hbits : magnitudeBits v ≤ infinityBits :=
      not_lt.mp fun hlt => Bool.eq_false_iff.mp hnan (isNaN_of_lt_magnitudeBits hlt)
    have hv := ofMagnitudeBits_magnitudeBits v
    rw [text_eq hnan]
    cases hsign : isNegative v with
    | true =>
      rw [hsign] at hv
      rw [if_pos rfl, read?, readUnsigned_unsignedText hbits, hv]
    | false =>
      rw [hsign] at hv
      rw [if_neg Bool.false_ne_true, read?_unsignedText, readUnsigned_unsignedText hbits, hv]

/-- The text of a double is made of letters, digits, points and signs. -/
lemma mem_text {c : Char} (h : c ∈ (text v).toList) : c.isAlphanum = true ∨ c = '.' ∨ c = '-' := by
  have hunsigned : ∀ {bits : ℕ}, c ∈ unsignedText bits → c.isAlphanum = true ∨ c = '.' := by
    intro bits hmem
    rw [unsignedText] at hmem
    split at hmem
    · have hall : ∀ c ∈ "inf".toList, c.isAlphanum = true := by simp
      exact .inl (hall c hmem)
    · refine (Decimal.mem_toChars hmem).imp_left fun hdigit => ?_
      rw [Char.isAlphanum, hdigit, Bool.or_true]
  cases hnan : v.isNaN with
  | true =>
    have hall : ∀ c ∈ "NaN".toList, c.isAlphanum = true := by simp
    rw [text, if_pos hnan] at h
    exact .inl (hall c h)
  | false =>
    rw [text_eq hnan] at h
    split at h
    · rcases List.mem_cons.mp h with rfl | hmem
      · exact .inr (.inr rfl)
      · exact (hunsigned hmem).imp_right .inl
    · exact (hunsigned h).imp_right .inl

lemma text_ne_nil (v : Float) : (text v).toList ≠ [] := by
  intro hnil
  have hread := read?_text v
  rw [hnil] at hread
  cases hread

end Number
end Dataflow
