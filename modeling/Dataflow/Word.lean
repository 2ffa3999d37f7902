import Dataflow.Text.Digits

/-!
# Machine words

Sizes, offsets and lengths are 64-bit words.  They are kept as natural numbers; the functions of
this module say what happens where a result leaves the range.  The end of a port range stops at the
largest word, so that an oversized range fails every bounds check.  Everything else, the end of a
storage slice and the sums of lengths, ends the whole program: the functions for it have no result
then, and what calls them fails with a fault named `overflow`, after which nothing runs any more.
-/

namespace Dataflow
namespace Word

/-- The number of words, two to the power of 64. -/
def count : Nat := 0x10000000000000000

/-- The largest word. -/
def top : Nat := 0xffffffffffffffff

/-- What the program says when a sum is no word. -/
def overflowText : String := "attempt to add with overflow"

/-- The number `n`, unless it is larger than every word. -/
def ofNat? (n : Nat) : Option Nat := if n ≤ top then some n else none

/-- The sum of two words, unless it is no word. -/
def add? (a b : Nat) : Option Nat := ofNat? (a + b)

/-- The sum of two words, stopping at the largest one. -/
def addSaturating (a b : Nat) : Nat := min (a + b) top

/-- The sum of a list of words, unless it is no word. -/
def sum? (words : List Nat) : Option Nat := words.foldlM add? 0

/-- The sum of a list of words as a number. -/
def total (words : List Nat) : Nat := words.foldr (· + ·) 0

/-- The word that a decimal numeral stands for, unless the number is larger than every word. -/
def ofDigits? (digits : List Char) : Option Nat :=
  if Text.isNumeralRow digits && Text.digitsValue digits ≤ top then some (Text.digitsValue digits)
  else none

theorem ofNat?_of_le {n : Nat} (h : n ≤ top) : ofNat? n = some n := if_pos h

theorem ofNat?_of_lt {n : Nat} (h : top < n) : ofNat? n = none := if_neg (Nat.not_le.mpr h)

theorem ofNat?_cases (n : Nat) : n ≤ top ∧ ofNat? n = some n ∨ top < n ∧ ofNat? n = none :=
  (Nat.lt_or_ge top n).elim (fun h => .inr ⟨h, ofNat?_of_lt h⟩) fun h => .inl ⟨h, ofNat?_of_le h⟩

theorem addSaturating_of_lt {a b : Nat} (h : a + b < count) : addSaturating a b = a + b := by
  simp only [count, addSaturating, top] at *
  omega

theorem foldlM_add?_eq (words : List Nat) {start : Nat} (h : start ≤ top) :
    words.foldlM add? start = ofNat? (start + total words) := by
  induction words generalizing start with
  | nil => exact (ofNat?_of_le h).symm
  | cons word words ih =>
    rw [List.foldlM_cons, total, List.foldr_cons, ← Nat.add_assoc]
    by_cases hword : start + word ≤ top
    · rw [add?, ofNat?_of_le hword]
      exact ih hword
    · -- The rest of the sum cannot come back into the range.
      rw [add?, ofNat?_of_lt (by omega), ofNat?_of_lt (by omega)]
      rfl

/-- No partial sum leaves the range unless the whole sum does. -/
theorem sum?_eq (words : List Nat) : sum? words = ofNat? (total words) := by
  rw [sum?, foldlM_add?_eq words (Nat.zero_le _), Nat.zero_add]

theorem ofDigits?_le {digits : List Char} {n : Nat} (h : ofDigits? digits = some n) : n ≤ top := by
  simp only [ofDigits?, Bool.and_eq_true, decide_eq_true_eq] at h
  split at h
  · next hle => exact Option.some.inj h ▸ hle.2
  · cases h

end Word
end Dataflow
