import Dataflow.Number.Binary64

/-!
# Decimal fractions and the text of a number

A decimal fraction is a whole number of digits with a count of decimal places.  This module turns a
double into the shortest decimal fraction that reads back as the same double, and a decimal fraction
into text.

A number is written positionally, without an exponent however large or small it is, and without a
point when it is whole.  Of the decimal fractions with the fewest significant digits that read back,
the one nearest to the double is written, and the larger of two equally near ones.
-/

namespace Dataflow
namespace Number

/-- The decimal fraction `digits / 10 ^ places`. -/
structure Decimal where
  /-- The digits, read as one number. -/
  digits : Nat
  /-- How many of the digits stand after the point. -/
  places : Nat
deriving DecidableEq, Repr

namespace Decimal

/-- The fraction with the same value. -/
def toFraction (d : Decimal) : Fraction := ⟨d.digits, Nat.pow 10 d.places⟩

/-- The bit pattern of the double nearest to `d`. -/
def nearestMagnitude (d : Decimal) : Nat := Number.nearestMagnitude d.toFraction

/-- Drops zeros at the end of the places. -/
def trim (digits : Nat) : Nat → Decimal
  | 0 => ⟨digits, 0⟩
  | places + 1 => if digits % 10 = 0 then trim (digits / 10) places else ⟨digits, places + 1⟩

/-- The decimal fraction `n * 10 ^ e`. -/
def ofScaled (n : Nat) (e : Int) : Decimal :=
  if 0 ≤ e then ⟨n * Nat.pow 10 e.toNat, 0⟩ else trim n (-e).toNat

/-! ## Shortest digits -/

/-- Whether `10 ^ e ≤ f`. -/
def reachesPower (f : Fraction) (e : Int) : Bool :=
  if 0 ≤ e then decide (f.den * Nat.pow 10 e.toNat ≤ f.num)
  else decide (f.den ≤ f.num * Nat.pow 10 (-e).toNat)

/-- The exponent of the largest power of ten that a positive fraction reaches.  The binary exponent
times the logarithm of two is at most one away from it. -/
def leadingPower (f : Fraction) : Int :=
  let guess := f.exponent * 30103 / 100000
  if reachesPower f (guess + 1) then guess + 1
  else if reachesPower f guess then guess
  else guess - 1

/-- The decimal fractions on the grid of the multiples of `10 ^ e` next to the double with the given
bits that read back as this double, the nearer one first.  Of two equally near ones the larger one
is first. -/
def neighbours (bits : Nat) (e : Int) : List Decimal :=
  let f := magnitudeFraction bits
  let num := if 0 ≤ e then f.num else f.num * Nat.pow 10 (-e).toNat
  let den := if 0 ≤ e then f.den * Nat.pow 10 e.toNat else f.den
  let below := num / den
  let candidates := if 2 * (num % den) < den then [below, below + 1] else [below + 1, below]
  (candidates.map (ofScaled · e)).filter fun d => d.nearestMagnitude = bits

/-- The exact value of the double with the given bits: its fraction is over a power of two, and each
factor of two in the denominator is worth one decimal place. -/
def exact (bits : Nat) : Decimal :=
  let (significand, exponent) := unpackMagnitude bits
  if 0 ≤ exponent then ⟨significand * Nat.pow 2 exponent.toNat, 0⟩
  else ⟨significand * Nat.pow 5 (-exponent).toNat, (-exponent).toNat⟩

/-- The shortest decimal fraction that reads back as the finite double with the given bits.
Seventeen significant digits are enough for every double. -/
def shortest (bits : Nat) : Decimal :=
  if bits = 0 then ⟨0, 0⟩
  else
    let lead := leadingPower (magnitudeFraction bits)
    ((List.range 17).findSome? fun (count : Nat) =>
      (neighbours bits (lead - count)).head?).getD (exact bits)

/-! ## Text -/

/-- The decimal digits of a number, with zeros in front up to the given width. -/
def paddedDigits (width n : Nat) : List Char :=
  let digits := Nat.toDigits 10 n
  List.replicate (width - digits.length) '0' ++ digits

/-- A decimal fraction in positional notation, with at least one digit before the point. -/
def toChars (d : Decimal) : List Char :=
  let digits := paddedDigits (d.places + 1) d.digits
  let whole := digits.length - d.places
  if d.places = 0 then digits else digits.take whole ++ '.' :: digits.drop whole

end Decimal

/-- The text of a double. -/
def text (v : Float) : String :=
  if v.isNaN then "NaN"
  else
    let bits := magnitudeBits v
    let unsigned := if infinityBits ≤ bits then "inf".toList else (Decimal.shortest bits).toChars
    String.ofList (if isNegative v then '-' :: unsigned else unsigned)

/-- The texts of some doubles, separated by commas. -/
def textList (vs : List Float) : String := String.intercalate ", " (vs.map text)

end Number
end Dataflow
