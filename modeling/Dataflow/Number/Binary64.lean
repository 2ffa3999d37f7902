import Dataflow.Word

/-!
# Doubles as binary fractions

A finite double is a sign and a magnitude `m * 2 ^ q`.  This module reads the two numbers off the
bit pattern and goes back: it rounds any positive fraction to the nearest double, a tie going to
the even significand.  The conversions between numbers and decimal text and the coercions to
narrower element types are all built from these two directions, in exact natural-number arithmetic.
-/

namespace Dataflow
namespace Number

/-- A positive magnitude as a fraction of natural numbers. -/
structure Fraction where
  /-- The numerator. -/
  num : Nat
  /-- The denominator. -/
  den : Nat
deriving DecidableEq, Repr

/-- The quotient rounded to the nearest natural number; a tie goes to the even one. -/
def roundDiv (num den : Nat) : Nat :=
  let quotient := num / den
  let rest := num % den
  if 2 * rest < den then quotient
  else if den < 2 * rest then quotient + 1
  else quotient + quotient % 2

namespace Fraction

/-- The fraction `n * 2 ^ q`. -/
def ofBinary (n : Nat) (q : Int) : Fraction :=
  if 0 ≤ q then ⟨n * Nat.pow 2 q.toNat, 1⟩ else ⟨n, Nat.pow 2 (-q).toNat⟩

/-- Whether `2 ^ q ≤ f`. -/
def atLeastPower (f : Fraction) (q : Int) : Bool :=
  if 0 ≤ q then decide (f.den * Nat.pow 2 q.toNat ≤ f.num)
  else decide (f.den ≤ f.num * Nat.pow 2 (-q).toNat)

/-- The exponent of the largest power of two that a positive fraction reaches.  The difference of
the binary logarithms of numerator and denominator is this exponent or one more. -/
def exponent (f : Fraction) : Int :=
  let guess : Int := f.num.log2 - f.den.log2
  if f.atLeastPower guess then guess else guess - 1

/-- The significand of `f` on the grid of the multiples of `2 ^ q`, rounded to nearest even. -/
def significand (f : Fraction) (q : Int) : Nat :=
  if 0 ≤ q then roundDiv f.num (f.den * Nat.pow 2 q.toNat)
  else roundDiv (f.num * Nat.pow 2 (-q).toNat) f.den

/-- The exponent of the grid on which `f` is rounded to `precision` significant bits, where no grid
is finer than the multiples of `2 ^ least`. -/
def gridExponent (f : Fraction) (precision : Nat) (least : Int) : Int :=
  max least (f.exponent + 1 - precision)

end Fraction

/-! ## Bit patterns -/

/-- The value of the sign bit in a bit pattern, two to the power of 63. -/
def signBit : Nat := 0x8000000000000000

/-- The leading bit of a normal significand, two to the power of 52.  A bit pattern leaves it out,
and has the exponent field in its place. -/
def hiddenBit : Nat := 0x10000000000000

/-- The bit pattern of positive infinity, and the first one that is no finite magnitude. -/
def infinityBits : Nat := 0x7ff0000000000000

/-- Positive infinity. -/
def infinity : Float := Float.ofBits 0x7ff0000000000000

/-- Negative infinity. -/
def negInfinity : Float := Float.ofBits 0xfff0000000000000

/-- A double that is no number. -/
def notANumber : Float := Float.ofBits 0x7ff8000000000000

/-- Whether the sign bit of `v` is set. -/
def isNegative (v : Float) : Bool := signBit ≤ v.toBits.toNat

/-- The bit pattern of `v` without its sign. -/
def magnitudeBits (v : Float) : Nat := v.toBits.toNat % signBit

/-- The double with the given sign and magnitude. -/
def ofMagnitudeBits (negative : Bool) (bits : Nat) : Float :=
  Float.ofBits (UInt64.ofNat (if negative then signBit + bits else bits))

/-- The significand and exponent of a finite magnitude: `significand * 2 ^ exponent`. -/
def unpackMagnitude (bits : Nat) : Nat × Int :=
  let field : Nat := bits / hiddenBit
  let low : Nat := bits % hiddenBit
  if field = 0 then (low, -1074) else (low + hiddenBit, (field : Int) - 1075)

/-- The fraction that the bit pattern of a finite magnitude stands for. -/
def magnitudeFraction (bits : Nat) : Fraction :=
  let (significand, exponent) := unpackMagnitude bits
  Fraction.ofBinary significand exponent

/-- The bit pattern of `significand * 2 ^ exponent`, for a significand of at most 53 bits on the
grid of its exponent.  The leading bit of the significand adds one to the exponent field, and so
does a significand that rounding has carried to `2 ^ 53`. -/
def packMagnitude (significand : Nat) (exponent : Int) : Nat :=
  (exponent + 1074).toNat * hiddenBit + significand

/-- The bit pattern of the double nearest to a fraction, a tie going to the even significand; a
fraction too large for every finite double becomes infinity. -/
def nearestMagnitude (f : Fraction) : Nat :=
  if f.num = 0 then 0
  else
    let grid := f.gridExponent 53 (-1074)
    min (packMagnitude (f.significand grid) grid) infinityBits

/-- The double with the given sign that is nearest to a fraction. -/
def nearest (negative : Bool) (f : Fraction) : Float :=
  ofMagnitudeBits negative (nearestMagnitude f)

/-! ## Coercions -/

/-- The nearest single-precision number, a tie going to the even significand.  Magnitudes that round
to `2 ^ 128` or more become infinite. -/
def roundSingle (v : Float) : Float :=
  let bits := magnitudeBits v
  if infinityBits ≤ bits then v
  else
    let f := magnitudeFraction bits
    if f.num = 0 then v
    else
      let grid := f.gridExponent 24 (-149)
      let rounded := Fraction.ofBinary (f.significand grid) grid
      if rounded.atLeastPower 128 then ofMagnitudeBits (isNegative v) infinityBits
      else nearest (isNegative v) rounded

/-- The largest magnitude of a 32-bit integer, two to the power of 31. -/
def integerBound : Nat := 0x80000000

/-- The whole part of a double as a 32-bit integer: the fraction is dropped, what lies outside the
range stops at its ends, and a double that is no number counts as zero. -/
def truncate (v : Float) : Int :=
  let bits := magnitudeBits v
  if v.isNaN then 0
  else
    let f := magnitudeFraction bits
    let whole : Nat := if infinityBits ≤ bits then integerBound else f.num / f.den
    if isNegative v then -(min whole integerBound : Nat) else (min whole (integerBound - 1) : Nat)

/-- The double that is equal to a small integer; zero is the positive zero. -/
def ofInt (n : Int) : Float := nearest (n < 0) ⟨n.natAbs, 1⟩

end Number
end Dataflow
