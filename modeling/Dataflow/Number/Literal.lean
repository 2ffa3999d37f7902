import Dataflow.Number.Decimal
import Dataflow.Text.Digits

/-!
# Reading number literals

A number literal is an optional sign followed by digits with an optional point among or around them
and an optional exponent, or by one of the words `inf`, `infinity` and `nan` in any case.  It stands
for the double nearest to the number written, a tie going to the even significand; what is too large
is infinite.
-/

namespace Dataflow
namespace Number

/-- The size of a literal's exponent.  It stops growing once it has passed every exponent that could
still matter. -/
def exponentValue (digits : List Char) : Nat :=
  digits.foldl (fun acc digit => if acc < 65536 then 10 * acc + Text.digitValue digit else acc) 0

/-- The exponent part of a literal, absent or an `e` with an optional sign and at least one digit.
The rest of the literal must be used up. -/
def readExponent : List Char → Option Int
  | [] => some 0
  | mark :: rest =>
    if mark = 'e' || mark = 'E' then
      let (negative, digits) := match rest with
        | '-' :: digits => (true, digits)
        | '+' :: digits => (false, digits)
        | digits => (false, digits)
      if Text.isNumeralRow digits then
        let size : Int := exponentValue digits
        some (if negative then -size else size)
      else none
    else none

/-- The bit pattern of the double nearest to `digits * 10 ^ exponent`.  Exponents that put the
number out of the range of the doubles are settled without computing the power of ten. -/
def scaledMagnitude (digits : Nat) (exponent : Int) : Nat :=
  if digits = 0 then 0
  else if 400 < exponent then infinityBits
  else if exponent < -400 - digits.log2 then 0
  else if 0 ≤ exponent then nearestMagnitude ⟨digits * Nat.pow 10 exponent.toNat, 1⟩
  else nearestMagnitude ⟨digits, Nat.pow 10 (-exponent).toNat⟩

/-- The bit pattern of an unsigned literal made of digits. -/
def readDigits (literal : List Char) : Option Nat :=
  let whole := literal.takeWhile Char.isDigit
  let afterWhole := literal.dropWhile Char.isDigit
  let (places, rest) := match afterWhole with
    | '.' :: fraction => (fraction.takeWhile Char.isDigit, fraction.dropWhile Char.isDigit)
    | rest => ([], rest)
  if whole.isEmpty && places.isEmpty then none
  else (readExponent rest).map fun exponent =>
    scaledMagnitude (Text.digitsValue (whole ++ places)) (exponent - places.length)

/-- The double with the given sign that an unsigned literal stands for. -/
def readUnsigned (negative : Bool) (literal : List Char) : Option Float :=
  match readDigits literal with
  | some bits => some (ofMagnitudeBits negative bits)
  | none =>
    let word := literal.map Char.toLower
    if word = "inf".toList || word = "infinity".toList then
      some (ofMagnitudeBits negative infinityBits)
    else if word = "nan".toList then some notANumber
    else none

/-- The double that a literal stands for. -/
def read? : List Char → Option Float
  | '-' :: literal => readUnsigned true literal
  | '+' :: literal => readUnsigned false literal
  | literal => readUnsigned false literal

end Number
end Dataflow
