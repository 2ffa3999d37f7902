/-!
# Rows of decimal digits
-/

namespace Dataflow
namespace Text

/-- The number that a decimal digit stands for. -/
def digitValue (digit : Char) : Nat := digit.toNat - '0'.toNat

/-- The number that a row of decimal digits stands for. -/
def digitsValue (digits : List Char) : Nat :=
  digits.foldl (fun value digit => 10 * value + digitValue digit) 0

/-- Whether some characters are a decimal numeral: digits only, and at least one. -/
def isNumeralRow (digits : List Char) : Bool := !digits.isEmpty && digits.all Char.isDigit

@[simp] theorem digitsValue_nil : digitsValue [] = 0 := rfl

end Text
end Dataflow
