/-!
# Sets of characters given by ranges of code points

The character properties that decide what a name, a blank or a printable character is are data of
the Unicode standard.  Each is a list of closed ranges of code points; this module says which
characters such a list contains.
-/

namespace Dataflow
namespace Text

/-- A set of characters, as closed ranges of code points. -/
abbrev Ranges := List (Nat × Nat)

/-- Whether the code point of `c` lies in one of the ranges. -/
def Ranges.contains (ranges : Ranges) (c : Char) : Bool :=
  ranges.any fun range => range.1 ≤ c.toNat && c.toNat ≤ range.2

theorem Ranges.contains_iff {ranges : Ranges} {c : Char} :
    ranges.contains c = true ↔ ∃ range ∈ ranges, range.1 ≤ c.toNat ∧ c.toNat ≤ range.2 := by
  simp [Ranges.contains]

end Text
end Dataflow
