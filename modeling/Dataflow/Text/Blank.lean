import Dataflow.Text.Ranges

/-!
# Blank characters

Blanks separate the words of a line and are otherwise ignored.  They are the characters with the
Unicode property `White_Space`, which has more members than the four blanks of ASCII text.
-/

namespace Dataflow
namespace Text

/-- The characters outside ASCII with the property `White_Space`. -/
def blankRanges : Ranges :=
  [
    (0x85, 0x85), (0xa0, 0xa0), (0x1680, 0x1680), (0x2000, 0x200a), (0x2028, 0x2029),
    (0x202f, 0x202f), (0x205f, 0x205f), (0x3000, 0x3000)
  ]

/-- Whether `c` is a blank: the six blanks of ASCII, the vertical tab and form feed among them, and
those of the table. -/
def isBlank (c : Char) : Bool :=
  (9 ≤ c.toNat && c.toNat ≤ 13) || c == ' ' || blankRanges.contains c

end Text
end Dataflow
