/-!
# Lines of a text

A text is read line by line.  A line ends with a line feed; a carriage return directly before the
line feed belongs to the line end.  A text that ends with a line feed has no empty line after it,
and a carriage return at the very end of the text stays in the last line.
-/

namespace Dataflow
namespace Text

/-- The lines of a text, without their line ends. -/
def lines : List Char → List (List Char)
  | [] => []
  | '\n' :: rest => [] :: lines rest
  | '\r' :: '\n' :: rest => [] :: lines rest
  | c :: rest =>
    match lines rest with
    | [] => [[c]]
    | line :: others => (c :: line) :: others

@[simp] theorem lines_nil : lines [] = [] := by simp [lines]

@[simp] theorem lines_lineFeed (rest : List Char) : lines ('\n' :: rest) = [] :: lines rest := by
  simp [lines]

theorem lines_ne_nil {text : List Char} (h : text ≠ []) : lines text ≠ [] := by
  fun_cases lines text <;> simp_all

end Text
end Dataflow
