import Dataflow.Model.Error
import Dataflow.Number.Literal
import Dataflow.Text.Blank
import Dataflow.Text.Letter
import Dataflow.Text.Numeral

/-!
# Words of a model text

The parts that the statements of a model text are made of: names, indices, number literals and
single marks, each with optional blanks in front.  A reader takes characters off the front of what
is left of the line, or fails with the fault found there.
-/

namespace Dataflow

/-- A reader of the rest of a line. -/
abbrev Scan := StateT (List Char) (Except SyntaxFault)

namespace Scan

/-- Whether `c` can begin a name. -/
def startsName (c : Char) : Bool := Text.isLetter c || c == '_'

/-- Whether `c` can stand inside a name. -/
def continuesName (c : Char) : Bool := Text.isLetter c || Text.isNumeral c || c == '_'

/-- Whether `c` can stand in a number literal. -/
def inNumber (c : Char) : Bool := c.isAlphanum || c == '.' || c == '-' || c == '+'

/-- Whether a line, without the blanks in front, holds nothing more: it is used up, or the rest is a
comment. -/
def atEnd : List Char → Bool
  | [] => true
  | c :: _ => c == ';'

/-- Passes over blanks. -/
def skipBlanks : Scan Unit := modify fun line => line.dropWhile Text.isBlank

/-- Takes the mark `c`, if it comes next. -/
def accept (c : Char) : Scan Bool := do
  skipBlanks
  match ← get with
  | next :: rest => if next = c then set rest; return true else return false
  | [] => return false

/-- Takes two points, if they come next. -/
def acceptDots : Scan Bool := do
  skipBlanks
  match ← get with
  | '.' :: '.' :: rest => set rest; return true
  | _ => return false

/-- Takes the mark `c`, which has to come next. -/
def expect (c : Char) : Scan Unit := do
  unless ← accept c do throw (.expectedChar c (← get).head?)

/-- Takes the longest run of characters of a class. -/
def takeRun (inClass : Char → Bool) : Scan (List Char) := do
  let line ← get
  set (line.dropWhile inClass)
  return line.takeWhile inClass

/-- Reads a name. -/
def name : Scan String := do
  skipBlanks
  let next := (← get).head?
  unless next.any startsName do throw (.expectedName next)
  return String.ofList (← takeRun continuesName)

/-- Reads an index. -/
def index : Scan Nat := do
  skipBlanks
  let digits ← takeRun Char.isDigit
  match Word.ofDigits? digits with
  | some value => return value
  | none => throw (.expectedIndex (String.ofList (← get)))

/-- Reads a number literal. -/
def number : Scan Float := do
  skipBlanks
  let literal ← takeRun inNumber
  match Number.read? literal with
  | some value => return value
  | none => throw (.invalidNumber (String.ofList literal))

/-- Reads one or more items separated by commas. -/
def separated {α : Type} (item : Scan α) (line : List Char) :
    Except SyntaxFault (List α × List Char) :=
  match item line with
  | .error fault => .error fault
  | .ok (first, rest) =>
    match accept ',' rest with
    | .error fault => .error fault
    | .ok (false, rest) => .ok ([first], rest)
    | .ok (true, rest) =>
      if rest.length < line.length then
        match separated item rest with
        | .error fault => .error fault
        | .ok (others, rest) => .ok (first :: others, rest)
      else .ok ([first], rest)
termination_by line.length

end Scan
end Dataflow
