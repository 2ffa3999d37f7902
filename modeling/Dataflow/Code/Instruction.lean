import Dataflow.Model.Shape
import Dataflow.Storage.Variable

/-!
# Instructions

The code of a function is a list of instructions on slices of variables.  Every instruction writes
one slice and reads the slices it names as its sources.
-/

namespace Dataflow

/-- A contiguous part of a variable. -/
structure Slice where
  /-- The variable. -/
  var : VarId
  /-- The first element. -/
  offset : Nat
  /-- The number of elements. -/
  length : Nat
deriving DecidableEq, Repr

namespace Slice

/-- One past the last element. -/
def stop (slice : Slice) : Nat := slice.offset + slice.length

/-- One past the last element as a word, unless it is no word. -/
def stop? (slice : Slice) : Option Nat := Word.add? slice.offset slice.length

theorem stop?_cases (slice : Slice) :
    slice.stop ≤ Word.top ∧ slice.stop? = some slice.stop ∨
      Word.top < slice.stop ∧ slice.stop? = none :=
  Word.ofNat?_cases slice.stop

/-- The part of a slice that begins at an offset from its own beginning. -/
def sub (slice : Slice) (offset length : Nat) : Slice :=
  ⟨slice.var, slice.offset + offset, length⟩

/-- A slice as it is written in a listing. -/
def text (slice : Slice) : String := s!"{slice.var.text}[{slice.offset}..{slice.stop}]"

end Slice

/-- An instruction. -/
inductive Instruction where
  /-- Copies a slice to another one of the same length. -/
  | copy (dst src : Slice)
  /-- Sets every element of a slice. -/
  | fill (dst : Slice) (value : Float)
  /-- Combines two slices element by element; a slice of one element is repeated. -/
  | binary (op : BinaryOp) (dst lhs rhs : Slice)
  /-- Applies an operator element by element. -/
  | unary (op : UnaryOp) (dst src : Slice)
  /-- Folds the elements of a slice into the single element of another one. -/
  | reduce (op : ReduceOp) (dst src : Slice)
  /-- Sets a single element to the sum of the products of two slices. -/
  | dot (dst lhs rhs : Slice)
  /-- Adds a slice to another one element by element. -/
  | accumulate (dst src : Slice)
deriving DecidableEq, Repr

namespace Instruction

/-- The name of an instruction. -/
def name : Instruction → String
  | copy .. => "copy"
  | fill .. => "fill"
  | binary op .. => op.name
  | unary op .. => op.name
  | reduce op .. => op.name
  | dot .. => "dot"
  | accumulate .. => "accumulate"

/-- The slice that an instruction writes. -/
def dst : Instruction → Slice
  | copy dst _ => dst
  | fill dst _ => dst
  | binary _ dst _ _ => dst
  | unary _ dst _ => dst
  | reduce _ dst _ => dst
  | dot dst _ _ => dst
  | accumulate dst _ => dst

/-- The slices that an instruction reads, except that a reduction's running value is not listed. -/
def sources : Instruction → List Slice
  | copy _ src => [src]
  | fill _ _ => []
  | binary _ _ lhs rhs => [lhs, rhs]
  | unary _ _ src => [src]
  | reduce _ _ src => [src]
  | dot _ lhs rhs => [lhs, rhs]
  | accumulate dst src => [dst, src]

/-- Whether the lengths of the slices fit together. -/
def lengthsFit : Instruction → Bool
  | copy dst src => src.length = dst.length
  | fill _ _ => true
  | binary _ dst lhs rhs => broadcastSize? lhs.length rhs.length = some dst.length
  | unary _ dst src => src.length = dst.length
  | reduce _ dst _ => dst.length = 1
  | dot dst lhs rhs => dst.length = 1 ∧ lhs.length = rhs.length
  | accumulate dst src => src.length = dst.length

/-- An instruction as it is written in a listing. -/
def text (instruction : Instruction) : String :=
  match instruction with
  | fill dst value => s!"{dst.text} = fill {Number.text value}"
  | copy dst src => s!"{dst.text} = {src.text}"
  | accumulate dst src => s!"{dst.text} += {src.text}"
  | _ =>
    s!"{instruction.dst.text} = {instruction.name} " ++
      String.intercalate ", " (instruction.sources.map Slice.text)

end Instruction
end Dataflow
