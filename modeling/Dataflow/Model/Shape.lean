import Dataflow.Model.Error

/-!
# Shapes

How many elements a node computes from inputs of given lengths.
-/

namespace Dataflow

/-- The length of an element-wise result.  An operand of length one is repeated. -/
def broadcastSize? (lhs rhs : Nat) : Option Nat :=
  if lhs = rhs ∨ rhs = 1 then some lhs
  else if lhs = 1 then some rhs
  else none

/-- The number of elements that a node of a kind computes from inputs of the given lengths. -/
def NodeKind.inferSize (kind : NodeKind) (sizes : List Nat) : Except ShapeFault Nat :=
  match kind, sizes with
  | .output, [size] | .concat, [size] =>
    if size ≤ maxPortSize then .ok size else .error .combinedLength
  | .unary _, [size] | .accumulator, [size] => .ok size
  | .reduce _, [_] => .ok 1
  | .dot, [lhs, rhs] => if lhs = rhs then .ok 1 else .error (.dotLengths lhs rhs)
  | .binary _, [lhs, rhs] =>
    match broadcastSize? lhs rhs with
    | some size => .ok size
    | none => .error (.noBroadcast lhs rhs)
  | _, _ => .error (.nothingToInfer kind.name)

end Dataflow
