import Dataflow.Compiler.Operand

/-!
# Lowering

Every kind of node has its own instructions.  Lowering a node resolves its operands, checks that the
result fits its port, allocates the port and emits those instructions, in this order.
-/

namespace Dataflow
namespace Site

variable {β : Type}

/-- Checks the element types of an input port, as far as the options ask for it. -/
def checkInput (site : Site) (index : Nat) : Attempt (Compiler β) Unit := do
  let strict := (← get).options.checkElementTypes
  discard (MonadExcept.ofExcept (site.inputType strict index))

/-- Checks the element types of two operands, as far as the options ask for it. -/
def checkOperands (site : Site) : Attempt (Compiler β) Unit := do
  let strict := (← get).options.checkElementTypes
  MonadExcept.ofExcept (site.checkOperandTypes strict)

/-- Checks that the result has the size of the node's port. -/
def checkResult (site : Site) (produced : Nat) : Attempt (Compiler β) Unit :=
  MonadExcept.ofExcept (site.checkSize produced)

variable [Backend β]

/-- The elements of all ranges, one after another, written to a destination. -/
def lowerConcatenation (site : Site) (destination : Attempt (Compiler β) Slice) :
    Attempt (Compiler β) Unit := do
  let slices ← site.inputSlices 0
  site.checkInput 0
  site.checkResult (← MonadExcept.ofExcept (site.joinedSize slices))
  copyConsecutive (← destination) 0 slices

/-- An operation on each element of one operand. -/
def lowerPointwise (site : Site) (instruction : Slice → Slice → Instruction) :
    Attempt (Compiler β) Unit := do
  site.checkInput 0
  let src ← site.inputContiguous 0
  site.checkResult src.length
  let dst ← site.output none
  Compiler.emit (instruction dst src)

/-- An operator on the elements of two operands. -/
def lowerBinary (site : Site) (op : BinaryOp) : Attempt (Compiler β) Unit := do
  site.checkOperands
  let lhs ← site.inputContiguous 0
  let rhs ← site.inputContiguous 1
  let some size := broadcastSize? lhs.length rhs.length
    | MonadExcept.ofExcept (site.malformed (.noBroadcast lhs.length rhs.length))
  site.checkResult size
  let dst ← site.output none
  Compiler.emit (.binary op dst lhs rhs)

/-- A sum of products. -/
def lowerDot (site : Site) : Attempt (Compiler β) Unit := do
  site.checkOperands
  let lhs ← site.inputContiguous 0
  let rhs ← site.inputContiguous 1
  if lhs.length ≠ rhs.length then
    MonadExcept.ofExcept (site.malformed (.dotLengths lhs.length rhs.length))
  site.checkResult 1
  let dst ← site.output none
  Compiler.emit (.dot dst lhs rhs)

/-- A reduction.  The result starts from the operator's identity in every call, and the ranges are
folded into it one after another. -/
def lowerReduce (site : Site) (op : ReduceOp) : Attempt (Compiler β) Unit := do
  site.checkInput 0
  let slices ← site.inputSlices 0
  site.checkResult 1
  let dst ← site.output (some op.identity)
  Compiler.emit (.fill dst op.identity)
  slices.forM fun src => Compiler.emit (.reduce op dst src)

/-- Emits the instructions of a node.  Inputs and constants need none: the caller fills the former,
and the variables of the latter start with their values.  A running sum is kept in a variable that
starts with zeros and is not reset between calls. -/
def lower (site : Site) : Attempt (Compiler β) Unit :=
  match site.node.kind with
  | .input => discard site.boundOutput
  | .output => site.lowerConcatenation site.boundOutput
  | .constant values => discard (Compiler.allocateData site.node.port values)
  | .concat => site.lowerConcatenation (site.output none)
  | .binary op => site.lowerBinary op
  | .unary op => site.lowerPointwise (.unary op)
  | .accumulator => site.lowerPointwise .accumulate
  | .reduce op => site.lowerReduce op
  | .dot => site.lowerDot

end Site
end Dataflow
