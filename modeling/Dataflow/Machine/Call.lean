import Dataflow.Code.Program
import Dataflow.Machine.Memory

/-!
# Calling functions

A machine runs the functions of a program.  The storage of the whole program is set up once and
keeps its contents from call to call.  A call first resets the storage of calls and its own outputs;
a call that fails keeps what it has changed by then.  Whatever is stored in a variable is coerced to
its element type.
-/

namespace Dataflow

/-! ## Instructions -/

namespace Instruction

/-- An operand of an element-wise operator: a single value is repeated. -/
def spread (count : Nat) : List Float → List Float
  | [value] => List.replicate count value
  | values => values

/-- The sum of the products of two rows of numbers.  It starts from negative zero, which adding does
not change. -/
def sumOfProducts (lhs rhs : List Float) : Float :=
  (List.zipWith (· * ·) lhs rhs).foldl (· + ·) (-0.0)

/-- The values that an instruction computes for its destination. -/
def result (memory : Memory) : Instruction → Except CallError (List Float)
  | copy _ src => memory.read src
  | fill dst value => return (← memory.read dst).map fun _ => value
  | binary op dst lhs rhs => do
    let lhs ← memory.read lhs
    let rhs ← memory.read rhs
    return List.zipWith op.apply (spread dst.length lhs) (spread dst.length rhs)
  | unary op _ src => return (← memory.read src).map op.apply
  | reduce op dst src => do
    let some start := (← memory.read dst).head? | throw (.invalidSlice dst)
    return [(← memory.read src).foldl op.combine start]
  | dot _ lhs rhs => return [sumOfProducts (← memory.read lhs) (← memory.read rhs)]
  | accumulate dst src => return List.zipWith (· + ·) (← memory.read dst) (← memory.read src)

/-- Stores the values that an instruction computes. -/
def execute (vars : VariableTable) (instruction : Instruction) (memory : Memory) :
    Except CallError Memory := do
  let values ← instruction.result memory
  let some var := vars.get? instruction.dst.var | throw (.invalidSlice instruction.dst)
  memory.write instruction.dst (values.map var.elementType.coerce)

end Instruction

/-! ## Calls -/

/-- A step on the memory that may fail. -/
abbrev Execution (α : Type) := EStateM CallError Memory α

namespace Execution

/-- A step that changes the memory as a whole, or fails and leaves it alone. -/
def change (next : Memory → Except CallError Memory) : Execution Unit := fun memory =>
  match next memory with
  | .ok memory => .ok () memory
  | .error error => .error error memory

end Execution

/-- Whether a variable starts a call of a function with its initial contents: if it belongs to
calls, or is an output of that very function. -/
def Variable.isReset (var : Variable) (function : Function) : Bool :=
  match var.storage with
  | .global => false
  | .scratch => true
  | .input => false
  | .output => function.vars.contains var.id

namespace Program

/-- The memory before the first call. -/
def initialMemory (program : Program) : Memory :=
  ⟨program.vars.entries.map Variable.initialContents⟩

/-- Resets the variables that a call of a function does not inherit. -/
def reset (program : Program) (function : Function) (memory : Memory) : Memory :=
  program.vars.toList.foldl (fun memory var =>
    if var.isReset function then memory.set var.id var.initialContents else memory) memory

/-- Stores the values of one input. -/
def bindInput (parameter : Parameter) (var : VarId) (values : List Float) : Execution Unit := do
  if values.length ≠ parameter.size then
    throw (.argumentSize parameter.name parameter.size values.length)
  if ((← get).get? var).isNone then throw (.invalidSlice ⟨var, 0, values.length⟩)
  modify fun memory => memory.set var (values.map parameter.elementType.coerce)

/-- Stores the values of all inputs. -/
def bindInputs (function : Function) (inputs : List (List Float)) : Execution Unit := do
  if function.inputs.length ≠ inputs.length then
    throw (.argumentCount function.name function.inputs.length inputs.length)
  (function.inputs.zip inputs).forM fun (binding, values) =>
    bindInput binding.1 binding.2 values

/-- The values of the outputs. -/
def collectOutputs (function : Function) (memory : Memory) :
    Except CallError (List (List Float)) :=
  function.outputs.mapM fun binding =>
    match memory.get? binding.2 with
    | some values => .ok values
    | none => .error (.invalidSlice ⟨binding.2, 0, 0⟩)

/-- Runs a function. -/
def run (program : Program) (function : Function) (inputs : List (List Float)) :
    Execution (List (List Float)) := do
  modify (program.reset function)
  bindInputs function inputs
  function.body.forM fun instruction => Execution.change (instruction.execute program.vars)
  MonadExcept.ofExcept (collectOutputs function (← get))

end Program

/-- A machine. -/
structure Machine where
  /-- The program that it runs. -/
  program : Program
  /-- The values of the program's variables. -/
  memory : Memory
deriving DecidableEq, Repr

namespace Machine

/-- A machine before its first call. -/
def start (program : Program) : Machine := ⟨program, program.initialMemory⟩

/-- Calls a function with one list of values for each of its inputs.  The answer has one list of
values for each of its outputs. -/
def call (machine : Machine) (name : String) (inputs : List (List Float)) :
    Except CallError (List (List Float)) × Machine :=
  match machine.program.function? name with
  | none => (.error (.unknownFunction name), machine)
  | some function =>
    match machine.program.run function inputs machine.memory with
    | .ok outputs memory => (.ok outputs, { machine with memory })
    | .error error memory => (.error error, { machine with memory })

/-- The current values of a variable. -/
def read? (machine : Machine) (var : VarId) : Option (List Float) := machine.memory.get? var

end Machine
end Dataflow
