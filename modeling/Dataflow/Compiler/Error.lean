import Dataflow.Code.Instruction
import Dataflow.Text.Quoted

/-!
# Compile errors

Compiling a model fails for one of three reasons: the graph is malformed, a node reads a port that
has no storage yet, or the backend refuses an operation.  A backend does not know for whom it works;
the compiler adds the node, parameter or function to an error on the way out.
-/

namespace Dataflow

/-- What is wrong with a node of the graph. -/
inductive StructuralFault where
  /-- The node lacks an input port. -/
  | missingInput (index : Nat)
  /-- An input port that refers to nothing. -/
  | emptyInput (name : String)
  /-- A range of a port that does not exist. -/
  | danglingPort (port : PortId)
  /-- A range that is empty or reaches outside its port. -/
  | outOfBounds (port : String) (start stop size : Nat)
  /-- Ranges of two element types at one input port. -/
  | mixedTypes (index : Nat) (first other : ElementType)
  /-- Operands of two element types. -/
  | operandTypes (lhs rhs : ElementType)
  /-- An output port of another size than the result. -/
  | outputSize (declared produced : Nat)
  /-- Two operands of which neither can be repeated to the length of the other. -/
  | noBroadcast (lhs rhs : Nat)
  /-- Two operands of a dot product that differ in length. -/
  | dotLengths (lhs rhs : Nat)
  /-- A port of no elements. -/
  | emptyPort
  /-- Constant values that do not fill their port. -/
  | dataSize (values size : Nat)
  /-- A number of gathered elements that is no word, which ends the program. -/
  | overflow
  /-- A reason that is given in words. -/
  | stated (reason : String)
deriving DecidableEq, Repr

/-- The wording of a structural fault. -/
def StructuralFault.message : StructuralFault → String
  | missingInput index => s!"missing input #{index}"
  | emptyInput name => s!"input '{name}' references no elements"
  | danglingPort port => s!"dangling reference to port {port.text}"
  | outOfBounds port start stop size =>
    s!"range {port}[{start}..{stop}] is out of bounds for a port of size {size}"
  | mixedTypes index first other =>
    s!"input #{index} mixes {first.name} and {other.name} elements"
  | operandTypes lhs rhs => s!"operand types {lhs.name} and {rhs.name} differ"
  | outputSize declared produced =>
    s!"output declares {declared} elements but the operation produces {produced}"
  | noBroadcast lhs rhs => s!"operand lengths {lhs} and {rhs} do not broadcast"
  | dotLengths lhs rhs => s!"dot operands differ in length ({lhs} vs {rhs})"
  | emptyPort => "port has no elements"
  | dataSize values size => s!"{values} values for a port of size {size}"
  | overflow => Word.overflowText
  | stated reason => reason

/-- Why a backend refuses an operation. -/
inductive BackendFault where
  /-- An operation that needs an open function. -/
  | noFunction
  /-- An instruction before the first region. -/
  | noRegion
  /-- A second function while one is open. -/
  | functionOpen (name : String)
  /-- A function name that the program has already. -/
  | functionExists (name program : String)
  /-- A parameter for which no variable was declared. -/
  | undeclaredParameter (name : String)
  /-- A number that no variable has. -/
  | unknownVariable (id : VarId)
  /-- A use of a variable without storage. -/
  | unallocated (name : String)
  /-- A second allocation of a variable. -/
  | allocatedTwice (name : String)
  /-- An allocation beyond the storage limit. -/
  | storageExhausted (limit : Nat) (name : String) (size : Nat)
  /-- A slice that is empty or reaches outside its variable. -/
  | sliceOutOfBounds (slice : Slice) (name : String) (size : Nat)
  /-- A slice whose end is no word, which ends the program. -/
  | overflow
  /-- An instruction that writes an input parameter. -/
  | inputWritten (name : String)
  /-- An instruction whose slices do not fit together. -/
  | lengthMismatch (instruction : Instruction)
  /-- A second region for a node. -/
  | regionExists (node : NodeId)
  /-- A reason that is given in words. -/
  | stated (reason : String)
deriving DecidableEq, Repr

/-- The wording of a backend fault. -/
def BackendFault.message : BackendFault → String
  | noFunction => "no function is open"
  | noRegion => "no region is open"
  | functionOpen name => s!"function '{name}' is still open"
  | functionExists name program => s!"function '{name}' already exists in module '{program}'"
  | undeclaredParameter name => s!"parameter '{name}' has no declared variable"
  | unknownVariable id => s!"unknown variable {id.text}"
  | unallocated name => s!"variable {name} used before allocation"
  | allocatedTwice name => s!"variable {name} allocated twice"
  | storageExhausted limit name size =>
    s!"storage limit of {limit} elements exhausted allocating '{name}' ({size} elements)"
  | sliceOutOfBounds slice name size => s!"slice {slice.text} exceeds '{name}' of size {size}"
  | overflow => Word.overflowText
  | inputWritten name => s!"write to input parameter '{name}'"
  | lengthMismatch instruction => s!"mismatched lengths in '{instruction.text}'"
  | regionExists node => s!"node {node.text} already has a region"
  | stated reason => reason

/-- Why a compilation fails. -/
inductive CompileError where
  /-- The graph is malformed at a node. -/
  | structural (node : String) (fault : StructuralFault)
  /-- A node reads a port for which there is no variable yet. -/
  | unboundReference (node : String) (port : PortId) (portName : String)
  /-- The backend refused something.  The origin is the node, parameter or function for which it was
  working, and empty as long as that is not known. -/
  | backend (origin : String) (fault : BackendFault)
deriving DecidableEq, Repr

namespace CompileError

/-- A refusal by the backend, for nobody in particular yet. -/
def refusal (fault : BackendFault) : CompileError := .backend "" fault

/-- The wording of an error. -/
def message : CompileError → String
  | structural node fault => s!"Structural error at node '{node}': {fault.message}"
  | unboundReference node port portName =>
    s!"Unbound reference: node '{node}' reads port {port.text} ('{portName}') which has no " ++
      "variable in scope"
  | backend origin fault =>
    let place := if origin = "" then "" else s!" at '{origin}'"
    s!"Backend error{place}: {fault.message}"

/-- The constructor of an error with its arguments, as the command line reports it. -/
def details : CompileError → String
  | structural node fault =>
    "Structural \x7b node: " ++ Text.quoteString node ++ ", reason: " ++
      Text.quoteString fault.message ++ " \x7d"
  | unboundReference node port portName =>
    "UnboundReference \x7b node: " ++ Text.quoteString node ++
      s!", port: PortId({port.index}), port_name: " ++ Text.quoteString portName ++ " \x7d"
  | backend origin fault =>
    "Backend \x7b node: " ++ Text.quoteString origin ++ ", reason: " ++
      Text.quoteString fault.message ++ " \x7d"

/-- Names the origin of a refusal by the backend, unless it has one. -/
def withOrigin (error : CompileError) (name : String) : CompileError :=
  match error with
  | structural .. => error
  | unboundReference .. => error
  | backend origin fault => if origin = "" then backend name fault else error

/-- Whether a node read a port without a variable. -/
def isUnbound : CompileError → Bool
  | unboundReference .. => true
  | structural .. => false
  | backend .. => false

@[simp] theorem isUnbound_withOrigin (error : CompileError) (name : String) :
    (error.withOrigin name).isUnbound = error.isUnbound := by
  cases error with
  | structural | unboundReference => rfl
  | backend origin fault => by_cases horigin : origin = "" <;> simp [withOrigin, horigin, isUnbound]

end CompileError
end Dataflow
