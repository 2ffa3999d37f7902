import Dataflow.Compiler.Basic

/-!
# Allocation

A port gets its variable when it is needed first: a parameter before any node is compiled, any other
port when its node is.  Later requests find that variable again as long as its scope is open.
-/

namespace Dataflow
namespace Compiler

variable {β : Type} [Backend β]

/-- Declares a variable and reserves storage for it. -/
def allocate (spec : VariableSpec) : Attempt (Compiler β) VarId := do
  let var := (← get).vars.next
  modify fun compiler => { compiler with backend := Backend.declare spec compiler.backend }
  onBackend (Backend.allocate var)
  count Statistics.variableAllocated
  return var

/-- Gives a port a new variable that is kept from call to call, and binds the port to it in the
innermost scope.  Without an initial value the variable starts with zeros. -/
def allocatePort (port : OutputPort) (initial : Option Float) : Attempt (Compiler β) VarId := do
  if port.size = 0 then throw (.structural port.name .emptyPort)
  let initializer := match initial with
    | none => .zero
    | some value => .ofFill value
  let var ← allocate ⟨none, .global, port.elementType, port.size, initializer⟩
  modify fun compiler => compiler.bindPort port.id var
  return var

/-- The variable of a port, which is allocated if the port has none. -/
def getOrAllocatePort (port : OutputPort) (initial : Option Float) :
    Attempt (Compiler β) VarId := do
  match (← get).variableOf? port.id with
  | some var => return var
  | none => allocatePort port initial

/-- Gives a port a new variable that holds the given values, and binds the port to it in the
innermost scope. -/
def allocateData (port : OutputPort) (values : List Float) : Attempt (Compiler β) VarId := do
  if values.length ≠ port.size then
    throw (.structural port.name (.dataSize values.length port.size))
  let var ← allocate ⟨none, .global, port.elementType, values.length, .data values⟩
  modify fun compiler => compiler.bindPort port.id var
  return var

/-- A new variable for one call, which is not bound to any port. -/
def allocateScratch (elementType : ElementType) (size : Nat) : Attempt (Compiler β) VarId :=
  allocate ⟨none, .scratch, elementType, size, .zero⟩

/-! ## Parameters -/

/-- A port as a parameter. -/
def parameterOf (storage : StorageClass) (port : OutputPort) : Parameter :=
  ⟨port.name, storage, port.elementType, port.size⟩

/-- Makes a port a parameter: gives it a variable of its own name, and binds the port to it in the
innermost scope. -/
def allocateParameter (storage : StorageClass) (port : OutputPort) :
    Attempt (Compiler β) Parameter := do
  let spec : VariableSpec := ⟨some port.name, storage, port.elementType, port.size, .zero⟩
  let var ← (allocate spec).onBehalfOf port.name
  modify fun compiler => compiler.bindPort port.id var
  return parameterOf storage port

/-- Makes the ports of the input nodes of a model and then those of the output nodes parameters.  So
input nodes find their storage in place, and output nodes write where the caller reads. -/
def allocateParameters (model : Model) : Attempt (Compiler β) (List Parameter) := do
  let inputs ← model.inputPorts.mapM (allocateParameter .input)
  let outputs ← model.outputPorts.mapM (allocateParameter .output)
  return inputs ++ outputs

end Compiler
end Dataflow
