import Dataflow.Backend.Basic
import Dataflow.Compiler.Scope
import Dataflow.Compiler.Statistics

/-!
# The state of a compiler

A compiler drives a backend.  It remembers in which variable every port is kept, and which nodes it
has compiled so far: a parameter has its variable from the start, so that alone does not show that a
port has been computed.
-/

namespace Dataflow

/-- How models are compiled. -/
structure Options where
  /-- Whether the backend is asked to merge the region of a node with the one before it. -/
  mergeRegions : Bool
  /-- Whether operands of different element types are refused. -/
  checkElementTypes : Bool
  /-- Whether the surroundings should report every instruction.  Compiling does not depend on it. -/
  traceEmission : Bool
deriving DecidableEq, Repr

/-- The options that hold if nothing else is said. -/
def Options.standard : Options := ⟨true, true, false⟩

/-- A function that was compiled from a model. -/
structure CompiledFunction where
  /-- The name of the function. -/
  name : String
  /-- The parameters: the inputs, then the outputs, both in declaration order. -/
  parameters : List Parameter
  /-- The number of nodes of the model. -/
  nodeCount : Nat
deriving DecidableEq, Repr

/-- A compiler. -/
structure Compiler (β : Type) where
  /-- The backend. -/
  backend : β
  /-- What all compilations have in common. -/
  session : Session
  /-- How models are compiled. -/
  options : Options
  /-- The variables that ports are bound to. -/
  scopes : ScopeStack
  /-- The nodes that the running compilation has finished. -/
  compiled : List NodeId

namespace Compiler

variable {β : Type}

/-- A compiler that has not compiled anything. -/
def fresh (backend : β) (options : Options) : Compiler β :=
  { backend, session := .fresh, options, scopes := .root, compiled := [] }

/-! ## Scopes -/

/-- Opens a scope. -/
def pushScope (compiler : Compiler β) : Compiler β :=
  { compiler with scopes := compiler.scopes.push }

/-- Closes the innermost scope, unless it is the root scope, and says whether it has done so. -/
def popScope (compiler : Compiler β) : Bool × Compiler β :=
  match compiler.scopes.pop? with
  | some scopes => (true, { compiler with scopes })
  | none => (false, compiler)

/-- The variable bound to a port in the innermost scope that binds it. -/
def variableOf? (compiler : Compiler β) (port : PortId) : Option VarId :=
  compiler.scopes.lookup port

/-- Binds a port in the innermost scope. -/
def bindPort (compiler : Compiler β) (port : PortId) (var : VarId) : Compiler β :=
  { compiler with scopes := compiler.scopes.bind port var }

/-- Binds the port that a range belongs to in the innermost scope. -/
def bindElement (compiler : Compiler β) (range : PortRange) (var : VarId) : Compiler β :=
  { compiler with scopes := compiler.scopes.bindElement range var }

/-- Whether the running compilation has finished a node. -/
def isCompiled (compiler : Compiler β) (node : NodeId) : Bool := compiler.compiled.contains node

@[simp] theorem popScope_pushScope (compiler : Compiler β) :
    compiler.pushScope.popScope = (true, compiler) := rfl

@[simp] theorem variableOf?_bindPort (compiler : Compiler β) (port : PortId) (var : VarId) :
    (compiler.bindPort port var).variableOf? port = some var :=
  compiler.scopes.lookup_bind_self port var

/-! ## Counting -/

/-- Counts something. -/
def count (step : Statistics → Statistics) : Attempt (Compiler β) Unit :=
  modify fun compiler => { compiler with session := compiler.session.count step }

/-! ## The backend -/

/-- A step of the backend. -/
def onBackend {α : Type} (step : Attempt β α) : Attempt (Compiler β) α :=
  step.zoom Compiler.backend fun backend compiler => { compiler with backend }

variable [Backend β]

/-- The variables of the backend. -/
def vars (compiler : Compiler β) : VariableTable := Backend.vars compiler.backend

/-- Tells the backend of a milestone. -/
def notify (milestone : Milestone) (subject : String) : Attempt (Compiler β) Unit :=
  modify fun compiler =>
    let function := compiler.session.currentFunction.getD ""
    { compiler with backend := Backend.notify ⟨milestone, subject, function⟩ compiler.backend }

/-- Emits an instruction.  Refused ones are counted, too. -/
def emit (instruction : Instruction) : Attempt (Compiler β) Unit := do
  count Statistics.instructionEmitted
  onBackend (Backend.emit instruction)

/-- Asks the backend to fold the region of a node into the region before it. -/
def mergeRegion (node : NodeId) : Attempt (Compiler β) Bool := do
  let merged ← onBackend (.always (Backend.mergeRegion node))
  count fun stats => stats.mergeAttempted merged
  return merged

/-- Asks the backend to fold the region of a source node into that of a target node. -/
def mergeRegions (target source : NodeId) : Attempt (Compiler β) Bool := do
  let merged ← onBackend (.always (Backend.mergeRegions target source))
  count fun stats => stats.mergeAttempted merged
  return merged

end Compiler
end Dataflow
