import Dataflow.Compiler.Lowering

/-!
# Compiling models

A model becomes one function of the backend's program: its parameters are allocated, the function is
begun, every node is lowered into a region of its own, in declared order, and the function is ended.
If any step fails, the backend discards the function, and the compiler forgets all bindings.
-/

namespace Dataflow
namespace Compiler

variable {β : Type}

/-- Forgets what belongs to a compilation that is over. -/
def leave (compiler : Compiler β) : Compiler β :=
  { compiler with session := compiler.session.leave, compiled := [] }

/-- Makes ready for the compilation of a function. -/
def enter (compiler : Compiler β) (name : String) : Compiler β :=
  { compiler with session := compiler.session.enter name, scopes := .root, compiled := [] }

/-- Notes that a node has been compiled. -/
def finishNode (node : Node) : Attempt (Compiler β) Unit := do
  modify fun compiler => { compiler with compiled := node.id :: compiler.compiled }
  count fun stats => stats.nodeCompiled node.kind.name

variable [Backend β]

/-- Compiles one node of a model.  The first node has no region before it to merge with. -/
def compileNode (model : Model) (node : Node) (isFirst : Bool) : Attempt (Compiler β) Unit := do
  notify .beginNode node.name
  (onBackend (Backend.openRegion node.id)).onBehalfOf node.name
  count Statistics.regionCreated
  (Site.lower ⟨model, node⟩).onBehalfOf node.name
  finishNode node
  if (← get).options.mergeRegions && !isFirst then
    discard (mergeRegion node.id)
  notify .endNode node.name

/-- Compiles nodes of a model in order.  The flag says whether the first of them is the first node
of the model. -/
def compileNodes (model : Model) : List Node → Bool → Attempt (Compiler β) Unit
  | [], _ => pure ()
  | node :: rest, isFirst => do
    compileNode model node isFirst
    compileNodes model rest false

/-- Compiles a model into an open function and ends it. -/
def compileBody (model : Model) (name : String) : Attempt (Compiler β) CompiledFunction := do
  notify .beginModel model.name
  let parameters ← allocateParameters model
  (onBackend (Backend.beginFunction name parameters)).onBehalfOf name
  compileNodes model model.nodes.toList true
  notify .endModel model.name
  (onBackend Backend.endFunction).onBehalfOf name
  return ⟨name, parameters, model.nodes.size⟩

/-- Counts a finished function. -/
def succeed (compiler : Compiler β) (function : CompiledFunction) : Compiler β :=
  { compiler with session := compiler.session.count fun stats =>
      stats.functionCompiled function.name function.nodeCount }

/-- Takes back a compilation that has failed. -/
def abandon (compiler : Compiler β) : Compiler β :=
  { compiler with
    backend := Backend.discardFunction compiler.backend
    session := compiler.session.count Statistics.functionDiscarded
    scopes := .root }

/-- Compiles a model into a function with the given name. -/
def compile (model : Model) (name : String) : Attempt (Compiler β) CompiledFunction :=
  fun compiler =>
    match compileBody model name (compiler.enter name) with
    | .ok function compiler => .ok function (compiler.leave.succeed function)
    | .error error compiler => .error error compiler.leave.abandon

end Compiler
end Dataflow
