import Dataflow.Code.Region
import Dataflow.Compiler.Attempt
import Dataflow.Storage.Table

/-!
# Backends

A backend is what the compiler writes code with.  It owns the variables and their storage, collects
the instructions of one function at a time in regions, one for each node, and adds finished
functions to its program.  For a function the compiler asks it to

* allocate the parameters and begin the function;
* open a region for each node in turn, allocate what the node needs, take the node's instructions,
  and merge the region with the one before it;
* end the function, or discard it if anything has failed.

A request to merge regions may always be refused.  Both regions then stay as they are, so refusing
changes where instructions are kept but not their order.
-/

namespace Dataflow

/-- A point in the course of a compilation. -/
inductive Milestone where
  /-- The compilation of a model begins. -/
  | beginModel
  /-- All nodes of a model have been compiled. -/
  | endModel
  /-- The compilation of a node begins. -/
  | beginNode
  /-- A node has been compiled. -/
  | endNode
deriving DecidableEq, Repr

/-- The name of a milestone in logs. -/
def Milestone.name : Milestone → String
  | beginModel => "begin_model"
  | endModel => "end_model"
  | beginNode => "begin_node"
  | endNode => "end_node"

/-- The news that a compilation has reached a milestone. -/
structure Notice where
  /-- The milestone. -/
  milestone : Milestone
  /-- The name of the model or node. -/
  subject : String
  /-- The name of the function that is being compiled. -/
  function : String
deriving DecidableEq, Repr

/-- A notice as it is logged. -/
def Notice.text (notice : Notice) : String :=
  s!"{notice.milestone.name} {notice.subject} in {notice.function}"

/-- A type of backends. -/
class Backend (β : Type) where
  /-- The variables. -/
  vars : β → VariableTable
  /-- Adds a variable, for which no storage is reserved yet. -/
  declare : VariableSpec → β → β
  /-- Reserves storage for a variable. -/
  allocate : VarId → Attempt β Unit
  /-- Begins a function with the given name and parameters. -/
  beginFunction : String → List Parameter → Attempt β Unit
  /-- Finishes the open function and adds it to the program. -/
  endFunction : Attempt β Unit
  /-- Drops the open function and all variables since the last finished one. -/
  discardFunction : β → β
  /-- Opens the region of a node, to which the next instructions go. -/
  openRegion : NodeId → Attempt β Unit
  /-- Appends an instruction. -/
  emit : Instruction → Attempt β Unit
  /-- Folds the region of a node into the region before it, or refuses. -/
  mergeRegion : NodeId → β → Bool × β
  /-- Folds the region of the second node into that of the first, or refuses. -/
  mergeRegions : NodeId → NodeId → β → Bool × β
  /-- Hears of a milestone. -/
  notify : Notice → β → β := fun _ backend => backend

end Dataflow
