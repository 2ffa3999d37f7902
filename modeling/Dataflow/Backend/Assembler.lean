import Dataflow.Backend.Basic
import Dataflow.Code.Program

/-!
# The assembler

The assembler is a backend that writes programs.  It reserves storage up to a limit, counted in
elements, and takes an instruction only if all its slices lie inside allocated variables, its
lengths fit together and it does not write an input parameter.

After each finished function it notes how far the variables and the storage have grown.  Discarding
a function goes back to that point, so a program contains finished functions and their variables
only.  A refused operation changes nothing.
-/

namespace Dataflow

/-- A function under construction. -/
structure PendingFunction where
  /-- The name of the function. -/
  name : String
  /-- The parameters. -/
  parameters : List Parameter
  /-- The variables that stand for the parameters. -/
  vars : List VarId
  /-- The regions that hold the instructions. -/
  regions : RegionTable
deriving DecidableEq, Repr

/-- How far an assembler has got with its storage. -/
structure Extent where
  /-- The number of variables. -/
  vars : Nat
  /-- The number of allocated elements. -/
  elements : Nat
deriving DecidableEq, Repr

/-- A program under construction. -/
structure Assembler where
  /-- The program. -/
  program : Program
  /-- Which regions are merged. -/
  policy : MergePolicy
  /-- The number of elements that may be allocated. -/
  limit : Nat
  /-- The number of elements that are allocated. -/
  used : Nat
  /-- The extent after the latest finished function. -/
  committed : Extent
  /-- The open function. -/
  pending : Option PendingFunction
deriving DecidableEq, Repr

/-- A function with the instructions of its regions, one region after another. -/
def PendingFunction.finish (pending : PendingFunction) : Function :=
  ⟨pending.name, pending.parameters, pending.vars, pending.regions.assemble⟩

namespace Assembler

/-- The number of elements that may be allocated if nothing else is said, two to the power of 26. -/
def defaultLimit : Nat := 67108864

/-- An assembler for an empty program. -/
def fresh (name : String) (policy : MergePolicy) (limit : Nat) : Assembler :=
  { program := .empty name, policy, limit, used := 0, committed := ⟨0, 0⟩, pending := none }

/-- The variables. -/
def vars (assembler : Assembler) : VariableTable := assembler.program.vars

/-- The assembler with other variables. -/
def withVars (assembler : Assembler) (vars : VariableTable) : Assembler :=
  { assembler with program := { assembler.program with vars } }

/-- The regions of the open function. -/
def regions? (assembler : Assembler) : Option RegionTable :=
  assembler.pending.map PendingFunction.regions

/-- The assembler with other regions in the open function. -/
def withRegions (assembler : Assembler) (regions : RegionTable) : Assembler :=
  { assembler with pending := assembler.pending.map fun pending => { pending with regions } }

/-! ## Storage -/

/-- Adds a variable, for which no storage is reserved yet. -/
def declare (assembler : Assembler) (spec : VariableSpec) : Assembler :=
  assembler.withVars (assembler.vars.declare spec)

/-- Cuts the variables back. -/
def truncate (assembler : Assembler) (count : Nat) : Assembler :=
  assembler.withVars (assembler.vars.truncate count)

/-- Reserves storage for a variable. -/
def allocate (assembler : Assembler) (id : VarId) : Except BackendFault Assembler := do
  let some var := assembler.vars.get? id | throw (.unknownVariable id)
  if var.allocated then throw (.allocatedTwice var.name)
  let used := assembler.used + var.size
  if assembler.limit < used then
    throw (.storageExhausted assembler.limit var.name var.size)
  return { assembler.withVars (assembler.vars.setAllocated id true) with used }

/-! ## Functions -/

/-- The variable that was declared for a parameter since the latest finished function. -/
def variableFor (assembler : Assembler) (parameter : Parameter) : Except BackendFault VarId :=
  let declared := assembler.vars.toList.drop assembler.committed.vars
  match declared.find? fun var =>
      var.storage = parameter.storage ∧ var.name = parameter.name with
  | some var => .ok var.id
  | none => .error (.undeclaredParameter parameter.name)

/-- Begins a function. -/
def beginFunction (assembler : Assembler) (name : String) (parameters : List Parameter) :
    Except BackendFault Assembler := do
  if let some pending := assembler.pending then throw (.functionOpen pending.name)
  if (assembler.program.function? name).isSome then
    throw (.functionExists name assembler.program.name)
  let vars ← parameters.mapM assembler.variableFor
  return { assembler with
    pending := some { name, parameters, vars, regions := .empty assembler.policy } }

/-- Finishes the open function. -/
def endFunction (assembler : Assembler) : Except BackendFault Assembler := do
  let some pending := assembler.pending | throw .noFunction
  let program := assembler.program
  return { assembler with
    program := { program with functions := program.functions ++ [pending.finish] }
    committed := ⟨assembler.vars.size, assembler.used⟩
    pending := none }

/-- Drops the open function, and all variables since the latest finished one. -/
def discardFunction (assembler : Assembler) : Assembler :=
  { assembler.truncate assembler.committed.vars with
    used := assembler.committed.elements
    pending := none }

/-! ## Instructions -/

/-- Refuses a slice that does not lie inside an allocated variable, or that is to be written and
belongs to an input parameter. -/
def checkSlice (assembler : Assembler) (slice : Slice) (written : Bool) :
    Except BackendFault Unit := do
  let some var := assembler.vars.get? slice.var | throw (.unknownVariable slice.var)
  if !var.allocated then throw (.unallocated var.name)
  let some stop := slice.stop? | throw .overflow
  if slice.length = 0 ∨ var.size < stop then
    throw (.sliceOutOfBounds slice var.name var.size)
  if written ∧ var.storage = .input then throw (.inputWritten var.name)

/-- Refuses an instruction on improper slices. -/
def checkInstruction (assembler : Assembler) (instruction : Instruction) :
    Except BackendFault Unit := do
  assembler.checkSlice instruction.dst true
  instruction.sources.forM fun slice => assembler.checkSlice slice false
  if !instruction.lengthsFit then throw (.lengthMismatch instruction)

/-- Appends an instruction to the latest region. -/
def emit (assembler : Assembler) (instruction : Instruction) : Except BackendFault Assembler := do
  assembler.checkInstruction instruction
  let some regions := assembler.regions? | throw .noFunction
  let some regions := regions.emit? instruction | throw .noRegion
  return assembler.withRegions regions

/-! ## Regions -/

/-- Opens the region of a node. -/
def openRegion (assembler : Assembler) (node : NodeId) : Except BackendFault Assembler := do
  let some regions := assembler.regions? | throw .noFunction
  let some regions := regions.create? node | throw (.regionExists node)
  return assembler.withRegions regions

/-- Folds the region of a node into the region before it, if that is acceptable. -/
def mergeRegion? (assembler : Assembler) (node : NodeId) : Option Assembler := do
  let regions ← assembler.regions?
  let source ← regions.regionOf? node
  let regions ← regions.mergeWithPredecessor? source
  return assembler.withRegions regions

/-- Folds the region of a source node into that of a target node, if that is acceptable. -/
def mergeRegions? (assembler : Assembler) (target source : NodeId) : Option Assembler := do
  let regions ← assembler.regions?
  let target ← regions.regionOf? target
  let source ← regions.regionOf? source
  let regions ← regions.mergeWithTarget? target source
  return assembler.withRegions regions

/-- The answer to a request that may be refused. -/
def accept (assembler : Assembler) : Option Assembler → Bool × Assembler
  | some next => (true, next)
  | none => (false, assembler)

@[simp] theorem vars_declare (assembler : Assembler) (spec : VariableSpec) :
    (assembler.declare spec).vars = assembler.vars.declare spec := rfl

@[simp] theorem vars_withRegions (assembler : Assembler) (regions : RegionTable) :
    (assembler.withRegions regions).vars = assembler.vars := rfl

@[simp] theorem vars_discardFunction (assembler : Assembler) :
    assembler.discardFunction.vars = assembler.vars.truncate assembler.committed.vars := rfl

instance : Backend Assembler where
  vars := vars
  declare spec assembler := assembler.declare spec
  allocate id := .change fun assembler => assembler.allocate id
  beginFunction name parameters := .change fun assembler => assembler.beginFunction name parameters
  endFunction := .change endFunction
  discardFunction := discardFunction
  openRegion node := .change fun assembler => assembler.openRegion node
  emit instruction := .change fun assembler => assembler.emit instruction
  mergeRegion node assembler := assembler.accept (assembler.mergeRegion? node)
  mergeRegions target source assembler := assembler.accept (assembler.mergeRegions? target source)

end Assembler
end Dataflow
