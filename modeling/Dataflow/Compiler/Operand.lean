import Dataflow.Compiler.Allocation

/-!
# Operands

A node reads ranges of ports.  Compiling the node turns them into slices of variables, which is
where most malformed graphs are found: a range has to lie inside an existing port, and that port
must have been computed.  An operation on an input port that refers to several ranges needs one
contiguous slice, so they are gathered in a variable for the call.
-/

namespace Dataflow

/-- The place in a model where the compiler works. -/
structure Site where
  /-- The model. -/
  model : Model
  /-- The node that is being compiled. -/
  node : Node

namespace Site

/-- The node is malformed. -/
def malformed {α : Type} (site : Site) (fault : StructuralFault) : Except CompileError α :=
  .error (.structural site.node.name fault)

/-- The node reads a port without a variable. -/
def unbound {α : Type} (site : Site) (port : OutputPort) : Except CompileError α :=
  .error (.unboundReference site.node.name port.id port.name)

/-- The first range of an input port and the others. -/
def inputRanges (site : Site) (index : Nat) : Except CompileError (PortRange × List PortRange) :=
  match site.node.inputs[index]? with
  | none => site.malformed (.missingInput index)
  | some ⟨name, ⟨[]⟩⟩ => site.malformed (.emptyInput name)
  | some ⟨_, ⟨first :: rest⟩⟩ => .ok (first, rest)

/-- The port that a range belongs to. -/
def portOf (site : Site) (range : PortRange) : Except CompileError OutputPort :=
  match site.model.port? range.port with
  | some port => .ok port
  | none => site.malformed (.danglingPort range.port)

/-! ## Types and sizes -/

/-- Refuses the ranges of an input port whose elements have another type than the first one. -/
def checkRangeTypes (site : Site) (index : Nat) (first : ElementType) :
    List PortRange → Except CompileError Unit
  | [] => .ok ()
  | range :: rest => do
    let port ← site.portOf range
    if port.elementType ≠ first then
      site.malformed (.mixedTypes index first port.elementType)
    site.checkRangeTypes index first rest

/-- The element type of an input port, which is that of its first range.  With `strict` all other
ranges have to agree; without it they only have to exist. -/
def inputType (site : Site) (strict : Bool) (index : Nat) : Except CompileError ElementType := do
  let (first, rest) ← site.inputRanges index
  let port ← site.portOf first
  if strict then
    site.checkRangeTypes index port.elementType rest
  else
    rest.forM fun range => discard (site.portOf range)
  return port.elementType

/-- With `strict`, refuses two operands of different element types.  Their types are looked at in
any case. -/
def checkOperandTypes (site : Site) (strict : Bool) : Except CompileError Unit := do
  let lhs ← site.inputType strict 0
  let rhs ← site.inputType strict 1
  if strict ∧ lhs ≠ rhs then site.malformed (.operandTypes lhs rhs)

/-- Refuses a result of another size than that of the node's port. -/
def checkSize (site : Site) (produced : Nat) : Except CompileError Unit :=
  if site.node.size = produced then .ok ()
  else site.malformed (.outputSize site.node.size produced)

/-! ## Slices -/

variable {β : Type}

/-- The slice that a range stands for.  Only the ports of nodes that are finished can be read, and
the node's own port. -/
def resolve (site : Site) (compiler : Compiler β) (range : PortRange) :
    Except CompileError Slice := do
  let port ← site.portOf range
  if range.length = 0 ∨ port.size < range.stop then
    site.malformed (.outOfBounds port.name range.start range.stop port.size)
  if port.node ≠ site.node.id ∧ !compiler.isCompiled port.node then
    site.unbound port
  match compiler.variableOf? range.port with
  | some var => return ⟨var, range.start, range.length⟩
  | none => site.unbound port

/-- The slices that feed an input port. -/
def inputSlices (site : Site) (index : Nat) : Attempt (Compiler β) (List Slice) := do
  let compiler ← get
  MonadExcept.ofExcept do
    let (first, rest) ← site.inputRanges index
    (first :: rest).mapM (site.resolve compiler)

/-- The number of elements in some slices, which has to be a word. -/
def joinedSize (site : Site) (slices : List Slice) : Except CompileError Nat :=
  match Word.sum? (slices.map Slice.length) with
  | some size => .ok size
  | none => site.malformed .overflow

variable [Backend β]

/-- Copies slices one after another into a slice, from an offset on.  Their lengths have been summed
before, so that no offset leaves the word range. -/
def copyConsecutive (dst : Slice) (offset : Nat) : List Slice → Attempt (Compiler β) Unit
  | [] => pure ()
  | src :: rest => do
    Compiler.emit (.copy (dst.sub offset src.length) src)
    copyConsecutive dst (offset + src.length) rest

/-- What feeds an input port, as one slice.  Several ranges are gathered in a new variable. -/
def inputContiguous (site : Site) (index : Nat) : Attempt (Compiler β) Slice := do
  match ← site.inputSlices index with
  | [slice] => return slice
  | slices =>
    let strict := (← get).options.checkElementTypes
    let elementType ← MonadExcept.ofExcept (site.inputType strict index)
    let size ← MonadExcept.ofExcept (site.joinedSize slices)
    let gathered : Slice := ⟨← Compiler.allocateScratch elementType size, 0, size⟩
    copyConsecutive gathered 0 slices
    return gathered

/-- The storage of the node's port, allocated if there is none. -/
def output (site : Site) (initial : Option Float) : Attempt (Compiler β) Slice := do
  let var ← Compiler.getOrAllocatePort site.node.port initial
  return ⟨var, 0, site.node.size⟩

/-- The storage that the node's port has already. -/
def boundOutput (site : Site) : Attempt (Compiler β) Slice := do
  match (← get).variableOf? site.node.port.id with
  | some var => return ⟨var, 0, site.node.size⟩
  | none => MonadExcept.ofExcept (site.unbound site.node.port)

end Site
end Dataflow
