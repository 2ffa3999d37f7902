import Dataflow.Model.Shape

/-!
# Building models

A model under construction grows by one node at a time.  A node may only refer to ports that exist,
so every range points backward, and the element type and the size of its port follow from what it
refers to.  A step that fails leaves the model as it was.
-/

namespace Dataflow
namespace Model

/-- The elements of all of a port.  A port that does not exist gives an empty range, which no node
accepts. -/
def wholePort (model : Model) (port : PortId) : PortElements :=
  .ofRange ⟨port, 0, ((model.port? port).map OutputPort.size).getD 0⟩

/-- Refuses a name that a node of the model has. -/
def checkName (model : Model) (name : String) : Except ModelError Unit :=
  if (model.findNode? name).isSome then .error (.duplicateName name) else .ok ()

/-- Refuses a range that is empty or does not lie inside an existing port. -/
def checkRange (model : Model) (range : PortRange) : Except ModelError Unit :=
  match model.port? range.port with
  | none => .error (.unknownPort range.port)
  | some port =>
    if range.length = 0 ∨ port.size < range.stop then
      .error (.rangeOutOfBounds port.name range.start range.stop port.size)
    else .ok ()

/-- The element type of the first of some ranges. -/
def leadingType (model : Model) (ranges : List PortRange) : ElementType :=
  ((ranges.head?.bind fun range => model.port? range.port).map OutputPort.elementType).getD .real

/-- Appends an input node. -/
def addInput (model : Model) (name : String) (elementType : ElementType) (size : Nat) :
    Except ModelError Model := do
  model.checkName name
  if size = 0 then throw (.shape name .emptyInput)
  if maxPortSize < size then throw (.shape name (.oversizedInput size))
  return model.push name .input [] elementType size

/-- Appends a constant. -/
def addConstant (model : Model) (name : String) (elementType : ElementType)
    (values : List Float) : Except ModelError Model := do
  model.checkName name
  if values.isEmpty then throw (.shape name .emptyConstant)
  return model.push name (.constant values) [] elementType values.length

/-- Appends a computing node.  Its element type is that of the first range it refers to. -/
def addNode (model : Model) (name : String) (kind : NodeKind) (inputs : List PortElements) :
    Except ModelError Model := do
  model.checkName name
  let names := kind.inputNames
  if names.length ≠ inputs.length then
    throw (.shape name (.inputCount kind.name names.length inputs.length))
  let ranges := inputs.flatMap PortElements.ranges
  ranges.forM model.checkRange
  let some sizes := inputs.mapM PortElements.size? | throw (.shape name .overflow)
  let size ← (kind.inferSize sizes).mapError (.shape name)
  return model.push name kind (List.zipWith InputPort.mk names inputs)
    (model.leadingType ranges) size

/-- Appends an output node. -/
def addOutput (model : Model) (name : String) (elements : PortElements) :
    Except ModelError Model :=
  model.addNode name .output [elements]

end Model
end Dataflow
