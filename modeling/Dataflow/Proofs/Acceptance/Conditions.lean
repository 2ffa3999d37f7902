import Dataflow.Proofs.Model.Evaluation
import Dataflow.Proofs.Model.Readable

/-!
# What a model needs to be compiled

A model that has been read from a text may refer to any node, at any index, and may claim any size.
The compiler accepts it if four things are right (`Model.Acceptable`): every range ends within its
port and belongs to an earlier node, shapes fit, element types agree where that is asked for, and
the storage suffices.  All of this is said about the model alone, in plain numbers.
-/

namespace Dataflow

/-- The number of elements of ranges that are put one after another. -/
def totalLength (ranges : List PortRange) : ℕ := (ranges.map PortRange.length).sum

/-- The length of an element-wise result, where an operand of length one is repeated. -/
def Broadcasts (lhs rhs size : ℕ) : Prop :=
  lhs = rhs ∧ size = lhs ∨ lhs = 1 ∧ size = rhs ∨ rhs = 1 ∧ size = lhs

namespace Node

/-- The node may read the port, as far as order is concerned: the port belongs to an earlier node,
or the node is an output and the port is its own. -/
def MayRead (node : Node) (port : PortId) : Prop :=
  port.index < node.id.index ∨ node.kind = .output ∧ port = node.port.id

/-- The size of the node's port follows from what feeds the node. -/
def ShapeFits (node : Node) : Prop :=
  match node.kind with
  | .input => True
  | .constant values => values.length = node.size
  | .unary _ | .accumulator | .output | .concat => totalLength node.ranges = node.size
  | .reduce _ => node.size = 1
  | .dot => node.size = 1 ∧ totalLength (node.operand 0) = totalLength (node.operand 1)
  | .binary _ => Broadcasts (totalLength (node.operand 0)) (totalLength (node.operand 1)) node.size

/-- The number of elements that are gathered for the node: those of all ranges, if an element-wise
operation has several of them. -/
def gatherSize (node : Node) : ℕ :=
  match node.kind with
  | .unary _ | .accumulator => if 2 ≤ node.ranges.length then totalLength node.ranges else 0
  | _ => 0

end Node

namespace Model

/-- The range ends within its port. -/
def Covers (model : Model) (range : PortRange) : Prop :=
  ∃ port ∈ model.port? range.port, range.start + range.length ≤ port.size

/-- The element type of the port that a range belongs to. -/
def typeOf? (model : Model) (range : PortRange) : Option ElementType :=
  (model.port? range.port).map OutputPort.elementType

/-- The ranges belong to ports of one element type. -/
def OneType (model : Model) (ranges : List PortRange) : Prop :=
  ∀ range ∈ ranges, ∀ other ∈ ranges, model.typeOf? range = model.typeOf? other

/-- All ranges of one input of the node have the same element type, and so do two operands. -/
def TypesFit (model : Model) (node : Node) : Prop :=
  (∀ input ∈ node.inputs, model.OneType input.elements.ranges) ∧
    match node.kind with
    | .binary _ | .dot => model.OneType (node.operand 0 ++ node.operand 1)
    | _ => True

/-- A node that can be compiled if all nodes before it are and there is storage. -/
structure Fits (model : Model) (strict : Bool) (node : Node) : Prop where
  covered : ∀ range ∈ node.ranges, model.Covers range
  ordered : ∀ range ∈ node.ranges, node.MayRead range.port
  shape : node.ShapeFits
  types : strict = true → model.TypesFit node

/-- The number of elements that the variables of a compiled model have: those of its ports, and
those that gather ranges. -/
def storage (model : Model) : ℕ :=
  (model.nodes.toList.map Node.size).sum + (model.nodes.toList.map Node.gatherSize).sum

/-- A model that can be compiled within a limit of elements.  The flag says whether element types
have to agree. -/
structure Acceptable (model : Model) (strict : Bool) (limit : ℕ) : Prop where
  fits : ∀ node ∈ model.nodes.toList, model.Fits strict node
  storage : model.storage ≤ limit

variable {model : Model} {strict : Bool} {limit : ℕ} {node : Node} {range : PortRange}

/-! ## Deciding -/

instance {lhs rhs size : ℕ} : Decidable (Broadcasts lhs rhs size) :=
  inferInstanceAs (Decidable (_ ∨ _))

instance {port : PortId} : Decidable (node.MayRead port) := inferInstanceAs (Decidable (_ ∨ _))

instance : Decidable node.ShapeFits := by
  unfold Node.ShapeFits
  exact match node.kind with
    | .input => inferInstanceAs (Decidable True)
    | .constant values => inferInstanceAs (Decidable (values.length = node.size))
    | .unary _ | .accumulator | .output | .concat =>
      inferInstanceAs (Decidable (totalLength node.ranges = node.size))
    | .reduce _ => inferInstanceAs (Decidable (node.size = 1))
    | .dot => inferInstanceAs (Decidable (_ ∧ _))
    | .binary _ => inferInstanceAs (Decidable (Broadcasts _ _ _))

instance : Decidable (model.Covers range) :=
  inferInstanceAs (Decidable (∃ port ∈ model.port? range.port,
    range.start + range.length ≤ port.size))

instance {ranges : List PortRange} : Decidable (model.OneType ranges) :=
  inferInstanceAs (Decidable (∀ range ∈ ranges, ∀ other ∈ ranges, _ = _))

instance : Decidable (model.TypesFit node) := by
  unfold Model.TypesFit
  exact match node.kind with
    | .binary _ | .dot => inferInstanceAs (Decidable (_ ∧ model.OneType _))
    | .input | .output | .constant _ | .unary _ | .reduce _ | .concat | .accumulator =>
      inferInstanceAs (Decidable (_ ∧ True))

instance : Decidable (model.Fits strict node) :=
  decidable_of_iff ((∀ range ∈ node.ranges, model.Covers range) ∧
      (∀ range ∈ node.ranges, node.MayRead range.port) ∧ node.ShapeFits ∧
      (strict = true → model.TypesFit node))
    ⟨fun ⟨hcovered, hordered, hshape, htypes⟩ => ⟨hcovered, hordered, hshape, htypes⟩,
      fun ⟨hcovered, hordered, hshape, htypes⟩ => ⟨hcovered, hordered, hshape, htypes⟩⟩

instance : Decidable (model.Acceptable strict limit) :=
  decidable_of_iff ((∀ node ∈ model.nodes.toList, model.Fits strict node) ∧
      model.storage ≤ limit)
    ⟨fun ⟨hfits, hstorage⟩ => ⟨hfits, hstorage⟩, fun ⟨hfits, hstorage⟩ => ⟨hfits, hstorage⟩⟩

end Model

end Dataflow
