import Dataflow.ElementType
import Dataflow.Operator
import Dataflow.Word

/-!
# Dataflow models

A model is a list of nodes in declared order.  A node computes the elements of one output port from
ranges of other ports, gathered in its input ports.  Nodes and ports are numbered in the order of
their declaration, so a node and its port have the same number.

The order is the order of execution.  Whether every range names a port that is computed earlier and
lies inside it is not a matter of this type: a model read from a text may refer forward, and the
compiler reports it.
-/

namespace Dataflow

/-- The largest number of elements that a port may declare, two to the power of 24. -/
def maxPortSize : Nat := 16777216

/-- The number of a node. -/
structure NodeId where
  /-- The position in declared order. -/
  index : Nat
deriving DecidableEq, Repr

/-- The number of a port. -/
structure PortId where
  /-- The position in declared order. -/
  index : Nat
deriving DecidableEq, Repr

/-- A node number as it is shown. -/
def NodeId.text (id : NodeId) : String := "n" ++ toString id.index

/-- A port number as it is shown. -/
def PortId.text (id : PortId) : String := "p" ++ toString id.index

/-- What a node computes. -/
inductive NodeKind where
  /-- A model input, supplied by the caller. -/
  | input
  /-- A model output, handed to the caller. -/
  | output
  /-- Fixed values. -/
  | constant (values : List Float)
  /-- An operator applied element by element to two operands. -/
  | binary (op : BinaryOp)
  /-- An operator applied element by element. -/
  | unary (op : UnaryOp)
  /-- A reduction of all elements to one. -/
  | reduce (op : ReduceOp)
  /-- The sum of the products of two operands. -/
  | dot
  /-- The elements one after another. -/
  | concat
  /-- A running sum that goes on from call to call. -/
  | accumulator
deriving BEq, DecidableEq, Repr

namespace NodeKind

/-- The name of a kind in model texts, listings and statistics. -/
def name : NodeKind → String
  | input => "input"
  | output => "output"
  | constant _ => "const"
  | binary op => op.name
  | unary op => op.name
  | reduce op => op.name
  | dot => "dot"
  | concat => "concat"
  | accumulator => "accumulate"

/-- The kinds that a node statement names by an operator.  Inputs, outputs and constants have
statements of their own. -/
def operators : List NodeKind :=
  BinaryOp.all.map binary ++ UnaryOp.all.map unary ++ ReduceOp.all.map reduce ++
    [dot, concat, accumulator]

/-- The kind that an operator name stands for. -/
def ofOperator? (operator : String) : Option NodeKind :=
  operators.find? fun kind => kind.name = operator

/-- The names of the input ports of a node of the kind. -/
def inputNames : NodeKind → List String
  | input => []
  | constant _ => []
  | binary _ => ["lhs", "rhs"]
  | dot => ["lhs", "rhs"]
  | _ => ["input"]

end NodeKind

/-- The output endpoint of a node. -/
structure OutputPort where
  /-- The number of the port. -/
  id : PortId
  /-- The node that computes the port. -/
  node : NodeId
  /-- The name of that node. -/
  name : String
  /-- The type of the elements. -/
  elementType : ElementType
  /-- The number of elements. -/
  size : Nat
deriving DecidableEq, Repr

/-- A contiguous range of the elements of a port. -/
structure PortRange where
  /-- The port. -/
  port : PortId
  /-- The first element. -/
  start : Nat
  /-- The number of elements. -/
  length : Nat
deriving DecidableEq, Repr

namespace PortRange

/-- The range that covers all of a port. -/
def whole (port : OutputPort) : PortRange := ⟨port.id, 0, port.size⟩

/-- One past the last element.  It stops at the largest word, so that a range that reaches beyond
the word range fails the bounds check instead of coming round to a small number. -/
def stop (range : PortRange) : Nat := Word.addSaturating range.start range.length

end PortRange

/-- The ranges that feed one input port, in order. -/
structure PortElements where
  /-- The ranges. -/
  ranges : List PortRange
deriving DecidableEq, Repr

namespace PortElements

/-- No range. -/
def empty : PortElements := ⟨[]⟩

/-- A single range. -/
def ofRange (range : PortRange) : PortElements := ⟨[range]⟩

/-- The number of elements in all ranges. -/
def size (elements : PortElements) : Nat := Word.total (elements.ranges.map PortRange.length)

/-- The number of elements in all ranges as a word, unless it is no word. -/
def size? (elements : PortElements) : Option Nat :=
  Word.sum? (elements.ranges.map PortRange.length)

theorem size?_eq (elements : PortElements) : elements.size? = Word.ofNat? elements.size :=
  Word.sum?_eq _

/-- One range more, at the end. -/
def push (elements : PortElements) (range : PortRange) : PortElements :=
  ⟨elements.ranges ++ [range]⟩

/-- The ranges of `elements`, then those of `others`. -/
def append (elements others : PortElements) : PortElements :=
  ⟨elements.ranges ++ others.ranges⟩

end PortElements

/-- An input port: it has no storage and refers to ranges of output ports. -/
structure InputPort where
  /-- The name of the port. -/
  name : String
  /-- What feeds it. -/
  elements : PortElements
deriving DecidableEq, Repr

/-- A node. -/
structure Node where
  /-- The number of the node. -/
  id : NodeId
  /-- The name of the node. -/
  name : String
  /-- What the node computes. -/
  kind : NodeKind
  /-- The input ports. -/
  inputs : List InputPort
  /-- The element type of the output port. -/
  elementType : ElementType
  /-- The number of elements of the output port. -/
  size : Nat
deriving BEq, DecidableEq, Repr

namespace Node

/-- The output port of a node.  It has the node's number and name. -/
def port (node : Node) : OutputPort :=
  { id := ⟨node.id.index⟩, node := node.id, name := node.name,
    elementType := node.elementType, size := node.size }

/-- All ranges that feed a node, input port by input port. -/
def ranges (node : Node) : List PortRange :=
  node.inputs.flatMap fun input => input.elements.ranges

end Node

/-- A dataflow model.  Comparing two models with `==` compares constants as numbers: the two zeros
are equal, and a constant that is no number differs from itself. -/
structure Model where
  /-- The name of the model. -/
  name : String
  /-- The nodes in declared order. -/
  nodes : Array Node
deriving BEq, DecidableEq, Repr

namespace Model

/-- The model without nodes. -/
def empty (name : String) : Model := ⟨name, #[]⟩

/-- The node with a given number. -/
def node? (model : Model) (id : NodeId) : Option Node := model.nodes[id.index]?

/-- The port with a given number. -/
def port? (model : Model) (id : PortId) : Option OutputPort :=
  (model.nodes[id.index]?).map Node.port

/-- The first node with a given name. -/
def findNode? (model : Model) (name : String) : Option Node :=
  model.nodes.toList.find? fun node => node.name = name

/-- The output ports of the input nodes, in declaration order. -/
def inputPorts (model : Model) : List OutputPort :=
  (model.nodes.toList.filter fun node => node.kind matches .input).map Node.port

/-- The output ports of the output nodes, in declaration order. -/
def outputPorts (model : Model) : List OutputPort :=
  (model.nodes.toList.filter fun node => node.kind matches .output).map Node.port

/-- The distinct nodes that compute what a node consumes, in the order of first use. -/
def producers (model : Model) (node : Node) : List NodeId :=
  ((node.ranges.filterMap fun range => model.port? range.port).map OutputPort.node).eraseDups

/-- The number that the next node will have. -/
def nextNode (model : Model) : NodeId := ⟨model.nodes.size⟩

/-- The number that the next port will have. -/
def nextPort (model : Model) : PortId := ⟨model.nodes.size⟩

/-- The model with one node more at the end, which gets the next number. -/
def push (model : Model) (name : String) (kind : NodeKind) (inputs : List InputPort)
    (elementType : ElementType) (size : Nat) : Model :=
  { model with nodes :=
      model.nodes.push { id := model.nextNode, name, kind, inputs, elementType, size } }

@[simp] theorem nodes_push (model : Model) (name : String) (kind : NodeKind)
    (inputs : List InputPort) (elementType : ElementType) (size : Nat) :
    (model.push name kind inputs elementType size).nodes =
      model.nodes.push { id := model.nextNode, name, kind, inputs, elementType, size } := rfl

end Model
end Dataflow
