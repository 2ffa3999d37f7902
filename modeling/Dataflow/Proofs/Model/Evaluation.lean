import Mathlib
import Dataflow.Model.Builder

/-!
# Evaluating models

What a model computes, without variables, instructions or memory: the nodes are evaluated in
declared order, each from the rows of the ports before it, and what is computed for a port is
coerced to its element type (`Model.evaluate`).  A running sum goes on from the row that its port
had in the evaluation before (`Model.respond`).

An operand may be fed by several ranges.  Their elements are put together by a *gathering*.  Which
one is used is left open here: `concatenated` takes the elements as they are, and `Model.gathered`
is what compiled models do, which keep several ranges in storage of the first one's element type.
-/

namespace Dataflow

/-- The rows of the ports that have been computed so far, at the positions of their numbers. -/
abbrev Values := List (List Float)

/-- A way to put together the elements of the ranges that feed an operand. -/
abbrev Gathering := Values → List PortRange → List Float

/-- The ranges of one of a node's input ports, none if there is no such port. -/
def Node.operand (node : Node) (index : ℕ) : List PortRange :=
  (node.inputs[index]?.map fun input => input.elements.ranges).getD []

lemma Node.mem_ranges {node : Node} {index : ℕ} {range : PortRange}
    (h : range ∈ node.operand index) : range ∈ node.ranges := by
  rw [operand] at h
  cases hinput : node.inputs[index]? with
  | none =>
    rw [hinput] at h
    cases h
  | some input =>
    rw [hinput] at h
    exact List.mem_flatMap.mpr ⟨input, List.mem_of_getElem? hinput, h⟩

/-- The elements that a range covers. -/
def PortRange.elements (values : Values) (range : PortRange) : List Float :=
  ((values[range.port.index]?.getD []).drop range.start).take range.length

/-- The elements of some ranges, one range after another. -/
def concatenated : Gathering := fun values ranges => ranges.flatMap (PortRange.elements values)

/-- The elements of some ranges.  If it takes several of them, they get the element type of the
first one. -/
def Model.gathered (model : Model) : Gathering := fun values ranges =>
  match ranges with
  | [range] => range.elements values
  | ranges => (concatenated values ranges).map (model.leadingType ranges).coerce

lemma Model.gathered_singleton (model : Model) (values : Values) (range : PortRange) :
    model.gathered values [range] = range.elements values := rfl

lemma Model.gathered_of_length_ne (model : Model) (values : Values) {ranges : List PortRange}
    (h : ranges.length ≠ 1) : model.gathered values ranges =
      (concatenated values ranges).map (model.leadingType ranges).coerce := by
  match ranges, h with
  | [], _ => rfl
  | _ :: _ :: _, _ => rfl

/-- An operator applied element by element, where a single value is repeated. -/
def pointwise (op : Float → Float → Float) : List Float → List Float → List Float
  | [lhs], rhs => rhs.map fun value => op lhs value
  | lhs, [rhs] => lhs.map fun value => op value rhs
  | lhs, rhs => List.zipWith op lhs rhs

/-- The products of two rows, summed from left to right. -/
def dotProduct (lhs rhs : List Float) : Float :=
  (lhs.zip rhs).foldl (fun sum pair => sum + pair.1 * pair.2) (-0.0)

/-- The row for a port, given one row for each of some ports in order. -/
def rowFor (ports : List OutputPort) (rows : List (List Float)) (port : PortId) : List Float :=
  (((ports.map OutputPort.id).zip rows).lookup port).getD []

lemma rowFor_cons_self (port : OutputPort) (ports : List OutputPort) (row : List Float)
    (rows : List (List Float)) : rowFor (port :: ports) (row :: rows) port.id = row := by
  rw [rowFor, List.map_cons, List.zip_cons_cons, List.lookup_cons_self, Option.getD_some]

lemma rowFor_cons_of_ne {port : OutputPort} {other : PortId} (h : other ≠ port.id)
    (ports : List OutputPort) (row : List Float) (rows : List (List Float)) :
    rowFor (port :: ports) (row :: rows) other = rowFor ports rows other := by
  rw [rowFor, List.map_cons, List.zip_cons_cons, List.lookup_cons, beq_false_of_ne h]
  rfl

/-- The row of a node's port.  It depends on the rows of the ports before it, on the row that the
port had in the last evaluation, and for an input on the values that are supplied. -/
def Node.row (gathering : Gathering) (values : Values) (previous supplied : List Float)
    (node : Node) : List Float :=
  let coerce := node.elementType.coerce
  let operand := fun index => gathering values (node.operand index)
  match node.kind with
  | .input => supplied.map coerce
  | .constant row => row.map coerce
  | .output => (concatenated values (node.operand 0)).map coerce
  | .concat => (concatenated values (node.operand 0)).map coerce
  | .unary op => (operand 0).map fun value => coerce (op.apply value)
  | .binary op => (pointwise op.apply (operand 0) (operand 1)).map coerce
  | .dot => [coerce (dotProduct (operand 0) (operand 1))]
  | .reduce op => [(node.operand 0).foldl
      (fun total range => coerce ((range.elements values).foldl op.combine total))
      (coerce op.identity)]
  | .accumulator => (List.zipWith (· + ·) previous (operand 0)).map coerce

namespace Model

/-- The row of a node's port, given what the whole model starts from. -/
def rowOf (model : Model) (gathering : Gathering) (previous : Values) (inputs : List (List Float))
    (values : Values) (node : Node) : List Float :=
  node.row gathering values (previous[node.port.id.index]?.getD [])
    (rowFor model.inputPorts inputs node.port.id)

/-- The rows that have been computed and those of further nodes, each from the rows before it. -/
def extend (model : Model) (gathering : Gathering) (previous : Values)
    (inputs : List (List Float)) : Values → List Node → Values
  | values, [] => values
  | values, node :: rest => model.extend gathering previous inputs
      (values ++ [model.rowOf gathering previous inputs values node]) rest

/-- The rows of all ports.  They depend on the rows of the last evaluation and on the inputs. -/
def evaluate (model : Model) (gathering : Gathering) (previous : Values)
    (inputs : List (List Float)) : Values :=
  model.extend gathering previous inputs [] model.nodes.toList

/-- The rows before the first evaluation: every port holds zeros. -/
def zeros (model : Model) : Values :=
  model.nodes.toList.map fun node => List.replicate node.size (node.elementType.coerce 0)

/-- The rows of the model's outputs. -/
def outputRows (model : Model) (values : Values) : List (List Float) :=
  model.outputPorts.map fun port => values[port.id.index]?.getD []

/-- Evaluates a model and answers with the rows of its outputs. -/
def respond (model : Model) (gathering : Gathering) (previous : Values)
    (inputs : List (List Float)) : List (List Float) × Values :=
  let values := model.evaluate gathering previous inputs
  (model.outputRows values, values)

/-- There is one row for every input, of the input's size. -/
def Accepts (model : Model) (inputs : List (List Float)) : Prop :=
  inputs.map List.length = model.inputPorts.map OutputPort.size

/-- Every range names a port that is declared strictly earlier. -/
def Backward (model : Model) : Prop :=
  ∀ (i : ℕ) (node : Node), model.nodes[i]? = some node →
    ∀ range ∈ node.ranges, range.port.index < i

instance {model : Model} {inputs : List (List Float)} : Decidable (model.Accepts inputs) :=
  inferInstanceAs (Decidable (_ = _))

lemma backward_iff {model : Model} : model.Backward ↔ ∀ entry ∈ model.nodes.toList.zipIdx,
    ∀ range ∈ entry.1.ranges, range.port.index < entry.2 := by
  simp only [Backward, Prod.forall, List.mem_zipIdx_iff_getElem?, Array.getElem?_toList]
  exact forall_comm

instance {model : Model} : Decidable model.Backward := decidable_of_iff' _ backward_iff

variable (model : Model) (gathering : Gathering) (previous : Values) (inputs : List (List Float))

lemma isPrefix_extend (values : Values) (nodes : List Node) :
    values <+: model.extend gathering previous inputs values nodes := by
  induction nodes generalizing values with
  | nil => exact List.prefix_refl values
  | cons node rest ih => exact (List.prefix_append values _).trans (ih _)

lemma getElem?_extend (values : Values) {nodes : List Node} {i : ℕ} {node : Node}
    (h : nodes[i]? = some node) :
    (model.extend gathering previous inputs values nodes)[values.length + i]? =
      some (model.rowOf gathering previous inputs
        ((model.extend gathering previous inputs values nodes).take (values.length + i)) node) := by
  induction nodes generalizing values i with
  | nil => cases h
  | cons first rest ih =>
    cases i with
    | zero =>
      obtain rfl : first = node := Option.some.inj h
      -- what is computed next stays in its place
      obtain ⟨later, hlater⟩ := model.isPrefix_extend gathering previous inputs
        (values ++ [model.rowOf gathering previous inputs values first]) rest
      rw [extend, ← hlater]
      simp
    | succ i =>
      have hrest := ih (values ++ [model.rowOf gathering previous inputs values first]) h
      rw [List.length_append, List.length_singleton, Nat.add_right_comm] at hrest
      exact hrest

/-- The row of every node is computed from the rows before it. -/
lemma getElem?_evaluate {i : ℕ} {node : Node} (h : model.nodes[i]? = some node) :
    (model.evaluate gathering previous inputs)[i]? = some (model.rowOf gathering previous inputs
      ((model.evaluate gathering previous inputs).take i) node) := by
  have hrow := model.getElem?_extend gathering previous inputs []
    ((Array.getElem?_toList ..).trans h)
  rwa [List.length_nil, Nat.zero_add] at hrow

end Model
end Dataflow
