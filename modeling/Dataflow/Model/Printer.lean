import Dataflow.Model.Basic
import Dataflow.Number.Decimal

/-!
# Model texts

A model is written as one statement a line: first its name, then its nodes in declared order.  A
reference to a range is written as the name of the port alone if the range covers the port, with an
index if it is a single element, and with both ends otherwise.
-/

namespace Dataflow
namespace Model

/-- A reference to a range as it is written in a model text. -/
def rangeText (model : Model) (range : PortRange) : String :=
  match model.port? range.port with
  | none => range.port.text
  | some port =>
    if range.start = 0 ∧ range.length = port.size then port.name
    else if range.length = 1 then s!"{port.name}[{range.start}]"
    else s!"{port.name}[{range.start}..{range.stop}]"

/-- The references of a node as they are written after its operation. -/
def referencesText (model : Model) (node : Node) : String :=
  match node.ranges with
  | [] => ""
  | ranges => " " ++ String.intercalate ", " (ranges.map model.rangeText)

/-- The statement of a node. -/
def nodeText (model : Model) (node : Node) : String :=
  let shape := s!"{node.name}: {node.elementType.name}[{node.size}]"
  match node.kind with
  | .input => s!"input {shape}"
  | .output => s!"output {shape} =" ++ model.referencesText node
  | .constant values => s!"node {shape} = const {Number.textList values}"
  | kind => s!"node {shape} = {kind.name}" ++ model.referencesText node

/-- The text of a model. -/
def text (model : Model) : String :=
  s!"model {model.name}\n" ++
    String.join (model.nodes.toList.map fun node => model.nodeText node ++ "\n")

end Model
end Dataflow
