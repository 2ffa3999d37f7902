import Dataflow.Model.Token
import Dataflow.Text.Lines

/-!
# Reading model texts

A model text has one statement a line:

* `model NAME` names the model and comes first, if at all;
* `input NAME: TYPE[SIZE]` declares an input;
* `node NAME: TYPE[SIZE] = const NUMBER, ...` declares a constant;
* `node NAME: TYPE[SIZE] = OPERATION REFERENCE, ...` declares a computing node;
* `output NAME: TYPE[SIZE] = REFERENCE, ...` declares an output.

A reference is `NAME`, `NAME[INDEX]` or `NAME[INDEX..INDEX]`.  A semicolon begins a comment, and
lines without a statement are ignored.

Reading collects declarations in a draft.  A reference may name a node that is declared further
down, so the references of a draft are resolved when the text is used up.  Neither step asks whether
a range lies inside the port it names or whether shapes fit together: the compiler does.
-/

namespace Dataflow

/-- A reference to a node by its name, to all of its elements or to those from a first one up to but
not including a last one. -/
structure Reference where
  /-- The name of the node. -/
  name : String
  /-- The first element and the end of the range. -/
  window : Option (Nat × Nat)
deriving DecidableEq, Repr

/-- The declaration of a node, with unresolved references. -/
structure Declaration where
  /-- The line on which the declaration stands. -/
  line : Nat
  /-- The name of the node. -/
  name : String
  /-- The element type of its port. -/
  elementType : ElementType
  /-- The number of elements of its port. -/
  size : Nat
  /-- What the node computes. -/
  kind : NodeKind
  /-- What the node refers to, operand by operand. -/
  references : List Reference

/-- What has been read of a model text. -/
structure Draft where
  /-- The name of the model. -/
  name : String
  /-- Whether a `model` statement has given the name. -/
  named : Bool
  /-- The declarations in file order. -/
  declarations : List Declaration

namespace Reference

/-- Reads a reference. -/
def scan : Scan Reference := do
  let name ← Scan.name
  if ← Scan.accept '[' then
    let start ← Scan.index
    let stop ← if ← Scan.acceptDots then Scan.index
      else if start = Word.top then throw (.indexOutOfRange start name)
      else pure (start + 1)
    Scan.expect ']'
    if stop ≤ start then throw (.emptyRange start stop name)
    return ⟨name, some (start, stop)⟩
  else
    return ⟨name, none⟩

/-- Reads the references of a node of a kind.  A kind with two operands takes one reference for
each, any other kind gathers all references in its only input. -/
def scanOperands (kind : NodeKind) : Scan (List Reference) := do
  let references ← Scan.separated scan
  let expected := kind.inputNames.length
  if 1 < expected ∧ references.length ≠ expected then
    throw (.operandCount kind.name expected references.length)
  return references

/-- The range of a port that a reference to it stands for. -/
def range (reference : Reference) (port : OutputPort) : PortRange :=
  match reference.window with
  | none => .whole port
  | some (start, stop) => ⟨port.id, start, stop - start⟩

end Reference

namespace Draft

/-- The draft of an empty text. -/
def empty : Draft := ⟨"model", false, []⟩

/-- Whether a declaration of the draft has the given name. -/
def declares (draft : Draft) (name : String) : Bool :=
  draft.declarations.any fun declaration => declaration.name == name

/-- The draft with one declaration more. -/
def declare (draft : Draft) (declaration : Declaration) : Draft :=
  { draft with declarations := draft.declarations ++ [declaration] }

/-! ## Statements -/

/-- Reads the name and the shape of a declaration, `NAME: TYPE[SIZE]`. -/
def scanShape (draft : Draft) : Scan (String × ElementType × Nat) := do
  let name ← Scan.name
  if draft.declares name then throw (.duplicateName name)
  Scan.expect ':'
  let typeName ← Scan.name
  let some elementType := ElementType.ofName? typeName | throw (.unknownType typeName)
  Scan.expect '['
  let size ← Scan.index
  Scan.expect ']'
  if size = 0 then throw (.emptyPort name)
  if maxPortSize < size then throw (.oversizedPort name size)
  return (name, elementType, size)

/-- Reads what a node computes, behind the equals sign of its declaration. -/
def scanOperation : Scan (NodeKind × List Reference) := do
  let operation ← Scan.name
  if operation = "const" then
    let values ← Scan.separated Scan.number
    return (.constant values, [])
  let some kind := NodeKind.ofOperator? operation | throw (.unknownOperation operation)
  return (kind, ← Reference.scanOperands kind)

/-- Reads one statement into a draft. -/
def scanStatement (draft : Draft) (line : Nat) : Scan Draft := do
  match ← Scan.name with
  | "model" =>
    if draft.named || !draft.declarations.isEmpty then throw .modelNotFirst
    return { draft with name := ← Scan.name, named := true }
  | "input" =>
    let (name, elementType, size) ← draft.scanShape
    return draft.declare ⟨line, name, elementType, size, .input, []⟩
  | "node" =>
    let (name, elementType, size) ← draft.scanShape
    Scan.expect '='
    let (kind, references) ← scanOperation
    return draft.declare ⟨line, name, elementType, size, kind, references⟩
  | "output" =>
    let (name, elementType, size) ← draft.scanShape
    Scan.expect '='
    let references ← Reference.scanOperands .output
    return draft.declare ⟨line, name, elementType, size, .output, references⟩
  | word => throw (.unknownStatement word)

/-- Reads one line into a draft.  Nothing but a comment may follow the statement. -/
def readLine (draft : Draft) (number : Nat) (line : List Char) : Except SyntaxFault Draft :=
  let statement := line.dropWhile Text.isBlank
  if Scan.atEnd statement then .ok draft
  else do
    let (draft, rest) ← (draft.scanStatement number).run statement
    let rest := rest.dropWhile Text.isBlank
    if Scan.atEnd rest then .ok draft else .error (.trailingInput (String.ofList rest))

/-- Reads lines into a draft, the first of which has the given number. -/
def readLines (draft : Draft) (number : Nat) : List (List Char) → Except ModelError Draft
  | [] => .ok draft
  | line :: rest => do
    let draft ← (draft.readLine number line).mapError (.parse number)
    draft.readLines (number + 1) rest

/-! ## References -/

/-- The ports of the declared nodes. -/
def ports (draft : Draft) : List OutputPort :=
  draft.declarations.mapIdx fun index declaration =>
    { id := ⟨index⟩, node := ⟨index⟩, name := declaration.name,
      elementType := declaration.elementType, size := declaration.size }

/-- Distributes the ranges of a node over its input ports. -/
def inputPorts (kind : NodeKind) (ranges : List PortRange) : List InputPort :=
  let names := kind.inputNames
  if 1 < names.length then
    List.zipWith (fun name range => ⟨name, .ofRange range⟩) names ranges
  else names.map fun name => ⟨name, ⟨ranges⟩⟩

/-- The range that a reference stands for among the declared ports. -/
def resolve (ports : List OutputPort) (line : Nat) (reference : Reference) :
    Except ModelError PortRange :=
  match ports.find? fun port => port.name = reference.name with
  | some port => .ok (reference.range port)
  | none => .error (.parse line (.undeclaredNode reference.name))

/-- Appends a declared node to a model. -/
def addDeclared (ports : List OutputPort) (model : Model) (declaration : Declaration) :
    Except ModelError Model := do
  let ranges ← declaration.references.mapM (resolve ports declaration.line)
  return model.push declaration.name declaration.kind (inputPorts declaration.kind ranges)
    declaration.elementType declaration.size

/-- The model that a draft describes. -/
def toModel (draft : Draft) : Except ModelError Model :=
  draft.declarations.foldlM (addDeclared draft.ports) (.empty draft.name)

end Draft

/-- Reads a model text. -/
def Model.parse (text : String) : Except ModelError Model := do
  let draft ← Draft.empty.readLines 1 (Text.lines text.toList)
  draft.toModel

end Dataflow
