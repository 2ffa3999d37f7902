import Dataflow.Model.Basic
import Dataflow.Text.Quoted

/-!
# Errors in models

The causes for which a model text is refused and a construction step fails, and their wording.
-/

namespace Dataflow

/-- Why a node cannot be appended to a model under construction. -/
inductive ShapeFault where
  /-- An input of no elements. -/
  | emptyInput
  /-- An input of more elements than a port may have. -/
  | oversizedInput (size : Nat)
  /-- A constant without a value. -/
  | emptyConstant
  /-- The wrong number of input ports for the kind. -/
  | inputCount (kind : String) (expected actual : Nat)
  /-- A kind whose shape does not follow from input ports. -/
  | nothingToInfer (kind : String)
  /-- More gathered elements than a port may have. -/
  | combinedLength
  /-- Two operands of a dot product that differ in length. -/
  | dotLengths (lhs rhs : Nat)
  /-- Two operands of an operator of which neither can be repeated to the length of the other. -/
  | noBroadcast (lhs rhs : Nat)
  /-- An operand whose number of elements is no word, which ends the program. -/
  | overflow
deriving DecidableEq, Repr

/-- The wording of a shape fault. -/
def ShapeFault.message : ShapeFault → String
  | emptyInput => "input ports must not be empty"
  | oversizedInput size => s!"{size} elements exceed the maximum of {maxPortSize}"
  | emptyConstant => "constants must hold at least one value"
  | inputCount kind expected actual => s!"'{kind}' takes {expected} inputs, got {actual}"
  | nothingToInfer kind => s!"'{kind}' nodes have no inputs to infer from"
  | combinedLength => s!"combined length exceeds the maximum of {maxPortSize}"
  | dotLengths lhs rhs => s!"dot operands differ in length ({lhs} vs {rhs})"
  | noBroadcast lhs rhs => s!"operand lengths {lhs} and {rhs} do not broadcast"
  | overflow => Word.overflowText

/-- Why a line of a model text is refused. -/
inductive SyntaxFault where
  /-- A `model` statement after another statement. -/
  | modelNotFirst
  /-- A word at the start of a line that is no statement. -/
  | unknownStatement (word : String)
  /-- Something after a complete statement. -/
  | trailingInput (rest : String)
  /-- Another character, or none, where a certain character has to stand. -/
  | expectedChar (wanted : Char) (found : Option Char)
  /-- Another character, or none, where a name has to begin. -/
  | expectedName (found : Option Char)
  /-- Something else where an index has to stand. -/
  | expectedIndex (rest : String)
  /-- A word that is no number literal. -/
  | invalidNumber (literal : String)
  /-- A name that an earlier node has. -/
  | duplicateName (name : String)
  /-- A word that is no element type. -/
  | unknownType (word : String)
  /-- A port of no elements. -/
  | emptyPort (name : String)
  /-- A port of more elements than a port may have. -/
  | oversizedPort (name : String) (size : Nat)
  /-- A word that is no operation. -/
  | unknownOperation (word : String)
  /-- The wrong number of operands. -/
  | operandCount (kind : String) (expected actual : Nat)
  /-- An index whose successor is no word. -/
  | indexOutOfRange (index : Nat) (name : String)
  /-- A range that ends before it has begun. -/
  | emptyRange (start stop : Nat) (name : String)
  /-- A reference to a name that no node has. -/
  | undeclaredNode (name : String)
deriving DecidableEq, Repr

/-- How a diagnostic shows the character that was found, if there was one. -/
def SyntaxFault.showFound : Option Char → String
  | some c => "Some(" ++ Text.quoteChar c ++ ")"
  | none => "None"

/-- The wording of a syntax fault. -/
def SyntaxFault.message : SyntaxFault → String
  | modelNotFirst => "'model' must be the first statement"
  | unknownStatement word => s!"Unknown statement '{word}'"
  | trailingInput rest => s!"Unexpected trailing input '{rest}'"
  | expectedChar wanted found => s!"Expected '{wanted}' but found {showFound found}"
  | expectedName (some c) => s!"Expected identifier but found '{c}'"
  | expectedName none => "Expected identifier but found end of line"
  | expectedIndex rest => s!"Expected index but found '{rest}'"
  | invalidNumber literal => s!"Invalid number '{literal}'"
  | duplicateName name => s!"Duplicate node name '{name}'"
  | unknownType word => s!"Unknown element type '{word}'"
  | emptyPort name => s!"Port '{name}' must not be empty"
  | oversizedPort name size =>
    s!"Port '{name}' declares {size} elements, the maximum is {maxPortSize}"
  | unknownOperation word => s!"Unknown operation '{word}'"
  | operandCount kind expected actual => s!"'{kind}' takes {expected} operands, got {actual}"
  | indexOutOfRange index name => s!"Index {index} on '{name}' is out of range"
  | emptyRange start stop name => s!"Empty range {start}..{stop} on '{name}'"
  | undeclaredNode name => s!"Reference to undeclared node '{name}'"

/-- Why a model is refused. -/
inductive ModelError where
  /-- A range of a port that does not exist. -/
  | unknownPort (port : PortId)
  /-- A range that is empty or reaches outside its port. -/
  | rangeOutOfBounds (port : String) (start stop size : Nat)
  /-- A node that does not fit. -/
  | shape (node : String) (fault : ShapeFault)
  /-- A name that an earlier node has. -/
  | duplicateName (name : String)
  /-- A refused line of a model text. -/
  | parse (line : Nat) (fault : SyntaxFault)
deriving DecidableEq, Repr

namespace ModelError

/-- The wording of an error. -/
def message : ModelError → String
  | unknownPort port => s!"Unknown port {port.text}"
  | rangeOutOfBounds port start stop size =>
    s!"Range {start}..{stop} is outside port '{port}' of size {size}"
  | shape node fault => s!"Node '{node}': {fault.message}"
  | duplicateName name => s!"Duplicate node name '{name}'"
  | parse line fault => s!"Line {line}: {fault.message}"

/-- The constructor of an error with its arguments, as the command line reports it. -/
def details : ModelError → String
  | unknownPort port => s!"UnknownPort(PortId({port.index}))"
  | rangeOutOfBounds port start stop size =>
    "RangeOutOfBounds \x7b port: " ++ Text.quoteString port ++
      s!", start: {start}, end: {stop}, size: {size} \x7d"
  | shape node fault =>
    "Shape \x7b node: " ++ Text.quoteString node ++ ", reason: " ++
      Text.quoteString fault.message ++ " \x7d"
  | duplicateName name => "DuplicateName(" ++ Text.quoteString name ++ ")"
  | parse line fault =>
    s!"Parse \x7b line: {line}, reason: " ++ Text.quoteString fault.message ++ " \x7d"

end ModelError
end Dataflow
