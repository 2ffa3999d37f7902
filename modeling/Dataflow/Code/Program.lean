import Dataflow.Code.Instruction
import Dataflow.Storage.Table

/-!
# Programs

A program is what compiled models become: variables, and functions that work on them.
-/

namespace Dataflow

/-- A function.  Running it means to execute the instructions of its body in order. -/
structure Function where
  /-- The name of the function. -/
  name : String
  /-- The parameters. -/
  parameters : List Parameter
  /-- The variables that stand for the parameters, in the same order. -/
  vars : List VarId
  /-- The instructions. -/
  body : List Instruction
deriving DecidableEq, Repr

namespace Function

/-- The parameters with the variables that stand for them. -/
def bindings (function : Function) : List (Parameter × VarId) :=
  function.parameters.zip function.vars

/-- The bindings of the parameters that the function reads. -/
def inputs (function : Function) : List (Parameter × VarId) :=
  function.bindings.filter fun binding => binding.1.storage = .input

/-- The bindings of the parameters that the function writes. -/
def outputs (function : Function) : List (Parameter × VarId) :=
  function.bindings.filter fun binding => binding.1.storage = .output

/-- The signature of a function as it is written in a listing. -/
def signature (function : Function) : String :=
  let parameters := function.bindings.map fun (parameter, var) => s!"{parameter.text} = {var.text}"
  "fn " ++ function.name ++ "(" ++ String.intercalate ", " parameters ++ ")"

/-- The lines of a function in a listing. -/
def lines (function : Function) : List String :=
  (function.signature ++ " \x7b") ::
    function.body.map (fun instruction => "  " ++ instruction.text) ++ ["\x7d"]

end Function

/-- A program. -/
structure Program where
  /-- The name of the program. -/
  name : String
  /-- The variables of all functions. -/
  vars : VariableTable
  /-- The functions in the order in which they were finished. -/
  functions : List Function
deriving DecidableEq, Repr

/-- The line of a variable in a listing. -/
def Variable.line (var : Variable) : String :=
  s!"  {var.id.text} {var.storage.name} {var.name}: {var.elementType.name}[{var.size}]" ++
    var.initializer.text

namespace Program

/-- The program without variables and functions. -/
def empty (name : String) : Program := ⟨name, .empty, []⟩

/-- The function with a given name. -/
def function? (program : Program) (name : String) : Option Function :=
  program.functions.find? fun function => function.name = name

/-- The lines of the listing of a program.  An empty line precedes every function. -/
def lines (program : Program) : List String :=
  s!"module {program.name}" :: program.vars.toList.map Variable.line ++
    program.functions.flatMap fun function => "" :: function.lines

/-- The listing of a program. -/
def text (program : Program) : String :=
  String.join (program.lines.map fun line => line ++ "\n")

end Program
end Dataflow
