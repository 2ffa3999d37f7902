import Dataflow.Backend.Assembler
import Dataflow.CommandLine.Arguments
import Dataflow.Compiler.Compile
import Dataflow.Machine.Call
import Dataflow.Model.Parser

/-!
# Answering the command line

The command compiles a model text and prints the listing of the program.  If values were given for
the inputs, or the function has none, it then calls the function once and prints its outputs.
-/

namespace Dataflow
namespace CommandLine

/-- What the command prints, and why it fails if it does. -/
structure Answer where
  /-- The text on the standard output. -/
  output : String
  /-- The details of the error. -/
  failure : Option String
deriving DecidableEq, Repr

/-- The name of the function if none is given. -/
def defaultFunction : String := "predict"

/-- The options of the compiler. -/
def Arguments.options (arguments : Arguments) : Options :=
  { Options.standard with
    checkElementTypes := !arguments.skipsTypeCheck
    traceEmission := 2 < arguments.verbosity }

/-- Whether the function is called. -/
def Arguments.wantsCall (arguments : Arguments) (function : CompiledFunction) : Bool :=
  !arguments.inputs.isEmpty ||
    function.parameters.all fun parameter => parameter.storage ≠ .input

/-- The lines of the outputs of a call. -/
def outputsText (function : CompiledFunction) (outputs : List (List Float)) : String :=
  let parameters := function.parameters.filter fun parameter => parameter.storage = .output
  String.join (List.zipWith
    (fun parameter values => s!"{parameter.name} = [{Number.textList values}]\n")
    parameters outputs)

/-- Calls a compiled function once. -/
def Arguments.callText (arguments : Arguments) (program : Program) (function : CompiledFunction) :
    Except CallError String := do
  if arguments.wantsCall function then
    let outputs ← ((Machine.start program).call function.name arguments.inputs).1
    return "\n" ++ outputsText function outputs
  else return ""

/-- Answers arguments about a model. -/
def Arguments.answerModel (arguments : Arguments) (model : Model) : Answer :=
  let assembler :=
    Assembler.fresh model.name (arguments.merge.getD .always) Assembler.defaultLimit
  let compiler := Compiler.fresh assembler arguments.options
  match Compiler.compile model (arguments.function.getD defaultFunction) compiler with
  | .error error _ => ⟨"", some error.details⟩
  | .ok function compiler =>
    let program := compiler.backend.program
    match arguments.callText program function with
    | .error error => ⟨program.text, some error.details⟩
    | .ok outputs =>
      let stats := if arguments.stats then "\n" ++ compiler.session.statistics.text else ""
      ⟨program.text ++ outputs ++ stats, none⟩

/-- Answers arguments about a model text. -/
def Arguments.answer (arguments : Arguments) (text : String) : Answer :=
  match Model.parse text with
  | .error error => ⟨"", some error.details⟩
  | .ok model => arguments.answerModel model

end CommandLine
end Dataflow
