import Dataflow.Code.Region
import Dataflow.Number.Literal
import Dataflow.Text.Blank

/-!
# Command-line arguments

The command line has one operand, the path of a model text, and options.

* A long option is `--NAME`, a short one `-C`.  Names are not abbreviated.
* An option with a value has it attached, as in `--merge=never`, `-fscore` and `-f=score`, or takes
  the next argument, which must not itself look like an option.  A lone `-` does not.
* Flags have no value.  Short flags may share one dash, and an option with a value may come last
  there.
* After `--` every argument is an operand.

Except for inputs and verbosity an option may be given only once.
-/

namespace Dataflow
namespace CommandLine

/-- What the command line asks for. -/
structure Arguments where
  /-- The path of the model text. -/
  path : Option String
  /-- The name of the function. -/
  function : Option String
  /-- Which regions are merged. -/
  merge : Option MergePolicy
  /-- The values of the inputs. -/
  inputs : List (List Float)
  /-- Whether operands of different element types are allowed. -/
  skipsTypeCheck : Bool
  /-- Whether the statistics are printed. -/
  stats : Bool
  /-- How often verbosity was asked for. -/
  verbosity : Nat
deriving DecidableEq, Repr

/-- No arguments. -/
def Arguments.empty : Arguments := ⟨none, none, none, [], false, false, 0⟩

/-! ## Values -/

/-- The parts of a text between its commas. -/
def fields : List Char → List (List Char)
  | [] => [[]]
  | ',' :: rest => [] :: fields rest
  | c :: rest =>
    match fields rest with
    | [] => [[c]]
    | field :: others => (c :: field) :: others

/-- A text without the blanks at its ends. -/
def trim (text : List Char) : List Char :=
  ((text.dropWhile Text.isBlank).reverse.dropWhile Text.isBlank).reverse

/-- Reads numbers separated by commas. -/
def readValues? (text : List Char) : Option (List Float) :=
  (fields text).mapM fun field => Number.read? (trim field)

/-! ## Options -/

/-- An option with a value. -/
inductive Setting where
  /-- The name of the function. -/
  | function
  /-- Which regions are merged. -/
  | merge
  /-- The values of the next input. -/
  | input
deriving DecidableEq, Repr

/-- An option without a value. -/
inductive Flag where
  /-- Allow operands of different element types. -/
  | noTypeCheck
  /-- Print the statistics. -/
  | stats
  /-- Be verbose. -/
  | verbose
deriving DecidableEq, Repr

/-- The setting with a given long name. -/
def Setting.ofLong? : String → Option Setting
  | "function" => some function
  | "merge" => some merge
  | "input" => some input
  | _ => none

/-- The setting with a given short name. -/
def Setting.ofShort? : Char → Option Setting
  | 'f' => some function
  | 'i' => some input
  | _ => none

/-- The flag with a given long name. -/
def Flag.ofLong? : String → Option Flag
  | "no-type-check" => some noTypeCheck
  | "stats" => some stats
  | "verbose" => some verbose
  | _ => none

/-- The flag with a given short name. -/
def Flag.ofShort? : Char → Option Flag
  | 'v' => some verbose
  | _ => none

/-- The arguments with a setting.  A repeated setting and an improper value are refused. -/
def Arguments.assign? (arguments : Arguments) (setting : Setting) (value : List Char) :
    Option Arguments :=
  match setting with
  | .function =>
    match arguments.function with
    | some _ => none
    | none => some { arguments with function := some (String.ofList value) }
  | .merge =>
    match arguments.merge with
    | some _ => none
    | none => do
      let policy ← MergePolicy.parse? (String.ofList value)
      return { arguments with merge := some policy }
  | .input => do
    let values ← readValues? value
    return { arguments with inputs := arguments.inputs ++ [values] }

/-- The arguments with a flag.  A repeated flag other than verbosity is refused. -/
def Arguments.raise? (arguments : Arguments) : Flag → Option Arguments
  | .noTypeCheck =>
    if arguments.skipsTypeCheck then none else some { arguments with skipsTypeCheck := true }
  | .stats => if arguments.stats then none else some { arguments with stats := true }
  | .verbose => some { arguments with verbosity := arguments.verbosity + 1 }

/-! ## Reading -/

/-- How far the arguments have been read. -/
structure Reading where
  /-- What they ask for so far. -/
  arguments : Arguments
  /-- The setting that the next argument is the value of. -/
  pending : Option Setting
  /-- Whether only operands follow. -/
  operandsOnly : Bool

namespace Reading

/-- Goes on with other arguments. -/
def withArguments (reading : Reading) (arguments : Option Arguments) : Option Reading :=
  arguments.map fun arguments => { reading with arguments, pending := none }

/-- Reads an operand.  There is only one. -/
def operand? (reading : Reading) (path : String) : Option Reading :=
  match reading.arguments.path with
  | some _ => none
  | none => some { reading with arguments := { reading.arguments with path := some path } }

/-- Reads a long option, the text behind the two dashes. -/
def long? (reading : Reading) (option : List Char) : Option Reading :=
  let name := String.ofList (option.takeWhile (· != '='))
  match Setting.ofLong? name, Flag.ofLong? name, option.dropWhile (· != '=') with
  | some setting, _, [] => some { reading with pending := some setting }
  | some setting, _, _ :: value =>
    reading.withArguments (reading.arguments.assign? setting value)
  | none, some flag, [] => reading.withArguments (reading.arguments.raise? flag)
  | none, _, _ => none

/-- Reads short options that share one dash. -/
def short? (reading : Reading) : List Char → Option Reading
  | [] => some reading
  | c :: rest =>
    match Setting.ofShort? c, Flag.ofShort? c, rest with
    | some setting, _, [] => some { reading with pending := some setting }
    | some setting, _, '=' :: value =>
      reading.withArguments (reading.arguments.assign? setting value)
    | some setting, _, value => reading.withArguments (reading.arguments.assign? setting value)
    | none, some flag, _ => do
      let reading ← reading.withArguments (reading.arguments.raise? flag)
      reading.short? rest
    | none, none, _ => none

/-- Reads one argument.  Nothing that looks like an option may stand where a value is due. -/
def next? (reading : Reading) (argument : String) : Option Reading :=
  if reading.operandsOnly then reading.operand? argument
  else
    match reading.pending, argument.toList with
    | some _, '-' :: _ :: _ => none
    | some setting, value => reading.withArguments (reading.arguments.assign? setting value)
    | none, ['-', '-'] => some { reading with operandsOnly := true }
    | none, '-' :: '-' :: option => reading.long? option
    | none, '-' :: c :: options => reading.short? (c :: options)
    | none, _ => reading.operand? argument

end Reading

/-- Reads all arguments. -/
def Arguments.read? (arguments : List String) : Option Arguments := do
  let reading ← arguments.foldlM Reading.next? ⟨.empty, none, false⟩
  if reading.pending.isSome ∨ reading.arguments.path.isNone then none
  else return reading.arguments

end CommandLine
end Dataflow
