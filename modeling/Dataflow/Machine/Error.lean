import Dataflow.Code.Instruction
import Dataflow.Text.Quoted

/-!
# Errors of calls

Why a call of a function fails, and how that is worded.
-/

namespace Dataflow

/-- Why a call fails. -/
inductive CallError where
  /-- A name that no function has. -/
  | unknownFunction (name : String)
  /-- The wrong number of inputs. -/
  | argumentCount (function : String) (expected actual : Nat)
  /-- An input of the wrong length. -/
  | argumentSize (parameter : String) (expected actual : Nat)
  /-- A slice that does not lie in the storage. -/
  | invalidSlice (slice : Slice)
  /-- A slice whose end is no word, which ends the program. -/
  | overflow
deriving DecidableEq, Repr

namespace CallError

/-- The wording of an error. -/
def message : CallError → String
  | unknownFunction name => s!"Unknown function '{name}'"
  | argumentCount function expected actual =>
    s!"Function '{function}' takes {expected} inputs, got {actual}"
  | argumentSize parameter expected actual =>
    s!"Input '{parameter}' holds {expected} values, got {actual}"
  | invalidSlice slice => s!"Slice {slice.text} does not address valid storage"
  | overflow => Word.overflowText

/-- The constructor of an error with its arguments, as the command line reports it. -/
def details : CallError → String
  | unknownFunction name => "UnknownFunction(" ++ Text.quoteString name ++ ")"
  | argumentCount function expected actual =>
    "ArgumentCount \x7b function: " ++ Text.quoteString function ++
      s!", expected: {expected}, actual: {actual} \x7d"
  | argumentSize parameter expected actual =>
    "ArgumentSize \x7b param: " ++ Text.quoteString parameter ++
      s!", expected: {expected}, actual: {actual} \x7d"
  | invalidSlice slice =>
    s!"InvalidSlice(Slice \x7b var: VarId({slice.var.index}), offset: {slice.offset}, " ++
      s!"len: {slice.length} \x7d)"
  | overflow => Word.overflowText

end CallError
end Dataflow
