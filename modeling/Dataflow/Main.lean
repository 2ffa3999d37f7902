import Dataflow.CommandLine.Answer

/-!
# The command

Reads the model text that the command line names, prints the answer, and reports an error on the
standard error stream.  The exit code is two for an improper command line and one for any other
error.
-/

open Dataflow CommandLine

/-- Runs the command. -/
def main (args : List String) : IO UInt32 := do
  let some arguments := Arguments.read? args
    | IO.eprintln "error: improper arguments"
      return 2
  let text ← IO.FS.readFile (arguments.path.getD "")
  let answer := arguments.answer text
  IO.print answer.output
  match answer.failure with
  | none => return 0
  | some details =>
    IO.eprintln ("Error: " ++ details)
    return 1
