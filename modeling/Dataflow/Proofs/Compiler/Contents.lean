import Dataflow.Proofs.Compiler.Series
import Dataflow.Proofs.Correctness.Stores
import Dataflow.Proofs.Machine.Typed

/-!
# What the variables of a compiled program hold

The storage of a machine is written in four ways: it is set up, reset, filled with inputs, and
written by instructions.  Each of them keeps every row as long as its variable (`Memory.Fits`) and
coerced to the element type of its variable (`Memory.Typed`), so this is how the rows are after any
calls (`contents_are_typed`).
-/

namespace Dataflow
namespace Compiler

variable {program : String} {policy : MergePolicy} {limit : ℕ} {options : Options}
variable {requests : List (Model × String)}

/-- **Variables hold values of their types.**  Whatever calls a machine has served for a compiled
program, with success or without, it has one row of values for every variable.  The row is as long
as the variable, and coercing its values to the element type of the variable changes none of them:
integers are whole numbers of 32 bits, and truth values are zero or one. -/
theorem contents_are_typed (hlimit : limit < Word.count)
    (hmodels : ∀ request ∈ requests, request.1.WellFormed) :
    let program := (reached (fresh (Assembler.fresh program policy limit) options)
      requests).backend.program
    ∀ calls : List (String × List (List Float)),
      let machine := (transcript Machine.serve (Machine.start program) calls).2
      machine.program = program ∧ machine.memory.cells.size = program.vars.size ∧
      ∀ id var, program.vars.get? id = some var →
        ∃ row, machine.read? id = some row ∧ row.length = var.size ∧
          ∀ value ∈ row, var.elementType.coerce value = value ∧
            (var.elementType = .int →
              ∃ n : ℤ, -2147483648 ≤ n ∧ n ≤ 2147483647 ∧ value = Number.ofInt n) ∧
            (var.elementType = .bool → value = 0 ∨ value = 1) := by
  obtain ⟨spans, h⟩ : ∃ spans,
      Steady (fresh (Assembler.fresh program policy limit) options) requests spans :=
    exists_steady hlimit hmodels
  intro program calls machine
  obtain ⟨memory, hmachine, htyped⟩ := h.modular.keeps_typed.transcript calls
  obtain ⟨memory', hmachine', hfits⟩ :=
    h.modular.transcript_fits (Program.initialMemory_fits _) calls
  obtain rfl : memory = memory' := congrArg Machine.memory (hmachine.symm.trans hmachine')
  rw [show machine = ⟨program, memory⟩ from hmachine]
  refine ⟨rfl, hfits.size, fun id var hvar => ?_⟩
  obtain ⟨row, hrow, hlength⟩ := hfits.holds id var hvar
  refine ⟨row, hrow, hlength, fun value hvalue => ?_⟩
  have hvalue := htyped id var row hvar hrow value hvalue
  refine ⟨hvalue, fun htype => ?_, fun htype => ?_⟩
  · exact ElementType.coerce_int_eq_self_iff.mp (htype ▸ hvalue)
  · exact ElementType.coerce_bool_eq_self_iff.mp (htype ▸ hvalue)

theorem contents_are_typed_largestInteger :
    10 < Word.count ∧ (∀ request ∈ [(Model.largestInteger, "f")], request.1.WellFormed) ∧
      let program := (reached (fresh (Assembler.fresh "m" .always 10) .standard)
        [(.largestInteger, "f")]).backend.program
      let machine := (transcript Machine.serve (Machine.start program)
        [("f", [[Number.notANumber, Number.infinity, 0.5]]), ("f", [[7]])]).2
      machine.read? ⟨2⟩ = some [2147483647] ∧
        ∃ row, machine.read? ⟨2⟩ = some row ∧ row.length = 1 ∧ ∀ value ∈ row,
          ∃ n : ℤ, -2147483648 ≤ n ∧ n ≤ 2147483647 ∧ value = Number.ofInt n := by
  have hlimit : 10 < Word.count := by decide
  have hmodels : ∀ request ∈ [(Model.largestInteger, "f")], request.1.WellFormed := by
    decide +kernel
  refine ⟨hlimit, hmodels, by decide +kernel, ?_⟩
  obtain ⟨-, -, hrows⟩ := @contents_are_typed "m" .always 10 .standard _ hlimit hmodels
    [("f", [[Number.notANumber, Number.infinity, 0.5]]), ("f", [[7]])]
  have hvar : ∃ var, (reached (fresh (Assembler.fresh "m" .always 10) .standard)
      [(.largestInteger, "f")]).backend.program.vars.get? ⟨2⟩ = some var ∧ var.size = 1 ∧
        var.elementType = .int :=
    ⟨⟨⟨2⟩, "g_2", .global, .int, 1, .fill Number.negInfinity, true⟩, by decide +kernel, rfl, rfl⟩
  obtain ⟨var, hvar, hsize, htype⟩ := hvar
  obtain ⟨row, hrow, hlength, hvalues⟩ := hrows ⟨2⟩ var hvar
  exact ⟨row, hrow, hlength.trans hsize, fun value hvalue => (hvalues value hvalue).2.1 htype⟩

end Compiler
end Dataflow
