import Dataflow.Proofs.Except
import Dataflow.Proofs.Machine.Isolation

/-!
# Calls keep the memory in shape

A property of the memory that every part of every call keeps holds after any calls, whether or not
they fail (`Program.Keeps.transcript`).  One such property is to fit the variables.  Resetting a
variable and writing to a slice keep the lengths of all rows; storing an input sets a row of the
length that its parameter has.  So if every input parameter has the size of its variable
(`Program.Measured`), the memory always fits (`Program.Measured.transcript_fits`).
-/

namespace Dataflow

/-! ## Steps on the memory -/

namespace Execution

variable {α γ : Type} {P : Memory → Prop} {step : Execution α} {next : α → Execution γ}

/-- The memory that a step leaves, whether or not it fails. -/
def after (step : Execution α) (memory : Memory) : Memory :=
  match step memory with
  | .ok _ memory' => memory'
  | .error _ memory' => memory'

/-- A step that keeps a property of the memory, whether or not it fails. -/
def Keeps (P : Memory → Prop) (step : Execution α) : Prop :=
  ∀ memory, P memory → P (step.after memory)

namespace Keeps

lemma pure (a : α) : Keeps P (Pure.pure a : Execution α) := fun _ h => h

/-- A check that fails ends a call. -/
lemma throw (e : CallError) : Keeps P ((MonadExcept.throw e : Execution α) >>= next) :=
  fun _ h => h

lemma ofExcept (answer : Except CallError α) :
    Keeps P (MonadExcept.ofExcept answer : Execution α) := by
  intro memory h
  cases answer <;> exact h

lemma bind (hstep : Keeps P step) (hnext : ∀ a, Keeps P (next a)) :
    Keeps P (step >>= next) := by
  intro memory h
  have hkept := hstep memory h
  rw [after] at hkept
  rw [after]
  cases hrun : step memory with
  | ok a memory' =>
    rw [hrun] at hkept
    rw [bind_run hrun]
    exact hnext a memory' hkept
  | error e memory' =>
    rw [hrun] at hkept
    rw [bind_failed hrun]
    exact hkept

/-- What follows a look at the memory keeps its shape if it does so for the memory looked at. -/
lemma look {f : Memory → Execution α} (hf : ∀ memory, Keeps P (f memory)) :
    Keeps P (get >>= f) := fun memory h => hf memory memory h

lemma modify {change : Memory → Memory} (h : ∀ memory, P memory → P (change memory)) :
    Keeps P (modify change : Execution Unit) := h

lemma change {f : Memory → Except CallError Memory}
    (h : ∀ memory memory', P memory → f memory = .ok memory' → P memory') :
    Keeps P (Execution.change f) := by
  intro memory hmemory
  rw [after, Execution.change]
  cases hf : f memory with
  | ok memory' => exact h memory memory' hmemory hf
  | error e => exact hmemory

lemma forM {ι : Type} {f : ι → Execution Unit} {list : List ι}
    (hf : ∀ i ∈ list, Keeps P (f i)) : Keeps P (list.forM f) := by
  induction list with
  | nil => exact pure ()
  | cons i rest ih =>
    obtain ⟨hfirst, hrest⟩ := List.forall_mem_cons.mp hf
    exact hfirst.bind fun _ => ih hrest

end Keeps
end Execution

open Execution

/-! ## Whole calls -/

/-- A property that the memory has at first and that every part of a call keeps. -/
structure Program.Keeps (program : Program) (P : Memory → Prop) : Prop where
  initial : P program.initialMemory
  reset : ∀ function ∈ program.functions, ∀ memory, P memory → P (program.reset function memory)
  bindInput : ∀ function ∈ program.functions, ∀ binding ∈ function.inputs, ∀ values,
    Execution.Keeps P (Program.bindInput binding.1 binding.2 values)
  execute : ∀ function ∈ program.functions, ∀ instruction ∈ function.body, ∀ memory memory',
    P memory → instruction.execute program.vars memory = .ok memory' → P memory'

namespace Program.Keeps

variable {program : Program} {P : Memory → Prop} (h : program.Keeps P)

include h

lemma run {function : Function} (hmem : function ∈ program.functions)
    (inputs : List (List Float)) : Execution.Keeps P (program.run function inputs) := by
  refine .bind (.modify (h.reset function hmem)) fun _ => .bind ?_ fun _ => .bind ?_ fun _ => ?_
  · rw [bindInputs]
    split
    · exact .throw _
    · exact .forM fun entry hentry =>
        h.bindInput function hmem entry.1 (List.of_mem_zip hentry).1 entry.2
  · exact .forM fun instruction hinstruction =>
      .change (h.execute function hmem instruction hinstruction)
  · exact .look fun _ => .ofExcept _

/-- A call keeps the property, whether or not it fails. -/
lemma serve {memory : Memory} (hmemory : P memory) (request : String × List (List Float)) :
    ∃ answer last, Machine.serve ⟨program, memory⟩ request = (answer, ⟨program, last⟩) ∧
      P last := by
  rw [Machine.serve, Machine.call]
  simp only
  cases hfunction : program.function? request.1 with
  | none => exact ⟨_, memory, rfl, hmemory⟩
  | some function =>
    have hkept := h.run (Program.function?_eq_some hfunction).1 request.2 memory hmemory
    rw [after] at hkept
    simp only
    cases hrun : program.run function request.2 memory with
    | ok outputs last =>
      rw [hrun] at hkept
      exact ⟨_, last, rfl, hkept⟩
    | error e last =>
      rw [hrun] at hkept
      exact ⟨_, last, rfl, hkept⟩

/-- **What every part of a call keeps holds after any calls.** -/
lemma transcript (requests : List (String × List (List Float))) :
    ∃ last, (Dataflow.transcript Machine.serve (Machine.start program) requests).2 =
      ⟨program, last⟩ ∧ P last := by
  refine transcript_invariant (P := fun machine : Machine =>
    ∃ last, machine = ⟨program, last⟩ ∧ P last) ?_ ⟨_, rfl, h.initial⟩ requests
  rintro _ request ⟨memory, rfl, hmemory⟩
  obtain ⟨answer, last, hserve, hlast⟩ := h.serve hmemory request
  exact ⟨last, by rw [hserve], hlast⟩

end Program.Keeps

/-! ## The lengths of rows -/

variable {memory memory' : Memory} {vars : VariableTable}

/-- An instruction keeps the lengths of all rows. -/
lemma Instruction.execute_fits {instruction : Instruction} (hfits : memory.Fits vars)
    (h : instruction.execute vars memory = .ok memory') : memory'.Fits vars := by
  obtain ⟨values, var, -, hvar, hwrite⟩ := execute_eq_ok.mp h
  obtain ⟨row, hholder, rfl⟩ := Memory.write_eq_ok hwrite
  obtain ⟨hrow, -, hstop⟩ := Memory.holder_eq_ok.mp hholder
  obtain ⟨row', hrow', hlength⟩ := hfits.holds _ var hvar
  obtain rfl : row' = row := Option.some.inj (hrow'.symm.trans hrow)
  have hinside : instruction.dst.offset + instruction.dst.length ≤ row'.length := hstop
  refine hfits.set hvar ?_
  rw [Memory.length_overwrite, hlength]
  rw [List.length_take]
  omega

/-- Values as long as the parameter are stored in a variable of that size, or none are. -/
lemma Program.bindInput_keeps {parameter : Parameter} {id : VarId}
    (h : ∀ var, vars.get? id = some var → var.size = parameter.size) (values : List Float) :
    Execution.Keeps (fun memory => memory.Fits vars) (bindInput parameter id values) := by
  rw [bindInput]
  split
  · exact .throw _
  · next hlength =>
    refine .look fun memory => ?_
    dsimp only
    split
    · exact .throw _
    · refine .modify fun memory hfits => hfits.replace fun var hvar => ?_
      rw [List.length_map, h var hvar, not_not.mp hlength]

/-- A program whose input parameters have the sizes of their variables. -/
def Program.Measured (program : Program) : Prop :=
  ∀ function ∈ program.functions, ∀ binding ∈ function.inputs, ∀ var,
    program.vars.get? binding.2 = some var → var.size = binding.1.size

namespace Program.Measured

variable {program : Program} (h : program.Measured)
variable (hnumbered : ∀ id var, program.vars.get? id = some var → var.id = id)

include h hnumbered

lemma keeps : program.Keeps fun memory => memory.Fits program.vars where
  initial := program.initialMemory_fits
  reset function _ _ hfits := (program.reset_fits function hnumbered hfits).1
  bindInput function hmem binding hbinding := bindInput_keeps (h function hmem binding hbinding)
  execute _ _ _ _ _ _ hfits hexecute := Instruction.execute_fits hfits hexecute

/-- **A machine keeps its memory in shape.**  Whatever calls it has served, its memory fits the
variables of its program, which are numbered by position. -/
theorem transcript_fits (requests : List (String × List (List Float))) :
    (transcript Machine.serve (Machine.start program) requests).2.memory.Fits program.vars := by
  obtain ⟨last, hmachine, hfits⟩ := (h.keeps hnumbered).transcript requests
  rw [hmachine]
  exact hfits

end Program.Measured
end Dataflow
