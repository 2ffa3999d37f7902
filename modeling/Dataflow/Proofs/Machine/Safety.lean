import Dataflow.Proofs.Compiler.Footprint
import Dataflow.Proofs.Machine.Calls

/-!
# Safe functions

An instruction is safe if its slices are not empty and lie inside their variables.  A safe
instruction always succeeds on a memory that fits, and the memory still fits afterwards.  A function
is sound if its instructions are safe and it keeps to itself (`Function.Sound`): all that it
touches, parameters included, lies in a span of the variable table.  A call of a sound function
succeeds if its inputs have the right lengths and fails otherwise, but not for the sake of a slice.
Among the variables that last from call to call, it changes those of the span at most, and none if
it fails (`Function.Sound.run_ok`, `Function.Sound.run_failed`).
-/

namespace Dataflow

/-! ## Safe instructions -/

/-- A slice that is not empty and lies inside its variable. -/
def Slice.Within (slice : Slice) (vars : VariableTable) : Prop :=
  ∃ var, vars.get? slice.var = some var ∧ slice.length ≠ 0 ∧ slice.offset + slice.length ≤ var.size

/-- An instruction on proper slices that writes to no input. -/
structure Instruction.Safe (vars : VariableTable) (instruction : Instruction) : Prop where
  slices : ∀ slice ∈ instruction.slices, slice.Within vars
  writable : ∀ var, vars.get? instruction.dst.var = some var → var.storage ≠ .input
  lengths : instruction.lengthsFit = true

/-- All sizes in a table are words. -/
def VariableTable.Sized (vars : VariableTable) : Prop :=
  ∀ id var, vars.get? id = some var → var.size < Word.count

variable {vars vars' : VariableTable} {memory memory' : Memory}

lemma Slice.Within.mono {slice : Slice} (h : slice.Within vars) (htable : vars.Prefix vars') :
    slice.Within vars' := by
  obtain ⟨var, hvar, hrest⟩ := h
  exact ⟨var, htable.get? hvar, hrest⟩

lemma Instruction.Safe.mono {instruction : Instruction} (h : instruction.Safe vars)
    (htable : vars.Prefix vars') : instruction.Safe vars' where
  slices slice hslice := (h.slices slice hslice).mono htable
  writable var hvar := by
    obtain ⟨old, hold, -⟩ := h.slices _ List.mem_cons_self
    obtain rfl : old = var := Option.some.inj ((htable.get? hold).symm.trans hvar)
    exact h.writable old hold
  lengths := h.lengths

lemma Slice.Within.stop_le {slice : Slice} (h : slice.Within vars) (hsized : vars.Sized) :
    slice.stop ≤ Word.top := by
  obtain ⟨var, hvar, -, hroom⟩ := h
  exact Nat.le_of_lt_succ (hroom.trans_lt (hsized _ var hvar))

/-- A proper slice can be read, and there is something in it. -/
lemma Slice.Within.read {slice : Slice} (h : slice.Within vars) (hword : slice.stop ≤ Word.top)
    (hfits : memory.Fits vars) : ∃ value rest, memory.read slice = .ok (value :: rest) := by
  obtain ⟨var, hvar, hlength, hroom⟩ := h
  obtain ⟨values, hvalues, hsize⟩ := hfits.holds _ var hvar
  have hread := Memory.read_of_holder (Memory.holder_eq_ok.mpr ⟨hvalues, hword, hsize ▸ hroom⟩)
  have hne : (values.drop slice.offset).take slice.length ≠ [] := by
    rw [← List.length_pos_iff, List.length_take, List.length_drop]
    omega
  obtain ⟨value, rest, heq⟩ := List.exists_cons_of_ne_nil hne
  exact ⟨value, rest, heq ▸ hread⟩

namespace Instruction

variable {instruction : Instruction}

/-- An instruction that can read its slices has a result. -/
lemma exists_result (h : ∀ slice ∈ instruction.slices, ∃ value rest,
    memory.read slice = .ok (value :: rest)) :
    ∃ values, instruction.result memory = .ok values := by
  obtain ⟨⟨first, others, hdst⟩, hsources⟩ := List.forall_mem_cons.mp h
  cases instruction with
  | copy dst src =>
    obtain ⟨value, rest, hsrc⟩ := List.forall_mem_singleton.mp hsources
    exact ⟨_, hsrc⟩
  | fill dst value => exact ⟨_, result_fill value hdst⟩
  | unary op dst src =>
    obtain ⟨value, rest, hsrc⟩ := List.forall_mem_singleton.mp hsources
    exact ⟨_, result_unary op hsrc⟩
  | reduce op dst src =>
    obtain ⟨value, rest, hsrc⟩ := List.forall_mem_singleton.mp hsources
    refine ⟨[(value :: rest).foldl op.combine first], ?_⟩
    have hdst' : memory.read dst = .ok (first :: others) := hdst
    rw [result, hdst', hsrc]
    rfl
  | binary op dst lhs rhs =>
    obtain ⟨⟨_, _, hlhs⟩, hrest⟩ := List.forall_mem_cons.mp hsources
    obtain ⟨_, _, hrhs⟩ := List.forall_mem_singleton.mp hrest
    exact ⟨_, result_binary op hlhs hrhs⟩
  | dot dst lhs rhs =>
    obtain ⟨⟨_, _, hlhs⟩, hrest⟩ := List.forall_mem_cons.mp hsources
    obtain ⟨_, _, hrhs⟩ := List.forall_mem_singleton.mp hrest
    exact ⟨_, result_dot hlhs hrhs⟩
  | accumulate dst src =>
    obtain ⟨-, hrest⟩ := List.forall_mem_cons.mp hsources
    obtain ⟨_, _, hsrc⟩ := List.forall_mem_singleton.mp hrest
    exact ⟨_, result_accumulate hdst hsrc⟩

/-- An instruction on proper slices succeeds, keeps the memory in shape, and changes one variable
only. -/
lemma execute_within
    (h : ∀ slice ∈ instruction.slices, slice.Within vars ∧ slice.stop ≤ Word.top)
    (hfits : memory.Fits vars) :
    ∃ memory', instruction.execute vars memory = .ok memory' ∧ memory'.Fits vars ∧
      ∀ other, instruction.dst.var ≠ other → memory'.get? other = memory.get? other := by
  obtain ⟨values, hresult⟩ := exists_result fun slice hslice =>
    (h slice hslice).1.read (h slice hslice).2 hfits
  obtain ⟨⟨var, hvar, -, hroom⟩, hword⟩ := h _ List.mem_cons_self
  obtain ⟨old, hold, hsize⟩ := hfits.holds _ var hvar
  rw [execute_eq hvar hresult,
    Memory.write_of_holder (Memory.holder_eq_ok.mpr ⟨hold, hword, hsize ▸ hroom⟩)]
  refine ⟨_, rfl, hfits.set hvar ?_, fun other hother => Memory.get?_set_of_ne memory hother _⟩
  rw [Memory.length_overwrite, hsize]
  rw [List.length_take]
  omega

lemma Safe.execute (h : instruction.Safe vars) (hsized : vars.Sized) (hfits : memory.Fits vars) :
    ∃ memory', instruction.execute vars memory = .ok memory' ∧ memory'.Fits vars ∧
      ∀ other, instruction.dst.var ≠ other → memory'.get? other = memory.get? other :=
  execute_within (fun slice hslice =>
    ⟨h.slices slice hslice, (h.slices slice hslice).stop_le hsized⟩) hfits

end Instruction

/-- Safe instructions one after another. -/
lemma runs_of_safe {code : List Instruction} (h : ∀ instruction ∈ code, instruction.Safe vars)
    (hsized : vars.Sized) (hfits : memory.Fits vars) :
    ∃ memory', Runs vars code memory memory' ∧ memory'.Fits vars ∧
      ∀ other, (∀ instruction ∈ code, instruction.dst.var ≠ other) →
        memory'.get? other = memory.get? other := by
  induction code generalizing memory with
  | nil => exact ⟨memory, .nil memory, hfits, fun _ _ => rfl⟩
  | cons instruction rest ih =>
    obtain ⟨hfirst, hrest⟩ := List.forall_mem_cons.mp h
    obtain ⟨next, hexecute, hfits', hframe⟩ := hfirst.execute hsized hfits
    obtain ⟨last, hruns, hfits'', hframe'⟩ := ih hrest hfits'
    refine ⟨last, .cons hexecute hruns, hfits'', fun other hother => ?_⟩
    obtain ⟨hne, hothers⟩ := List.forall_mem_cons.mp hother
    rw [hframe' other hothers, hframe other hne]

/-! ## Sound functions -/

/-- A function that works on variables of its own, from `low` up to `high`.  Its parameters stand
for distinct variables of the same description, and these are the only parameters that it touches.
-/
structure Function.Sound (vars : VariableTable) (low high : ℕ) (function : Function) : Prop where
  parameters : List.Forall₂ (fun parameter id => ∃ var, vars.get? id = some var ∧
    var.toParameter = parameter) function.parameters function.vars
  nodup : function.vars.Nodup
  span : ∀ id ∈ function.vars, low ≤ id.index ∧ id.index < high
  safe : ∀ instruction ∈ function.body, instruction.Safe vars
  own : ∀ instruction ∈ function.body, ∀ slice ∈ instruction.slices,
    low ≤ slice.var.index ∧ slice.var.index < high
  recorded : ∀ instruction ∈ function.body, ∀ slice ∈ instruction.slices, ∀ var,
    vars.get? slice.var = some var → var.storage.isParameter = true → slice.var ∈ function.vars

namespace Function.Sound

variable {function : Function} {low high : ℕ}

lemma mono (h : function.Sound vars low high) (htable : vars.Prefix vars') :
    function.Sound vars' low high where
  parameters := h.parameters.imp fun _ _ ⟨var, hvar, hparameter⟩ =>
    ⟨var, htable.get? hvar, hparameter⟩
  nodup := h.nodup
  span := h.span
  safe instruction hmem := (h.safe instruction hmem).mono htable
  own := h.own
  recorded instruction hmem slice hslice var hvar := by
    obtain ⟨old, hold, -⟩ := (h.safe instruction hmem).slices slice hslice
    obtain rfl : old = var := Option.some.inj ((htable.get? hold).symm.trans hvar)
    exact h.recorded instruction hmem slice hslice old hold

/-- Every parameter has its variable. -/
lemma binding (h : function.Sound vars low high) {binding : Parameter × VarId}
    (hmem : binding ∈ function.bindings) :
    binding.2 ∈ function.vars ∧ ∃ var, vars.get? binding.2 = some var ∧
      var.toParameter = binding.1 := by
  obtain ⟨parameter, id⟩ := binding
  exact ⟨(List.of_mem_zip hmem).2, List.forall₂_zip h.parameters hmem⟩

lemma input (h : function.Sound vars low high) {binding : Parameter × VarId}
    (hmem : binding ∈ function.inputs) :
    ∃ var, vars.get? binding.2 = some var ∧ var.size = binding.1.size ∧ var.storage = .input := by
  obtain ⟨hbinding, hstorage⟩ := List.mem_filter.mp hmem
  obtain ⟨-, var, hvar, hparameter⟩ := h.binding hbinding
  refine ⟨var, hvar, congrArg Parameter.size hparameter, ?_⟩
  rw [← of_decide_eq_true hstorage, ← hparameter]
  rfl

lemma input_size (h : function.Sound vars low high) : ∀ binding ∈ function.inputs,
    ∃ var, vars.get? binding.2 = some var ∧ var.size = binding.1.size := fun binding hmem => by
  obtain ⟨var, hvar, hsize, -⟩ := h.input hmem
  exact ⟨var, hvar, hsize⟩

lemma output (h : function.Sound vars low high) {binding : Parameter × VarId}
    (hmem : binding ∈ function.outputs) :
    ∃ var, vars.get? binding.2 = some var ∧ var.size = binding.1.size := by
  obtain ⟨-, var, hvar, hparameter⟩ := h.binding (List.mem_filter.mp hmem).1
  exact ⟨var, hvar, congrArg Parameter.size hparameter⟩

end Function.Sound

/-! ## Calls of sound functions -/

/-- An error for the sake of a slice, which lies outside its variable or ends at no word. -/
def CallError.BlamesSlice : CallError → Prop
  | invalidSlice _ | overflow => True
  | _ => False

/-- A variable that keeps its contents from call to call. -/
def VariableTable.Lasting (vars : VariableTable) (id : VarId) : Prop :=
  ∃ var, vars.get? id = some var ∧ var.storage = .global

/-- A program whose variables are numbered by position and have words for sizes. -/
structure Program.Regular (program : Program) : Prop where
  numbered : ∀ id var, program.vars.get? id = some var → var.id = id
  sized : program.vars.Sized

variable {program : Program} {function : Function} {low high : ℕ} {inputs : List (List Float)}

/-- Resetting changes no variable that lasts. -/
lemma Program.Regular.reset_changes (hprogram : program.Regular) (function : Function)
    (hfits : memory.Fits program.vars) :
    memory.Changes program.vars (fun id => ¬ program.vars.Lasting id)
      (program.reset function memory) := by
  obtain ⟨hfits', hget⟩ := program.reset_fits function hprogram.numbered hfits
  refine ⟨hfits', fun id hid => ?_⟩
  obtain ⟨var, hvar, hglobal⟩ := not_not.mp hid
  rw [hget id var hvar, Variable.isReset, hglobal]
  rfl

/-- Variables of inputs do not last. -/
lemma Function.Sound.not_lasting_input (h : function.Sound vars low high) {id : VarId}
    (hid : ∃ binding ∈ function.inputs, binding.2 = id) : ¬ vars.Lasting id := by
  obtain ⟨binding, hmem, rfl⟩ := hid
  obtain ⟨var, hvar, -, hinput⟩ := h.input hmem
  rintro ⟨other, hother, hglobal⟩
  obtain rfl : var = other := Option.some.inj (hvar.symm.trans hother)
  cases hinput.symm.trans hglobal

/-- Inputs of the right lengths are stored, and what lasts is left alone. -/
lemma Function.Sound.bindInputs_ok (h : function.Sound program.vars low high)
    (hprogram : program.Regular) (hfits : memory.Fits program.vars)
    (hinputs : inputs.map List.length = function.inputs.map fun binding => binding.1.size) :
    ∃ bound, Program.bindInputs function inputs (program.reset function memory) = .ok () bound ∧
      memory.Changes program.vars (fun id => ¬ program.vars.Lasting id) bound := by
  have hreset := hprogram.reset_changes function hfits
  obtain ⟨bound, hbind, hbound⟩ := Program.bindRows_ok h.input_size hinputs hreset.fits
  have hcount : function.inputs.length = inputs.length := by
    simpa using (congrArg List.length hinputs).symm
  refine ⟨bound, ?_, hreset.trans (hbound.mono fun _ hid => h.not_lasting_input hid)⟩
  rw [Program.bindInputs, if_neg (not_not.mpr hcount)]
  exact hbind

/-- **A call with inputs of the right lengths succeeds.**  It answers with outputs of the declared
lengths and changes nothing that lasts outside the span of its function. -/
lemma Function.Sound.run_ok (h : function.Sound program.vars low high) (hprogram : program.Regular)
    (hfits : memory.Fits program.vars)
    (hinputs : inputs.map List.length = function.inputs.map fun binding => binding.1.size) :
    ∃ outputs last, program.run function inputs memory = .ok outputs last ∧
      outputs.map List.length = function.outputs.map (fun binding => binding.1.size) ∧
      memory.Changes program.vars (fun id => program.vars.Lasting id →
        low ≤ id.index ∧ id.index < high) last := by
  obtain ⟨bound, hbind, hbound⟩ := h.bindInputs_ok hprogram hfits hinputs
  obtain ⟨last, hruns, hfits', hframe⟩ := runs_of_safe h.safe hprogram.sized hbound.fits
  obtain ⟨outputs, hcollect, hlengths⟩ :=
    Program.collectOutputs_ok (fun _ hmem => h.output hmem) hfits'
  refine ⟨outputs, last, Program.run_eq_ok.mpr ⟨bound, hbind, hruns, hcollect⟩, hlengths, hfits',
    fun id hid => ?_⟩
  obtain ⟨hlasting, hspan⟩ := Classical.not_imp.mp hid
  have hbody : ∀ instruction ∈ function.body, instruction.dst.var ≠ id := by
    rintro instruction hmem rfl
    exact hspan (h.own instruction hmem _ List.mem_cons_self)
  rw [hframe id hbody, hbound.frame id (not_not.mpr hlasting)]

/-- Other inputs cannot be stored, and what lasts is left alone. -/
lemma Function.Sound.bindInputs_failed (h : function.Sound program.vars low high)
    (hprogram : program.Regular) (hfits : memory.Fits program.vars)
    (hinputs : inputs.map List.length ≠ function.inputs.map fun binding => binding.1.size) :
    ∃ e last, Program.bindInputs function inputs (program.reset function memory) =
        .error e last ∧ ¬ e.BlamesSlice ∧
      memory.Changes program.vars (fun id => ¬ program.vars.Lasting id) last := by
  have hreset := hprogram.reset_changes function hfits
  by_cases hcount : function.inputs.length = inputs.length
  · obtain ⟨name, expected, actual, last, hbind, hbound⟩ :=
      Program.bindRows_failed h.input_size hcount hinputs hreset.fits
    refine ⟨.argumentSize name expected actual, last, ?_, not_false,
      hreset.trans (hbound.mono fun _ hid => h.not_lasting_input hid)⟩
    rw [Program.bindInputs, if_neg (not_not.mpr hcount)]
    exact hbind
  · refine ⟨.argumentCount function.name function.inputs.length inputs.length, _, ?_,
      not_false, hreset⟩
    rw [Program.bindInputs, if_pos hcount]
    rfl

/-- A call with other inputs fails, and changes nothing that lasts. -/
lemma Function.Sound.run_failed (h : function.Sound program.vars low high)
    (hprogram : program.Regular) (hfits : memory.Fits program.vars)
    (hinputs : inputs.map List.length ≠ function.inputs.map fun binding => binding.1.size) :
    ∃ e last, program.run function inputs memory = .error e last ∧
      ¬ e.BlamesSlice ∧
      memory.Changes program.vars (fun id => ¬ program.vars.Lasting id) last := by
  obtain ⟨e, last, hbind, hslice, hchanges⟩ := h.bindInputs_failed hprogram hfits hinputs
  exact ⟨e, last, Program.run_eq_error hbind, hslice, hchanges⟩

end Dataflow
