import Dataflow.Proofs.Compiler.Plan
import Dataflow.Proofs.Machine.Memory

/-!
# Executing instructions

`Runs vars code memory memory'` says that executing some instructions leads from one memory to
another.  An instruction that writes a whole variable replaces its values by the coerced result and
leaves all other variables alone.
-/

namespace Dataflow

/-- The second of two steps goes on where the first one succeeds. -/
lemma Execution.bind_run {α γ : Type} {step : Execution α} {next : α → Execution γ}
    {memory memory' : Memory} {a : α} (h : step memory = .ok a memory') :
    (step >>= next) memory = next a memory' := by
  show EStateM.bind step next memory = _
  rw [EStateM.bind, h]

/-- The second of two steps is not taken if the first one fails. -/
lemma Execution.bind_failed {α γ : Type} {step : Execution α} {next : α → Execution γ}
    {memory memory' : Memory} {e : CallError} (h : step memory = .error e memory') :
    (step >>= next) memory = .error e memory' := by
  show EStateM.bind step next memory = _
  rw [EStateM.bind, h]

/-- Two steps succeed if both do. -/
lemma Execution.bind_eq_ok {α γ : Type} {step : Execution α} {next : α → Execution γ}
    {memory memory' : Memory} {b : γ} :
    (step >>= next) memory = .ok b memory' ↔
      ∃ a between, step memory = .ok a between ∧ next a between = .ok b memory' := by
  show EStateM.bind step next memory = _ ↔ _
  rw [EStateM.bind]
  cases step memory <;> simp

/-- Executing the instructions one after another succeeds and leads from the first memory to the
second one. -/
inductive Runs (vars : VariableTable) : List Instruction → Memory → Memory → Prop
  | nil (memory : Memory) : Runs vars [] memory memory
  | cons {instruction : Instruction} {rest : List Instruction} {memory next last : Memory} :
    instruction.execute vars memory = .ok next → Runs vars rest next last →
    Runs vars (instruction :: rest) memory last

namespace Runs

variable {vars : VariableTable} {code code' : List Instruction} {memory next last : Memory}

lemma append (h : Runs vars code memory next) (h' : Runs vars code' next last) :
    Runs vars (code ++ code') memory last := by
  induction h with
  | nil => exact h'
  | cons hfirst _ ih => exact .cons hfirst (ih h')

lemma single {instruction : Instruction} (h : instruction.execute vars memory = .ok next) :
    Runs vars [instruction] memory next := .cons h (.nil next)

/-- A run is what a machine does with the body of a function. -/
lemma forM_eq (h : Runs vars code memory last) :
    code.forM (fun instruction => Execution.change (instruction.execute vars)) memory =
      .ok () last := by
  induction h with
  | nil => rfl
  | @cons instruction rest memory next last hfirst _ ih =>
    have hchange : Execution.change (instruction.execute vars) memory = .ok () next := by
      rw [Execution.change, hfirst]
    exact (Execution.bind_run hchange).trans ih

lemma of_forM_eq (h : code.forM (fun instruction =>
      Execution.change (instruction.execute vars)) memory = .ok () last) :
    Runs vars code memory last := by
  induction code generalizing memory with
  | nil =>
    obtain ⟨-, rfl⟩ := EStateM.Result.ok.inj h
    exact .nil memory
  | cons instruction rest ih =>
    obtain ⟨_, next, hchange, hrest⟩ := Execution.bind_eq_ok.mp h
    have hfirst : Execution.change (instruction.execute vars) memory = .ok () next := hchange
    rw [Execution.change] at hfirst
    cases hexecute : instruction.execute vars memory with
    | error e =>
      rw [hexecute] at hfirst
      cases hfirst
    | ok after =>
      rw [hexecute] at hfirst
      obtain ⟨-, rfl⟩ := EStateM.Result.ok.inj hfirst
      exact .cons hexecute (ih hrest)

end Runs

namespace Instruction

variable {vars : VariableTable} {memory : Memory} {instruction : Instruction} {id : VarId}
variable {var : Variable} {values : List Float}

/-! ## Results -/

section

variable {dst src lhs rhs : Slice} {row row' : List Float}

lemma result_fill (value : Float) (h : memory.read dst = .ok row) :
    (fill dst value).result memory = .ok (row.map fun _ => value) := by
  rw [result, h]
  rfl

lemma result_unary (op : UnaryOp) (h : memory.read src = .ok row) :
    (unary op dst src).result memory = .ok (row.map op.apply) := by
  rw [result, h]
  rfl

lemma result_binary (op : BinaryOp) (h : memory.read lhs = .ok row)
    (h' : memory.read rhs = .ok row') : (binary op dst lhs rhs).result memory =
      .ok (List.zipWith op.apply (spread dst.length row) (spread dst.length row')) := by
  rw [result, h, h']
  rfl

lemma result_dot (h : memory.read lhs = .ok row) (h' : memory.read rhs = .ok row') :
    (dot dst lhs rhs).result memory = .ok [sumOfProducts row row'] := by
  rw [result, h, h']
  rfl

lemma result_reduce (op : ReduceOp) {total : Float} (h : memory.read dst = .ok [total])
    (h' : memory.read src = .ok row) :
    (reduce op dst src).result memory = .ok [row.foldl op.combine total] := by
  rw [result, h, h']
  rfl

lemma result_accumulate (h : memory.read dst = .ok row) (h' : memory.read src = .ok row') :
    (accumulate dst src).result memory = .ok (List.zipWith (· + ·) row row') := by
  rw [result, h, h']
  rfl

end

/-! ## Writing -/

lemma execute_eq (hvar : vars.get? instruction.dst.var = some var)
    (hresult : instruction.result memory = .ok values) :
    instruction.execute vars memory =
      memory.write instruction.dst (values.map var.elementType.coerce) := by
  rw [execute, hresult]
  simp only [bind, Except.bind, hvar]

/-- An instruction succeeds if it has a result and the slice for it can be written. -/
lemma execute_eq_ok {next : Memory} :
    instruction.execute vars memory = .ok next ↔
      ∃ values var, instruction.result memory = .ok values ∧
        vars.get? instruction.dst.var = some var ∧
        memory.write instruction.dst (values.map var.elementType.coerce) = .ok next := by
  constructor
  · intro h
    obtain ⟨values, hresult, hrest⟩ := Except.bind_eq_ok.mp h
    cases hvar : vars.get? instruction.dst.var with
    | none =>
      rw [hvar] at hrest
      cases hrest
    | some var =>
      rw [hvar] at hrest
      exact ⟨values, var, hresult, rfl, hrest⟩
  · rintro ⟨values, var, hresult, hvar, hwrite⟩
    rwa [execute_eq hvar hresult]

/-- Writing all of a variable. -/
lemma execute_whole (hfits : memory.Fits vars) (hvar : vars.get? id = some var)
    (hword : var.size < Word.count) (hdst : instruction.dst = ⟨id, 0, var.size⟩)
    (hresult : instruction.result memory = .ok values) (hlength : values.length = var.size) :
    instruction.execute vars memory =
      .ok (memory.set id (values.map var.elementType.coerce)) := by
  obtain ⟨old, hold, hsize⟩ := hfits.holds id var hvar
  have hcoerced : (values.map var.elementType.coerce).length = old.length := by
    rw [List.length_map, hlength, hsize]
  rw [execute_eq (by rwa [hdst]) hresult, hdst,
    Memory.write_eq hold (by simp only; omega) (by omega),
    List.take_of_length_le (by simp only; omega), Memory.overwrite_whole hcoerced]

end Instruction

/-! ## Copying -/

/-- What an instruction that copies a slice to a part of a variable leaves. -/
lemma Instruction.execute_copy {vars : VariableTable} {memory : Memory} {id : VarId}
    {var : Variable} {values old : List Float} {src : Slice} (size offset : ℕ)
    (hvar : vars.get? id = some var) (hword : old.length < Word.count)
    (hold : memory.get? id = some old) (hread : memory.read src = .ok values)
    (hlength : src.length = values.length) (hroom : offset + values.length ≤ old.length) :
    (copy ((⟨id, 0, size⟩ : Slice).sub offset src.length) src).execute vars memory =
      .ok (memory.set id (Memory.overwrite offset (values.map var.elementType.coerce) old)) := by
  rw [Instruction.execute_eq (by exact hvar) (show (copy _ src).result memory = _ from hread)]
  have hwrite : memory.write ⟨id, offset, src.length⟩ (values.map var.elementType.coerce) =
      .ok (memory.set id (Memory.overwrite offset
        ((values.map var.elementType.coerce).take src.length) old)) :=
    Memory.write_eq hold (by simp only; omega) hword _
  rw [Instruction.dst, Slice.sub, Nat.zero_add, hwrite, List.take_of_length_le]
  rw [List.length_map, hlength]

/-- Copying slices one after another replaces what lies from the offset on by their contents.  The
slices are read from another variable, so what has been copied already does not matter. -/
lemma runs_copies {vars : VariableTable} {id : VarId} {var : Variable} (size : ℕ)
    (hvar : vars.get? id = some var) (hword : var.size < Word.count) {start : Memory}
    {slices : List Slice} {contents : List (List Float)}
    (hreads : List.Forall₂ (fun src values => start.read src = .ok values ∧
      src.length = values.length ∧ src.var ≠ id) slices contents)
    {memory : Memory} {offset : ℕ} {old : List Float} (hfits : memory.Fits vars)
    (hagree : ∀ other, other ≠ id → memory.get? other = start.get? other)
    (hold : memory.get? id = some old) (hroom : offset + contents.flatten.length ≤ old.length) :
    ∃ memory', Runs vars (copies ⟨id, 0, size⟩ offset slices) memory memory' ∧
      memory'.Fits vars ∧
      memory'.get? id = some (Memory.overwrite offset
        (contents.flatten.map var.elementType.coerce) old) ∧
      ∀ other, (∀ instruction ∈ copies ⟨id, 0, size⟩ offset slices, instruction.dst.var ≠ other) →
        memory'.get? other = memory.get? other := by
  induction hreads generalizing memory offset old with
  | nil =>
    refine ⟨memory, .nil memory, hfits, ?_, fun _ _ => rfl⟩
    rw [hold, Memory.overwrite]
    simp
  | @cons src values slices contents hhead htail ih =>
    obtain ⟨hread, hlength, hne⟩ := hhead
    obtain ⟨old', hold', hsize⟩ := hfits.holds id var hvar
    obtain rfl : old = old' := Option.some.inj (hold.symm.trans hold')
    rw [List.flatten_cons, List.length_append] at hroom
    have hhere : memory.read src = .ok values :=
      (Memory.read_congr (hagree src.var hne)).trans hread
    have hexecute := Instruction.execute_copy size offset hvar (by omega) hold hhere hlength
      (by omega)
    have hlengths : (Memory.overwrite offset (values.map var.elementType.coerce) old).length =
        old.length := Memory.length_overwrite _ _ _ (by rw [List.length_map]; omega)
    have hfits' := hfits.set hvar (hlengths.trans hsize)
    have hroom' : offset + values.length + contents.flatten.length ≤
        (Memory.overwrite offset (values.map var.elementType.coerce) old).length := by
      rw [hlengths]
      omega
    obtain ⟨memory', hruns, hfits'', hget, hframe⟩ := ih hfits'
      (fun other hother => (Memory.get?_set_of_ne memory hother.symm _).trans (hagree other hother))
      (hfits.get?_set hvar) hroom'
    have hoffset : offset + src.length = offset + values.length := by rw [hlength]
    rw [copies, hoffset]
    refine ⟨memory', .cons hexecute hruns, hfits'', ?_, fun other hother => ?_⟩
    · have hmap : (values.map var.elementType.coerce).length = values.length :=
        List.length_map _
      rw [hget, ← hmap, Memory.overwrite_overwrite _ _ _ (by omega), List.flatten_cons,
        List.map_append]
    · obtain ⟨hhead, hrest⟩ := List.forall_mem_cons.mp hother
      have hne' : id ≠ other := hhead
      rw [hframe other hrest, Memory.get?_set_of_ne memory hne']

end Dataflow
