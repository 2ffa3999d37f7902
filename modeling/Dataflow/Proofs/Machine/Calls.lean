import Dataflow.Proofs.Machine.Execution

/-!
# The parts of a call

A call resets the variables that it does not inherit, stores its inputs one after another, runs the
body of its function and collects the outputs.  Here is what each part does to a memory that fits
the variables, and how the parts make up a call (`Program.run_eq_ok`).
-/

namespace Dataflow

/-- A memory that fits and differs from another one in certain variables only. -/
structure Memory.Changes (vars : VariableTable) (changed : VarId → Prop) (memory memory' : Memory) :
    Prop where
  fits : memory'.Fits vars
  frame : ∀ id, ¬ changed id → memory'.get? id = memory.get? id

namespace Memory.Changes

variable {vars : VariableTable} {changed changed' : VarId → Prop} {memory next last : Memory}

lemma refl (h : memory.Fits vars) : memory.Changes vars changed memory := ⟨h, fun _ _ => rfl⟩

lemma trans (h : memory.Changes vars changed next) (h' : next.Changes vars changed last) :
    memory.Changes vars changed last :=
  ⟨h'.fits, fun id hid => (h'.frame id hid).trans (h.frame id hid)⟩

lemma mono (h : memory.Changes vars changed next) (hsub : ∀ id, changed id → changed' id) :
    memory.Changes vars changed' next :=
  ⟨h.fits, fun id hid => h.frame id fun hchanged => hid (hsub id hchanged)⟩

lemma set (h : memory.Fits vars) {id : VarId} {var : Variable} (hvar : vars.get? id = some var)
    {values : List Float} (hlength : values.length = var.size) (hid : changed id) :
    memory.Changes vars changed (memory.set id values) :=
  ⟨h.set hvar hlength,
    fun _ hother => get?_set_of_ne memory (by rintro rfl; exact hother hid) values⟩

end Memory.Changes

/-! ## Resetting variables -/

/-- Variables that are reset one after another hold their initial contents then.  One may come
several times, as it gets the same contents each time. -/
lemma foldl_reset {vars : VariableTable}
    (hnumbered : ∀ id var, vars.get? id = some var → var.id = id) (function : Function)
    {entries : List Variable} (hentries : ∀ var ∈ entries, vars.get? var.id = some var)
    {memory : Memory} (hfits : memory.Fits vars) :
    let last := entries.foldl (fun memory var =>
      if var.isReset function then memory.set var.id var.initialContents else memory) memory
    last.Fits vars ∧ ∀ id var, vars.get? id = some var → last.get? id =
      if var.isReset function ∧ var ∈ entries then some var.initialContents
      else memory.get? id := by
  induction entries generalizing memory with
  | nil => exact ⟨hfits, fun id var _ => by simp⟩
  | cons first rest ih =>
    obtain ⟨hfirst, hrest⟩ := List.forall_mem_cons.mp hentries
    by_cases hreset : first.isReset function = true
    · obtain ⟨hfits', hget⟩ := ih hrest (hfits.set hfirst first.length_initialContents)
      rw [List.foldl_cons, if_pos hreset]
      refine ⟨hfits', fun id var hvar => ?_⟩
      rw [hget id var hvar]
      by_cases heq : first.id = id
      · subst heq
        obtain rfl : first = var := Option.some.inj (hfirst.symm.trans hvar)
        rw [hfits.get?_set hfirst]
        simp [hreset]
      · have hne : var ≠ first := by
          rintro rfl
          exact heq (hnumbered id var hvar)
        rw [Memory.get?_set_of_ne memory heq]
        simp [hne]
    · obtain ⟨hfits', hget⟩ := ih hrest hfits
      rw [List.foldl_cons, if_neg hreset]
      refine ⟨hfits', fun id var hvar => ?_⟩
      rw [hget id var hvar]
      by_cases heq : var = first
      · subst heq
        simp [hreset]
      · simp [heq]

namespace Program

variable {program : Program} {function : Function} {memory memory' last : Memory}

/-- Resetting keeps the memory in shape.  Variables that are reset hold their initial contents, and
the others are left alone. -/
lemma reset_fits (function : Function)
    (hnumbered : ∀ id var, program.vars.get? id = some var → var.id = id)
    (hfits : memory.Fits program.vars) : (program.reset function memory).Fits program.vars ∧
      ∀ id var, program.vars.get? id = some var → (program.reset function memory).get? id =
        if var.isReset function then some var.initialContents else memory.get? id := by
  have hentries : ∀ var ∈ program.vars.toList, program.vars.get? var.id = some var := by
    intro var hmem
    obtain ⟨i, hi⟩ := List.getElem?_of_mem hmem
    have hget : program.vars.get? ⟨i⟩ = some var := by rwa [VariableTable.get?_eq]
    rwa [hnumbered _ var hget]
  obtain ⟨hfits', hget⟩ := foldl_reset hnumbered function hentries hfits
  refine ⟨hfits', fun id var hvar => ?_⟩
  have hmem : var ∈ program.vars.toList := by
    rw [VariableTable.get?_eq] at hvar
    exact List.mem_of_getElem? hvar
  rw [reset, hget id var hvar]
  simp [hmem]

/-! ## Storing inputs -/

lemma bindInput_run {parameter : Parameter} {id : VarId} {row old : List Float}
    (hlength : row.length = parameter.size) (hold : memory.get? id = some old) :
    bindInput parameter id row memory =
      .ok () (memory.set id (row.map parameter.elementType.coerce)) := by
  have hget : (get : Execution Memory) memory = .ok memory memory := rfl
  rw [bindInput, if_neg (not_not.mpr hlength)]
  refine (Execution.bind_run hget).trans ?_
  simp only [hold]
  rfl

/-- A row of the right length is stored, and no other variable changes. -/
lemma bindInput_ok {vars : VariableTable} {parameter : Parameter} {id : VarId} {row : List Float}
    (hvar : ∃ var, vars.get? id = some var ∧ var.size = parameter.size)
    (hlength : row.length = parameter.size) (hfits : memory.Fits vars) :
    ∃ memory', bindInput parameter id row memory = .ok () memory' ∧
      memory.Changes vars (fun other => id = other) memory' := by
  obtain ⟨var, hvar, hsize⟩ := hvar
  obtain ⟨old, hold, -⟩ := hfits.holds id var hvar
  exact ⟨_, bindInput_run hlength hold,
    .set hfits hvar (by rw [List.length_map, hlength, hsize]) rfl⟩

lemma bindInput_failed {parameter : Parameter} {id : VarId} {row : List Float}
    (hlength : row.length ≠ parameter.size) :
    bindInput parameter id row memory =
      .error (.argumentSize parameter.name parameter.size row.length) memory := by
  rw [bindInput, if_pos hlength]
  rfl

/-- Rows of the right lengths are stored. -/
lemma bindRows_ok {vars : VariableTable} {bindings : List (Parameter × VarId)}
    (hvars : ∀ binding ∈ bindings, ∃ var, vars.get? binding.2 = some var ∧
      var.size = binding.1.size) {rows : List (List Float)}
    (hrows : rows.map List.length = bindings.map fun binding => binding.1.size)
    (hfits : memory.Fits vars) :
    ∃ memory', ((bindings.zip rows).forM fun entry =>
        bindInput entry.1.1 entry.1.2 entry.2) memory = .ok () memory' ∧
      memory.Changes vars (fun id => ∃ binding ∈ bindings, binding.2 = id) memory' := by
  induction bindings generalizing memory rows with
  | nil => exact ⟨memory, rfl, .refl hfits⟩
  | cons binding rest ih =>
    obtain ⟨row, rows, rfl, hlength, hrows⟩ := List.map_eq_cons_iff.mp hrows
    obtain ⟨hvar, hvars⟩ := List.forall_mem_cons.mp hvars
    obtain ⟨first, hstore, hfirst⟩ := bindInput_ok hvar hlength hfits
    obtain ⟨memory', hrun, hchanges⟩ := ih hvars hrows hfirst.fits
    refine ⟨memory', (Execution.bind_run hstore).trans hrun,
      (hfirst.mono ?_).trans (hchanges.mono ?_)⟩
    · rintro id rfl
      exact ⟨binding, List.mem_cons_self, rfl⟩
    · rintro id ⟨other, hmem, rfl⟩
      exact ⟨other, List.mem_cons_of_mem _ hmem, rfl⟩

/-- A row of the wrong length ends storing. -/
lemma bindRows_failed {vars : VariableTable} {bindings : List (Parameter × VarId)}
    (hvars : ∀ binding ∈ bindings, ∃ var, vars.get? binding.2 = some var ∧
      var.size = binding.1.size) {rows : List (List Float)} (hcount : bindings.length = rows.length)
    (hrows : rows.map List.length ≠ bindings.map fun binding => binding.1.size)
    (hfits : memory.Fits vars) :
    ∃ name expected actual memory', ((bindings.zip rows).forM fun entry =>
        bindInput entry.1.1 entry.1.2 entry.2) memory =
          .error (.argumentSize name expected actual) memory' ∧
      memory.Changes vars (fun id => ∃ binding ∈ bindings, binding.2 = id) memory' := by
  induction bindings generalizing memory rows with
  | nil =>
    rw [List.length_eq_zero_iff.mp hcount.symm] at hrows
    exact absurd rfl hrows
  | cons binding rest ih =>
    obtain ⟨row, rows, rfl⟩ := List.exists_cons_of_length_eq_add_one hcount.symm
    obtain ⟨hvar, hvars⟩ := List.forall_mem_cons.mp hvars
    by_cases hlength : row.length = binding.1.size
    · obtain ⟨first, hstore, hfirst⟩ := bindInput_ok hvar hlength hfits
      have hothers : rows.map List.length ≠ rest.map fun binding => binding.1.size := by
        intro heq
        exact hrows (by rw [List.map_cons, List.map_cons, hlength, heq])
      obtain ⟨name, expected, actual, memory', hrun, hchanges⟩ :=
        ih hvars (Nat.succ.inj hcount) hothers hfirst.fits
      refine ⟨name, expected, actual, memory', (Execution.bind_run hstore).trans hrun,
        (hfirst.mono ?_).trans (hchanges.mono ?_)⟩
      · rintro id rfl
        exact ⟨binding, List.mem_cons_self, rfl⟩
      · rintro id ⟨other, hmem, rfl⟩
        exact ⟨other, List.mem_cons_of_mem _ hmem, rfl⟩
    · exact ⟨_, _, _, memory, Execution.bind_failed (bindInput_failed hlength), .refl hfits⟩

/-! ## Collecting outputs -/

/-- The outputs are the contents of their variables. -/
lemma collectOutputs_ok {vars : VariableTable} (hvars : ∀ binding ∈ function.outputs,
      ∃ var, vars.get? binding.2 = some var ∧ var.size = binding.1.size)
    (hfits : memory.Fits vars) :
    ∃ outputs, collectOutputs function memory = .ok outputs ∧
      outputs.map List.length = function.outputs.map fun binding => binding.1.size := by
  rw [collectOutputs]
  generalize function.outputs = bindings at hvars
  induction bindings with
  | nil => exact ⟨[], rfl, rfl⟩
  | cons binding rest ih =>
    obtain ⟨⟨var, hvar, hsize⟩, hrest⟩ := List.forall_mem_cons.mp hvars
    obtain ⟨values, hvalues, hlength⟩ := hfits.holds _ var hvar
    obtain ⟨outputs, hcollect, hlengths⟩ := ih hrest
    refine ⟨values :: outputs, ?_, ?_⟩
    · rw [List.mapM_cons, hcollect, hvalues]
      rfl
    · rw [List.map_cons, List.map_cons, hlengths, hlength, hsize]

/-- What is collected depends on the variables of the outputs only. -/
lemma collectOutputs_congr
    (h : ∀ binding ∈ function.outputs, memory'.get? binding.2 = memory.get? binding.2) :
    collectOutputs function memory' = collectOutputs function memory := by
  rw [collectOutputs, collectOutputs]
  generalize function.outputs = bindings at h
  induction bindings with
  | nil => rfl
  | cons binding rest ih =>
    obtain ⟨hfirst, hrest⟩ := List.forall_mem_cons.mp h
    rw [List.mapM_cons, List.mapM_cons, ih hrest, hfirst]

/-! ## A whole call -/

/-- A call succeeds if its parts do. -/
lemma run_eq_ok {inputs outputs : List (List Float)} :
    program.run function inputs memory = .ok outputs last ↔ ∃ bound,
      bindInputs function inputs (program.reset function memory) = .ok () bound ∧
      Runs program.vars function.body bound last ∧ collectOutputs function last = .ok outputs := by
  have hreset : (modify (program.reset function) : Execution Unit) memory =
    .ok () (program.reset function memory) := rfl
  have hget : (get : Execution Memory) last = .ok last last := rfl
  rw [run]
  constructor
  · intro h
    obtain ⟨_, _, hreset', h⟩ := Execution.bind_eq_ok.mp h
    obtain ⟨-, rfl⟩ := EStateM.Result.ok.inj (hreset.symm.trans hreset')
    obtain ⟨_, bound, hbind, h⟩ := Execution.bind_eq_ok.mp h
    obtain ⟨_, reached, hbody, h⟩ := Execution.bind_eq_ok.mp h
    obtain ⟨_, _, hget', h⟩ := Execution.bind_eq_ok.mp h
    obtain ⟨rfl, rfl⟩ := EStateM.Result.ok.inj hget'
    refine ⟨bound, hbind, ?_⟩
    cases hcollect : collectOutputs function reached with
    | error e =>
      rw [hcollect] at h
      cases h
    | ok collected =>
      rw [hcollect] at h
      obtain ⟨rfl, rfl⟩ := EStateM.Result.ok.inj h
      exact ⟨.of_forM_eq hbody, hcollect⟩
  · rintro ⟨bound, hbind, hruns, hcollect⟩
    refine (Execution.bind_run hreset).trans ?_
    refine (Execution.bind_run hbind).trans ?_
    refine (Execution.bind_run hruns.forM_eq).trans ?_
    refine (Execution.bind_run hget).trans ?_
    rw [hcollect]
    rfl

/-- A call whose inputs cannot be stored fails there. -/
lemma run_eq_error {inputs : List (List Float)} {e : CallError}
    (hbind : bindInputs function inputs (program.reset function memory) = .error e memory') :
    program.run function inputs memory = .error e memory' := by
  have hreset : (modify (program.reset function) : Execution Unit) memory =
    .ok () (program.reset function memory) := rfl
  rw [run]
  refine (Execution.bind_run hreset).trans ?_
  exact Execution.bind_failed hbind

end Program
end Dataflow
