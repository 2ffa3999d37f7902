import Dataflow.Proofs.Machine.Safety
import Dataflow.Proofs.Transcript

/-!
# Calls do not interfere

What a function does depends on what it touches only.  A call resets or overwrites all of it except
for the variables that last, and the lasting variables that a function touches lie in its own span
of the variable table.  So two memories in which these agree are as good as each other for the
function (`Function.Sound.run_congr`).  If the spans of the functions of a program do not overlap
(`Program.Modular`), then whatever else is called in between, successful or not, leaves the answers
and the lasting variables of a function as they are (`Program.Modular.transcript_alone`).
-/

namespace Dataflow

/-! ## Executing on memories that agree -/

/-- Two memories have the same contents for some variables. -/
def Memory.Agree (S : VarId → Prop) (memory memory' : Memory) : Prop :=
  ∀ id, S id → memory'.get? id = memory.get? id

namespace Memory

variable {S : VarId → Prop} {memory memory' next : Memory} {slice : Slice}

lemma lt_size_of_get? {id : VarId} {values : List Float} (h : memory.get? id = some values) :
    id.index < memory.cells.size := (Array.getElem?_eq_some_iff.mp h).1

/-- Setting a variable on both sides. -/
lemma Agree.set (h : memory.Agree S memory') {id : VarId} (hid : id.index < memory.cells.size)
    (hid' : id.index < memory'.cells.size) (values : List Float) :
    (memory.set id values).Agree (fun other => S other ∨ other = id) (memory'.set id values) := by
  intro other hother
  by_cases heq : id = other
  · subst heq
    rw [get?_set_self _ hid, get?_set_self _ hid']
  · rw [get?_set_of_ne _ heq, get?_set_of_ne _ heq]
    exact h other (hother.resolve_right (Ne.symm heq))

lemma Agree.mono {T : VarId → Prop} (h : memory.Agree S memory') (hsub : ∀ id, T id → S id) :
    memory.Agree T memory' := fun id hid => h id (hsub id hid)

/-- Writing a slice on both sides. -/
lemma Agree.write (h : memory.Agree S memory') (hslice : S slice.var) {values : List Float}
    (hwrite : memory.write slice values = .ok next) :
    ∃ next', memory'.write slice values = .ok next' ∧ next.Agree S next' := by
  obtain ⟨old, hold, rfl⟩ := write_eq_ok hwrite
  obtain ⟨hget, -⟩ := holder_eq_ok.mp hold
  have hold' : memory'.holder slice = .ok old := by
    rw [← hold, holder, holder, h _ hslice]
  refine ⟨_, write_of_holder hold' values, ?_⟩
  refine (h.set (lt_size_of_get? hget) (lt_size_of_get? ((h _ hslice).trans hget)) _).mono ?_
  exact fun id hid => .inl hid

end Memory

namespace Instruction

variable {S : VarId → Prop} {vars : VariableTable} {memory memory' next : Memory}
variable {instruction : Instruction}

/-- The result of an instruction depends on its slices only. -/
lemma result_congr
    (h : ∀ slice ∈ instruction.slices, memory'.get? slice.var = memory.get? slice.var) :
    instruction.result memory' = instruction.result memory := by
  have hread : ∀ slice ∈ instruction.slices, memory'.read slice = memory.read slice :=
    fun slice hslice => Memory.read_congr (h slice hslice)
  obtain ⟨hdst, hsources⟩ := List.forall_mem_cons.mp hread
  cases instruction with
  | copy dst src => exact hsources src List.mem_cons_self
  | fill dst value =>
    have hdst : memory'.read dst = memory.read dst := hdst
    rw [result, result, hdst]
  | unary op dst src => rw [result, result, hsources src List.mem_cons_self]
  | reduce op dst src =>
    have hdst : memory'.read dst = memory.read dst := hdst
    rw [result, result, hdst, hsources src List.mem_cons_self]
  | binary op dst lhs rhs =>
    rw [result, result, hsources lhs List.mem_cons_self,
      hsources rhs (List.mem_cons_of_mem _ List.mem_cons_self)]
  | dot dst lhs rhs =>
    rw [result, result, hsources lhs List.mem_cons_self,
      hsources rhs (List.mem_cons_of_mem _ List.mem_cons_self)]
  | accumulate dst src =>
    have hdst : memory'.read dst = memory.read dst := hdst
    rw [result, result, hdst,
      hsources src (List.mem_cons_of_mem _ List.mem_cons_self)]

lemma execute_congr (hagree : memory.Agree S memory')
    (hslices : ∀ slice ∈ instruction.slices, S slice.var)
    (h : instruction.execute vars memory = .ok next) :
    ∃ next', instruction.execute vars memory' = .ok next' ∧ next.Agree S next' := by
  obtain ⟨values, var, hresult, hvar, hwrite⟩ := execute_eq_ok.mp h
  rw [← result_congr fun slice hslice => hagree _ (hslices slice hslice)] at hresult
  rw [execute_eq hvar hresult]
  exact hagree.write (hslices _ List.mem_cons_self) hwrite

end Instruction

lemma Runs.congr {S : VarId → Prop} {vars : VariableTable} {code : List Instruction}
    {memory memory' last : Memory} (h : Runs vars code memory last)
    (hslices : ∀ instruction ∈ code, ∀ slice ∈ instruction.slices, S slice.var)
    (hagree : memory.Agree S memory') :
    ∃ last', Runs vars code memory' last' ∧ last.Agree S last' := by
  induction h generalizing memory' with
  | nil => exact ⟨memory', .nil memory', hagree⟩
  | cons hfirst _ ih =>
    obtain ⟨hhead, htail⟩ := List.forall_mem_cons.mp hslices
    obtain ⟨next', hexecute, hagree'⟩ := Instruction.execute_congr hagree hhead hfirst
    obtain ⟨last', hruns, hlast⟩ := ih htail hagree'
    exact ⟨last', .cons hexecute hruns, hlast⟩

/-- Storing the same rows on both sides. -/
lemma Program.bindRows_congr {S : VarId → Prop} {vars : VariableTable}
    {bindings : List (Parameter × VarId)} (hvars : ∀ binding ∈ bindings, ∃ var,
      vars.get? binding.2 = some var ∧ var.size = binding.1.size) {rows : List (List Float)}
    (hrows : rows.map List.length = bindings.map fun binding => binding.1.size)
    {memory memory' : Memory} (hfits : memory.Fits vars) (hfits' : memory'.Fits vars)
    (hagree : memory.Agree S memory') :
    ∃ bound bound', ((bindings.zip rows).forM fun entry =>
        bindInput entry.1.1 entry.1.2 entry.2) memory = .ok () bound ∧
      ((bindings.zip rows).forM fun entry =>
        bindInput entry.1.1 entry.1.2 entry.2) memory' = .ok () bound' ∧
      bound.Agree (fun id => S id ∨ ∃ binding ∈ bindings, binding.2 = id) bound' := by
  induction bindings generalizing S memory memory' rows with
  | nil =>
    exact ⟨memory, memory', rfl, rfl, hagree.mono fun id hid =>
      hid.resolve_right fun ⟨_, hmem, _⟩ => List.not_mem_nil hmem⟩
  | cons binding rest ih =>
    obtain ⟨row, rows, rfl, hlength, hrows⟩ := List.map_eq_cons_iff.mp hrows
    obtain ⟨⟨var, hvar, hsize⟩, hvars⟩ := List.forall_mem_cons.mp hvars
    obtain ⟨old, hold, -⟩ := hfits.holds _ var hvar
    obtain ⟨old', hold', -⟩ := hfits'.holds _ var hvar
    have hnew : (row.map binding.1.elementType.coerce).length = var.size := by
      rw [List.length_map, hlength, hsize]
    obtain ⟨bound, bound', hrun, hrun', hbound⟩ := ih hvars hrows (hfits.set hvar hnew)
      (hfits'.set hvar hnew) (hagree.set (Memory.lt_size_of_get? hold)
        (Memory.lt_size_of_get? hold') _)
    refine ⟨bound, bound', (Execution.bind_run (bindInput_run hlength hold)).trans hrun,
      (Execution.bind_run (bindInput_run hlength hold')).trans hrun', hbound.mono ?_⟩
    rintro id (hid | ⟨other, hmem, rfl⟩)
    · exact .inl (.inl hid)
    · rcases List.mem_cons.mp hmem with rfl | hrest
      · exact .inl (.inr rfl)
      · exact .inr ⟨other, hrest, rfl⟩

/-! ## Calls on memories that agree -/

/-- Whether a variable lies in a span of the variable table. -/
def VarId.Within (id : VarId) (span : ℕ × ℕ) : Prop := span.1 ≤ id.index ∧ id.index < span.2

variable {program : Program} {function : Function} {span : ℕ × ℕ} {memory memory' last : Memory}

namespace Function.Sound

/-- A variable that a function may touch. -/
def Sees (program : Program) (function : Function) (span : ℕ × ℕ) (id : VarId) : Prop :=
  ∃ var, program.vars.get? id = some var ∧ (var.storage = .global → id.Within span) ∧
    (var.storage.isParameter = true → id ∈ function.vars)

variable (h : function.Sound program.vars span.1 span.2) (hprogram : program.Regular)

include h

/-- An input that a function may touch is among its inputs. -/
lemma mem_inputs {id : VarId} {var : Variable} (hvar : program.vars.get? id = some var)
    (hinput : var.storage = .input) (hid : id ∈ function.vars) :
    ∃ binding ∈ function.inputs, binding.2 = id := by
  obtain ⟨i, hi⟩ := List.getElem?_of_mem hid
  obtain ⟨hlt, hat⟩ := List.getElem?_eq_some_iff.mp hi
  have hlt' : i < function.parameters.length := h.parameters.length_eq ▸ hlt
  obtain ⟨other, hother, hparameter⟩ := h.parameters.get hlt' hlt
  rw [List.get_eq_getElem, hat, hvar, Option.some.injEq] at hother
  subst hother
  refine ⟨(function.parameters[i], id), List.mem_filter.mpr ⟨?_, decide_eq_true ?_⟩, rfl⟩
  · rw [← hat]
    exact List.mem_iff_getElem.mpr
      ⟨i, by rw [Function.bindings, List.length_zip]; omega, List.getElem_zip⟩
  · rw [List.get_eq_getElem] at hparameter
    rw [← hparameter]
    exact hinput

include hprogram

/-- When the inputs are stored, all that a function may touch is the same on both sides. -/
lemma bindInputs_congr (hfits : memory.Fits program.vars) (hfits' : memory'.Fits program.vars)
    (hagree : memory.Agree (fun id => program.vars.Lasting id ∧ id.Within span) memory')
    {inputs : List (List Float)}
    (hinputs : inputs.map List.length = function.inputs.map fun binding => binding.1.size) :
    ∃ bound bound',
      Program.bindInputs function inputs (program.reset function memory) = .ok () bound ∧
      Program.bindInputs function inputs (program.reset function memory') = .ok () bound' ∧
      bound.Agree (Sees program function span) bound' := by
  obtain ⟨hreset, hget⟩ := program.reset_fits function hprogram.numbered hfits
  obtain ⟨hreset', hget'⟩ := program.reset_fits function hprogram.numbered hfits'
  -- only the inputs may still differ when all else is reset
  have hothers : (program.reset function memory).Agree (fun id => Sees program function span id ∧
      ∀ var, program.vars.get? id = some var → var.storage ≠ .input)
      (program.reset function memory') := by
    rintro id ⟨⟨var, hvar, hspan, hrecorded⟩, hinput⟩
    rw [hget id var hvar, hget' id var hvar]
    split_ifs with hresets
    · rfl
    · refine hagree id ⟨⟨var, hvar, ?_⟩, ?_⟩
      all_goals
        cases hstorage : var.storage with
        | global => first | rfl | exact hspan hstorage
        | scratch => exact absurd (by rw [Variable.isReset, hstorage]) hresets
        | input => exact absurd hstorage (hinput var hvar)
        | output =>
          refine absurd ?_ hresets
          rw [Variable.isReset, hstorage, hprogram.numbered id var hvar]
          exact List.contains_iff_mem.mpr (hrecorded (by rw [hstorage]; rfl))
  have hcount : function.inputs.length = inputs.length := by
    simpa using (congrArg List.length hinputs).symm
  obtain ⟨bound, bound', hbind, hbind', hbound⟩ := Program.bindRows_congr
    h.input_size hinputs hreset hreset' hothers
  refine ⟨bound, bound', ?_, ?_, hbound.mono fun id hid => ?_⟩
  · rw [Program.bindInputs, if_neg (not_not.mpr hcount)]
    exact hbind
  · rw [Program.bindInputs, if_neg (not_not.mpr hcount)]
    exact hbind'
  · obtain ⟨var, hvar, hspan, hrecorded⟩ := hid
    by_cases hinput : var.storage = .input
    · exact .inr (h.mem_inputs hvar hinput (hrecorded (by rw [hinput]; rfl)))
    · refine .inl ⟨⟨var, hvar, hspan, hrecorded⟩, fun other hother => ?_⟩
      rwa [← Option.some.inj (hvar.symm.trans hother)]

/-- **A call depends on the lasting variables of its function only.**  If these agree, the call
answers the same, and they agree afterwards. -/
lemma run_congr (hfits : memory.Fits program.vars) (hfits' : memory'.Fits program.vars)
    (hagree : memory.Agree (fun id => program.vars.Lasting id ∧ id.Within span) memory')
    {inputs outputs : List (List Float)}
    (hrun : program.run function inputs memory = .ok outputs last) :
    ∃ last', program.run function inputs memory' = .ok outputs last' ∧
      last.Agree (fun id => program.vars.Lasting id ∧ id.Within span) last' := by
  have hinputs : inputs.map List.length = function.inputs.map fun binding => binding.1.size := by
    by_contra hne
    obtain ⟨e, failed, hfailed, -⟩ := h.run_failed hprogram hfits hne
    rw [hrun] at hfailed
    cases hfailed
  obtain ⟨bound, bound', hbind, hbind', hbound⟩ :=
    h.bindInputs_congr hprogram hfits hfits' hagree hinputs
  obtain ⟨_, hbound₁, hruns, hcollect⟩ := Program.run_eq_ok.mp hrun
  obtain ⟨-, rfl⟩ := EStateM.Result.ok.inj (hbind.symm.trans hbound₁)
  -- what the body does on one side it does on the other
  have hsees : ∀ instruction ∈ function.body, ∀ slice ∈ instruction.slices,
      Sees program function span slice.var := by
    intro instruction hmem slice hslice
    obtain ⟨var, hvar, -⟩ := (h.safe instruction hmem).slices slice hslice
    exact ⟨var, hvar, fun _ => h.own instruction hmem slice hslice,
      h.recorded instruction hmem slice hslice var hvar⟩
  obtain ⟨last', hruns', hlast⟩ := hruns.congr hsees hbound
  refine ⟨last', Program.run_eq_ok.mpr ⟨bound', hbind', hruns', ?_⟩, fun id hid => ?_⟩
  · rw [← hcollect]
    refine Program.collectOutputs_congr fun binding hmem => hlast _ ?_
    obtain ⟨hbinding, hstorage⟩ := List.mem_filter.mp hmem
    obtain ⟨hrecorded, var, hvar, hparameter⟩ := h.binding hbinding
    refine ⟨var, hvar, fun hglobal => ?_, fun _ => hrecorded⟩
    have houtput : var.storage = .output := by
      rw [← of_decide_eq_true hstorage, ← hparameter]
      rfl
    cases houtput.symm.trans hglobal
  · obtain ⟨⟨var, hvar, hglobal⟩, hspan⟩ := hid
    refine hlast id ⟨var, hvar, fun _ => hspan, fun hparameter => ?_⟩
    rw [hglobal] at hparameter
    cases hparameter

end Function.Sound

/-! ## Programs of functions that keep to themselves -/

/-- A program whose functions have names and spans of variables of their own. -/
structure Program.Modular (program : Program) (span : String → ℕ × ℕ) : Prop
    extends Program.Regular program where
  distinct : (program.functions.map Function.name).Nodup
  sound : ∀ function ∈ program.functions,
    function.Sound program.vars (span function.name).1 (span function.name).2
  bounded : ∀ function ∈ program.functions, (span function.name).2 ≤ program.vars.size
  apart : ∀ function ∈ program.functions, ∀ other ∈ program.functions,
    function.name ≠ other.name → (span function.name).2 ≤ (span other.name).1 ∨
      (span other.name).2 ≤ (span function.name).1

/-- A machine serves a call, which names a function and has its inputs. -/
def Machine.serve (machine : Machine) (request : String × List (List Float)) :
    Except CallError (List (List Float)) × Machine :=
  machine.call request.1 request.2

/-- The requests that call a function with success, with the answers. -/
def successfulCalls (name : String) (requests : List (String × List (List Float)))
    (answers : List (Except CallError (List (List Float)))) :
    List ((String × List (List Float)) × Except CallError (List (List Float))) :=
  (requests.zip answers).filter fun served => served.1.1 = name ∧ served.2.isOk

lemma Program.function?_eq_some {name : String} (h : program.function? name = some function) :
    function ∈ program.functions ∧ function.name = name :=
  ⟨List.mem_of_find?_eq_some h, by simpa using List.find?_some h⟩

namespace Program.Modular

variable {spans : String → ℕ × ℕ} (h : program.Modular spans)
variable {request : String × List (List Float)}

include h

/-- A function is found by its name. -/
lemma function?_eq (hmem : function ∈ program.functions) :
    program.function? function.name = some function := by
  have hsome : (program.function? function.name).isSome :=
    List.find?_isSome.mpr ⟨function, hmem, decide_eq_true rfl⟩
  obtain ⟨other, hother⟩ := Option.isSome_iff_exists.mp hsome
  obtain ⟨hmem', hname⟩ := Program.function?_eq_some hother
  rw [hother, List.inj_on_of_nodup_map h.distinct hmem' hmem hname]

/-- **One call.**  No call fails for the sake of a slice.  The memory still fits afterwards, and the
variables that last are the same, except that a call that succeeds may change those of its own
function. -/
lemma serve_outcome (hfits : memory.Fits program.vars) (request : String × List (List Float)) :
    ∃ answer last, Machine.serve ⟨program, memory⟩ request = (answer, ⟨program, last⟩) ∧
      (∀ e, answer = .error e → ¬ e.BlamesSlice) ∧
      memory.Changes program.vars (fun id => program.vars.Lasting id → answer.isOk = true ∧
        ∃ function ∈ program.functions, function.name = request.1 ∧
          id.Within (spans function.name)) last := by
  rw [Machine.serve, Machine.call]
  simp only
  cases hfunction : program.function? request.1 with
  | none => exact ⟨_, memory, rfl, fun _ heq => Except.error.inj heq ▸ not_false, .refl hfits⟩
  | some function =>
    obtain ⟨hmem, hname⟩ := function?_eq_some hfunction
    have hsound := h.sound function hmem
    by_cases hinputs :
        request.2.map List.length = function.inputs.map fun binding => binding.1.size
    · obtain ⟨outputs, last, hrun, -, hchanges⟩ := hsound.run_ok h.toRegular hfits hinputs
      simp only [hrun]
      refine ⟨_, last, rfl, fun _ h => (nomatch h), hchanges.mono fun id hid hlasting => ?_⟩
      exact ⟨rfl, function, hmem, hname, hid hlasting⟩
    · obtain ⟨e, last, hrun, hslice, hchanges⟩ := hsound.run_failed h.toRegular hfits hinputs
      simp only [hrun]
      exact ⟨_, last, rfl, fun _ heq => Except.error.inj heq ▸ hslice,
        hchanges.mono fun id hid hlasting => absurd hlasting hid⟩

/-- A call with inputs of the right lengths succeeds, with outputs of the declared lengths. -/
lemma serve_ok (hfits : memory.Fits program.vars) (hmem : function ∈ program.functions)
    {inputs : List (List Float)}
    (hinputs : inputs.map List.length = function.inputs.map fun binding => binding.1.size) :
    ∃ outputs, (Machine.serve ⟨program, memory⟩ (function.name, inputs)).1 = .ok outputs ∧
      outputs.map List.length = function.outputs.map fun binding => binding.1.size := by
  obtain ⟨outputs, last, hrun, hlengths, -⟩ :=
    (h.sound function hmem).run_ok h.toRegular hfits hinputs
  refine ⟨outputs, ?_, hlengths⟩
  rw [Machine.serve, Machine.call]
  simp only [h.function?_eq hmem, hrun]

/-- A call that succeeds depends on the lasting variables of its own function only. -/
lemma serve_congr (hfits : memory.Fits program.vars) (hfits' : memory'.Fits program.vars)
    (hagree : memory.Agree (fun id => program.vars.Lasting id ∧ id.Within (spans request.1))
      memory')
    (hok : (Machine.serve ⟨program, memory⟩ request).1.isOk = true) :
    (Machine.serve ⟨program, memory'⟩ request).1 = (Machine.serve ⟨program, memory⟩ request).1 ∧
      (Machine.serve ⟨program, memory⟩ request).2.memory.Agree
        (fun id => program.vars.Lasting id ∧ id.Within (spans request.1))
        (Machine.serve ⟨program, memory'⟩ request).2.memory := by
  simp only [Machine.serve, Machine.call] at hok ⊢
  cases hfunction : program.function? request.1 with
  | none =>
    rw [hfunction] at hok
    cases hok
  | some function =>
    obtain ⟨hmem, hname⟩ := function?_eq_some hfunction
    rw [hfunction] at hok
    simp only at hok
    cases hrun : program.run function request.2 memory with
    | error e last =>
      rw [hrun] at hok
      cases hok
    | ok outputs last =>
      rw [← hname] at hagree ⊢
      obtain ⟨last', hrun', hlast⟩ :=
        (h.sound function hmem).run_congr h.toRegular hfits hfits' hagree hrun
      simp only [hrun, hrun']
      exact ⟨trivial, hlast⟩

/-- After any calls the memory fits. -/
lemma transcript_fits (hfits : memory.Fits program.vars)
    (requests : List (String × List (List Float))) :
    ∃ last, (transcript Machine.serve ⟨program, memory⟩ requests).2 = ⟨program, last⟩ ∧
      last.Fits program.vars := by
  refine transcript_invariant (P := fun machine : Machine =>
    ∃ last, machine = ⟨program, last⟩ ∧ last.Fits program.vars) ?_ ⟨memory, rfl, hfits⟩ requests
  rintro _ request ⟨memory, rfl, hfits⟩
  obtain ⟨answer, last, hserve, -, hchanges⟩ := h.serve_outcome hfits request
  exact ⟨last, by rw [hserve], hchanges.fits⟩

/-- **Functions do not see each other's calls.**  The successful calls of a function have the same
answers if no other calls are made, and leave the lasting variables of the function the same. -/
lemma transcript_alone (hmem : function ∈ program.functions) (hfits : memory.Fits program.vars)
    (hfits' : memory'.Fits program.vars) (hagree : memory.Agree
      (fun id => program.vars.Lasting id ∧ id.Within (spans function.name)) memory')
    (requests : List (String × List (List Float))) :
    let run := transcript Machine.serve ⟨program, memory⟩ requests
    let own := successfulCalls function.name requests run.1
    let alone := transcript Machine.serve ⟨program, memory'⟩ (own.map Prod.fst)
    alone.1 = own.map Prod.snd ∧
      run.2.memory.Agree (fun id => program.vars.Lasting id ∧ id.Within (spans function.name))
        alone.2.memory := by
  induction requests generalizing memory memory' with
  | nil => exact ⟨rfl, hagree⟩
  | cons request rest ih =>
    obtain ⟨answer, last, hserve, -, hchanges⟩ := h.serve_outcome hfits request
    by_cases hown : request.1 = function.name ∧ answer.isOk = true
    · -- the call is made on both sides
      obtain ⟨hname, hok⟩ := hown
      obtain ⟨answer', last', hserve', -, hchanges'⟩ := h.serve_outcome hfits' request
      obtain ⟨hanswer, hnext⟩ :=
        h.serve_congr hfits hfits' (hname ▸ hagree) (by rw [hserve]; exact hok)
      rw [hserve, hserve'] at hanswer hnext
      simp only at hanswer hnext
      subst hanswer
      obtain ⟨hanswers, hlast⟩ := ih hchanges.fits hchanges'.fits (hname ▸ hnext)
      simp only [transcript_cons, hserve, successfulCalls, List.zip_cons_cons, List.filter_cons,
        hname, hok, and_self, decide_true, if_true, List.map_cons, hserve']
      exact ⟨congrArg _ hanswers, hlast⟩
    · -- the call is made on one side only, and changes nothing that counts
      have hskip : last.Agree
          (fun id => program.vars.Lasting id ∧ id.Within (spans function.name)) memory' := by
        rintro id ⟨hlasting, hspan⟩
        rw [hagree id ⟨hlasting, hspan⟩]
        refine (hchanges.frame id fun hchanged => ?_).symm
        obtain ⟨hok, other, hother, hname, hwithin⟩ := hchanged hlasting
        have hne : function.name ≠ other.name := fun heq => hown ⟨heq ▸ hname.symm, hok⟩
        obtain ⟨hlow, hhigh⟩ := hspan
        obtain ⟨hlow', hhigh'⟩ := hwithin
        rcases h.apart function hmem other hother hne with hle | hle <;> omega
      obtain ⟨hanswers, hlast⟩ := ih hchanges.fits hfits' hskip
      simp only [transcript_cons, hserve, successfulCalls, List.zip_cons_cons, List.filter_cons,
        hown, decide_false]
      exact ⟨hanswers, hlast⟩

end Program.Modular

end Dataflow
