import Dataflow.Proofs.Compiler.Parameters

/-!
# Compiled models

What a successful compilation leaves behind (`compile_ok_written`): every port has a variable of its
own behind those that were there before, the function's body is the code of the nodes in turn, and
the function's parameters are the inputs and outputs of the model.  The parameters stand for the
variables of their ports unless variables are left over that answer to them; on a compiler that has
committed everything none are (`Written.compiled`).
-/

namespace Dataflow

open Attempt

/-- A function that a model has been compiled to, with the variables of the ports.  The first `old`
variables belong to other functions. -/
structure Compiled (model : Model) (vars : VariableTable) (old : ℕ)
    (place : PortId → Option VarId) (function : Function) : Prop where
  numbered : ∀ id var, vars.get? id = some var → var.id = id
  word : ∀ id var, vars.get? id = some var → var.size < Word.count
  room : ∀ id id' var var', id ≠ id' → vars.get? id = some var → vars.get? id' = some var' →
    var.size + var'.size < Word.count
  home : ∀ port id, place port = some id → ∃ node var,
    model.nodes[port.index]? = some node ∧ vars.get? id = some var ∧ Home node var
  injective : ∀ port port' id, place port = some id → place port' = some id → port = port'
  own : ∀ port id, place port = some id → old ≤ id.index
  code : ∃ codes : List (List Instruction), function.body = codes.flatten ∧
    List.Forall₂ (fun node code => ∃ id, place node.port.id = some id ∧
      NodeCode model vars old place node id code) model.nodes.toList codes
  admissible : ∀ instruction ∈ function.body, Instruction.Admissible vars instruction
  bindings : List.Forall₂ (fun entry binding => binding.1 = Compiler.parameterOf entry.1 entry.2 ∧
    place entry.2.id = some binding.2) model.roster function.bindings

namespace Compiler

variable {model : Model} {name : String} {c d last : Compiler Assembler} {function : Function}

/-- Beginning a function changes neither variables nor bindings. -/
lemma beginFunction_ok (hc : c.backend.Tidy) {parameters : List Parameter}
    (h : onBackend (Backend.beginFunction name parameters) c = .ok () d) :
    ∃ vars, parameters.mapM c.backend.variableFor = .ok vars ∧
      c.backend.program.function? name = none ∧ d.scopes = c.scopes ∧ d.backend.Tidy ∧
      d.backend = c.backend.withPending ⟨name, parameters, vars, .empty c.backend.policy⟩ := by
  obtain ⟨backend, hbackend, rfl⟩ := onBackend_change_eq_ok.mp h
  obtain ⟨-, hnew, vars, hvars, rfl⟩ := Assembler.beginFunction_eq_ok.mp hbackend
  exact ⟨vars, hvars, hnew, rfl,
    { hc with sound := fun _ h => Option.some.inj h ▸ RegionTable.Sound.empty _ }, rfl⟩

/-- What is known of a function and a compiler that has compiled a model into it, given how the
compiler was before. -/
structure Written (model : Model) (name : String) (c : Compiler Assembler) (function : Function)
    (d : Compiler Assembler) : Prop where
  layout : Scoped model model.nodes.size d
  own : ∀ port id, d.variableOf? port = some id → c.backend.vars.size ≤ id.index
  laid : ∃ codes : List (List Instruction), function.body = codes.flatten ∧
    Laid model d.backend.vars d.variableOf? (c.backend.vars.size + model.roster.length)
      model.nodes.toList codes d.backend.vars.size
  admissible : ∀ instruction ∈ function.body, Instruction.Admissible d.backend.vars instruction
  named : function.name = name
  new : c.backend.program.function? name = none
  parameters : function.parameters = model.roster.map fun entry => parameterOf entry.1 entry.2
  enrolled : ∀ (i : ℕ) (entry : StorageClass × OutputPort), model.roster[i]? = some entry →
    d.variableOf? entry.2.id = some ⟨c.backend.vars.size + i⟩ ∧
    ∃ var, d.backend.vars.get? ⟨c.backend.vars.size + i⟩ = some var ∧
      var.toParameter = parameterOf entry.1 entry.2
  found : List.Forall₂ (fun entry id => d.variableOf? entry.2.id = some id ↔
    ∀ var ∈ c.backend.uncommitted, var.answers (parameterOf entry.1 entry.2) = false)
      model.roster function.vars
  table : c.backend.vars.Prefix d.backend.vars
  allocated : ∀ id var, c.backend.vars.size ≤ id.index → d.backend.vars.get? id = some var →
    var.allocated = true
  stocked : c.backend.Stocked → d.backend.Stocked
  limit : d.backend.limit = c.backend.limit

/-- The body is the code of the nodes in turn. -/
lemma Written.code (h : Written model name c function d) :
    ∃ codes : List (List Instruction), function.body = codes.flatten ∧
      List.Forall₂ (Places model c.backend.vars.size d) model.nodes.toList codes := by
  obtain ⟨codes, hbody, hlaid⟩ := h.laid
  exact ⟨codes, hbody, hlaid.places (Nat.le_add_right _ _)⟩

/-- What is found for the parameters of a roster, if variables were left over. -/
lemma Enrolled.forall_found (h : Enrolled c.backend.vars.size model.roster d)
    (hmodel : model.WellFormed) (hc : c.backend.Tidy) (hstep : c.backend.Step [] d.backend)
    (hcommitted : c.backend.committed.vars ≤ c.backend.vars.size) {vars : List VarId}
    (hvars : (model.roster.map fun entry => parameterOf entry.1 entry.2).mapM
      d.backend.variableFor = .ok vars) :
    List.Forall₂ (fun entry id => d.variableOf? entry.2.id = some id ↔
      ∀ var ∈ c.backend.uncommitted, var.answers (parameterOf entry.1 entry.2) = false)
      model.roster vars := by
  -- what is not committed now are the variables left over and those of the roster
  have huncommitted : d.backend.uncommitted =
      c.backend.uncommitted ++ d.backend.vars.toList.drop c.backend.vars.size := by
    obtain ⟨more, hmore⟩ := hstep.vars
    have hlength := c.backend.vars.length_toList
    rw [Assembler.uncommitted, Assembler.uncommitted, hstep.committed_eq, ← hmore,
      List.drop_append_of_le_length (by omega), ← hlength, List.drop_left]
  have hleftover : ∀ var ∈ c.backend.uncommitted, var.id.index < c.backend.vars.size := by
    intro var hvar
    obtain ⟨i, hi⟩ := List.getElem?_of_mem (List.mem_of_mem_drop hvar)
    have hget : c.backend.vars.get? ⟨i⟩ = some var := by rwa [VariableTable.get?_eq]
    rw [hc.numbered _ var hget]
    exact c.backend.vars.lt_size_of_get? hget
  have hfound := List.forall₂_map_left_iff.mp (Except.mapM_eq_ok.mp hvars)
  refine List.forall₂_iff_get.mpr ⟨hfound.length_eq, fun i hi hi' => ?_⟩
  exact h.variableFor_iff hmodel huncommitted hleftover (List.getElem?_eq_getElem hi)
    (hfound.get hi hi')

lemma compileOpen_ok (hmodel : model.WellFormed) (hc : c.backend.Tidy) (hscopes : c.scopes = .root)
    (hcommitted : c.backend.committed.vars ≤ c.backend.vars.size) {parameters : List Parameter}
    (h : compileOpen model name c = .ok parameters d) :
    ∃ pending, d.backend.pending = some pending ∧ pending.parameters = parameters ∧
      Written model name c pending.finish d ∧
      d.backend.program.functions = c.backend.program.functions := by
  obtain ⟨_, c₁, hnotify, h₁⟩ := bind_eq_ok.mp h
  obtain ⟨_, c₂, hparameters, h₂⟩ := bind_eq_ok.mp h₁
  obtain ⟨_, c₃, hbegin, h₃⟩ := bind_eq_ok.mp h₂
  obtain ⟨_, c₄, hnodes, h₄⟩ := bind_eq_ok.mp h₃
  obtain ⟨_, _, hend, h₅⟩ := bind_eq_ok.mp h₄
  obtain ⟨rfl, rfl⟩ := EStateM.Result.ok.inj h₅
  -- the parameters
  obtain rfl : c = c₁ := (EStateM.Result.ok.inj hnotify).2
  obtain ⟨henrolled, hstep₂, rfl⟩ := allocateParameters_ok (enrolled_nil hc hscopes) hparameters
  -- the function
  obtain ⟨vars, hvars, hnew, hscopes₃, htidy₃, hbackend₃⟩ :=
    beginFunction_ok henrolled.tidy (onBehalfOf_eq_ok.mp hbegin)
  have hvars₃ : c₃.backend.vars = c₂.backend.vars := by rw [hbackend₃]; rfl
  have hlookup₃ : c₃.variableOf? = c₂.variableOf? := by
    funext port
    rw [variableOf?, variableOf?, hscopes₃]
  have hscoped₃ : Scoped model 0 c₃ :=
    (henrolled.scoped hmodel).step htidy₃ (hvars₃ ▸ .refl _) hscopes₃
  -- the nodes
  obtain ⟨codes, hscoped₄, hcontinues, hcodes⟩ :=
    compileNodes_ok hmodel.numbered hscoped₃ List.drop_zero hnodes
  obtain rfl : c₄ = _ := (EStateM.Result.ok.inj hend).2
  have htable : c₂.backend.vars.Prefix c₄.backend.vars := hvars₃ ▸ hcontinues.backend.vars
  have hsize : c.backend.vars.size ≤ c₃.backend.vars.size := hvars₃ ▸ hstep₂.vars.size_le
  obtain ⟨pending, hpending, hheader⟩ :=
    Option.map_eq_some_iff.mp (hcontinues.backend.pending_eq.trans (by rw [hbackend₃]; rfl))
  simp only [Prod.mk.injEq] at hheader
  obtain ⟨hname, hparameters', hvars'⟩ := hheader
  have hcode : pending.finish.body = codes.flatten := by
    have hadded := hcontinues.backend.code
    rw [Assembler.code, hpending, hbackend₃] at hadded
    exact hadded
  have hbound : ∀ (i : ℕ) (entry : StorageClass × OutputPort), model.roster[i]? = some entry →
      c₄.variableOf? entry.2.id = some ⟨c.backend.vars.size + i⟩ := fun i entry hentry =>
    hcontinues.keeps _ _ (hlookup₃ ▸ henrolled.variableOf?_eq hmodel hentry)
  have hfunctions : c₄.backend.program.functions = c.backend.program.functions := by
    rw [hcontinues.backend.functions_eq, hbackend₃]
    exact hstep₂.functions_eq
  refine ⟨pending, hpending, hparameters', ?_, hfunctions⟩
  exact {
    layout := by rwa [Nat.zero_add, Array.length_toList] at hscoped₄
    own := fun port id hid => by
      rcases hcontinues.only port id hid with hold | hnewer
      · rw [hlookup₃] at hold
        obtain ⟨i, -, -, -, rfl⟩ := henrolled.bound port id hold
        exact Nat.le_add_right _ i
      · exact hsize.trans hnewer
    laid := ⟨codes, hcode, by rwa [← henrolled.size, ← hvars₃]⟩
    admissible := hcode ▸ hcontinues.backend.admissible
    named := hname
    new := by rw [← hnew, Program.function?, Program.function?, hstep₂.functions_eq]
    parameters := hparameters'
    enrolled := fun i entry hentry => by
      obtain ⟨var, hvar, hparameter, -⟩ := henrolled.vars i entry hentry
      exact ⟨hbound i entry hentry, var, htable.get? hvar, hparameter⟩
    found := by
      show List.Forall₂ _ _ pending.vars
      rw [hvars']
      have hfound := henrolled.forall_found hmodel hc hstep₂ hcommitted hvars
      refine List.forall₂_iff_get.mpr ⟨hfound.length_eq, fun i hi hi' => ?_⟩
      -- the port has kept its variable
      have hentry := List.getElem?_eq_getElem hi
      have hiff := hfound.get hi hi'
      rw [List.get_eq_getElem, henrolled.variableOf?_eq hmodel hentry] at hiff
      rw [List.get_eq_getElem, hbound i _ hentry]
      exact hiff
    table := hstep₂.vars.trans htable
    allocated := fun id var hid hvar => by
      by_cases hlt : id.index < c₂.backend.vars.size
      · obtain ⟨old, hold⟩ := c₂.backend.vars.exists_get? hlt
        obtain rfl : old = var := Option.some.inj ((htable.get? hold).symm.trans hvar)
        exact hstep₂.allocated id old hid hold
      · exact hcontinues.backend.allocated id var (hvars₃ ▸ not_lt.mp hlt) hvar
    stocked := fun hstocked => hcontinues.backend.stocked <| by
      rw [hbackend₃]
      exact { hstep₂.stocked hstocked with }
    limit := by
      rw [hcontinues.backend.limit_eq, hbackend₃]
      exact hstep₂.limit_eq }

/-- A compilation that succeeds adds the function to the program. -/
lemma compile_ok_written (hmodel : model.WellFormed) (hc : c.backend.Tidy)
    (hcommitted : c.backend.committed.vars ≤ c.backend.vars.size) {answer : CompiledFunction}
    (h : compile model name c = .ok answer last) :
    ∃ function, last.backend.program.functions = c.backend.program.functions ++ [function] ∧
      Written model name c function last ∧
      answer = ⟨name, function.parameters, model.nodes.size⟩ := by
  obtain ⟨parameters, opened, backend, hopen, hend, rfl, rfl⟩ := compile_eq_ok h
  obtain ⟨pending, hpending, rfl, hwritten, hfunctions⟩ :=
    compileOpen_ok (c := c.enter name) hmodel hc rfl hcommitted hopen
  obtain ⟨pending', hpending', rfl⟩ := Assembler.endFunction_eq_ok.mp hend
  obtain rfl : pending = pending' := Option.some.inj (hpending.symm.trans hpending')
  refine ⟨pending.finish, congrArg (· ++ [pending.finish]) hfunctions, { hwritten with
    layout := hwritten.layout.step ⟨hwritten.layout.tidy.numbered, fun _ h => (nomatch h)⟩
      (.refl _) rfl
    stocked := fun hstocked => { hwritten.stocked hstocked with } }, rfl⟩

/-- The bindings of a function, if nothing was left over. -/
lemma Written.bindings (h : Written model name c function d)
    (hsettled : c.backend.uncommitted = []) :
    List.Forall₂ (fun entry binding => binding.1 = parameterOf entry.1 entry.2 ∧
      d.variableOf? entry.2.id = some binding.2) model.roster function.bindings := by
  have hfound := h.found
  simp only [hsettled, List.not_mem_nil, false_imp_iff, implies_true, iff_true] at hfound
  rw [Function.bindings, h.parameters]
  revert hfound
  generalize model.roster = roster
  generalize function.vars = vars
  intro hfound
  induction hfound with
  | nil => exact .nil
  | cons hid _ ih => exact .cons ⟨rfl, hid⟩ ih

lemma Written.compiled (h : Written model name c function d) (hstocked : c.backend.Stocked)
    (hsettled : c.backend.uncommitted = []) (hlimit : c.backend.limit < Word.count) :
    Compiled model d.backend.vars c.backend.vars.size d.variableOf? function where
  numbered := h.layout.tidy.numbered
  word _ _ hvar := ((h.stocked hstocked).size_le hvar).trans_lt (h.limit.trans_lt hlimit)
  room _ _ _ _ hne hvar hvar' :=
    ((h.stocked hstocked).size_add_size_le hne hvar hvar').trans_lt (h.limit.trans_lt hlimit)
  home := h.layout.home
  injective := h.layout.injective
  own := h.own
  code := h.code
  admissible := h.admissible
  bindings := h.bindings hsettled

/-- A compilation that succeeds on a fresh compiler leaves the compiled model in its program. -/
lemma compile_ok_compiled (hmodel : model.WellFormed) {program : String} {policy : MergePolicy}
    {limit : ℕ} (hlimit : limit < Word.count) {options : Options} {answer : CompiledFunction}
    (h : compile model name (fresh (Assembler.fresh program policy limit) options) =
      .ok answer last) :
    ∃ function, last.backend.program.function? name = some function ∧
      Compiled model last.backend.vars 0 last.variableOf? function := by
  obtain ⟨function, hfunctions, hwritten, -⟩ :=
    compile_ok_written hmodel (.fresh program policy limit) (le_refl _) h
  refine ⟨function, ?_, hwritten.compiled (.fresh program policy limit) rfl hlimit⟩
  have hfunctions' : last.backend.program.functions = [function] := hfunctions
  rw [Program.function?, hfunctions', List.find?_singleton]
  simp [hwritten.named]

end Compiler
end Dataflow
