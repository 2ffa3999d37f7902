import Dataflow.Proofs.Correctness.Coupled

/-!
# Calls of rewired models

Two models that differ in what feeds one node are compiled, and two machines serve the same requests
with them.  Between two calls only constants and running sums count, and the machines are *paired*
if these are coupled (`Paired`).  They stay paired from call to call (`Paired.serve`).  If all ports
are coupled, the machines also give the same answers (`Paired.answers_eq`).
-/

namespace Dataflow

variable {model model' : Model} {program program' : Program} {name : String}
variable {place place' : PortId → Option VarId} {function function' : Function}
variable {vars vars' : VariableTable} {memory memory' next next' : Memory}
variable {node node' : Node} {i bound : ℕ} {rows : List (List Float)}

/-! ## Storing inputs -/

/-- Why inputs cannot be stored depends on the parameters and on the inputs only. -/
lemma bindRows_error_eq {bindings bindings' : List (Parameter × VarId)}
    (hsame : bindings'.map Prod.fst = bindings.map Prod.fst)
    (hvars : ∀ binding ∈ bindings, ∃ var, vars.get? binding.2 = some var ∧
      var.size = binding.1.size)
    (hvars' : ∀ binding ∈ bindings', ∃ var, vars'.get? binding.2 = some var ∧
      var.size = binding.1.size) {rows : List (List Float)} (hfits : memory.Fits vars)
    (hfits' : memory'.Fits vars') {e e' : CallError}
    (h : ((bindings.zip rows).forM fun entry =>
      Program.bindInput entry.1.1 entry.1.2 entry.2) memory = .error e next)
    (h' : ((bindings'.zip rows).forM fun entry =>
      Program.bindInput entry.1.1 entry.1.2 entry.2) memory' = .error e' next') : e' = e := by
  induction bindings generalizing bindings' rows memory memory' with
  | nil => cases h
  | cons binding rest ih =>
    obtain ⟨binding', rest', rfl⟩ := List.exists_cons_of_ne_nil (l := bindings') (by
      rintro rfl
      cases hsame)
    obtain ⟨hfirst, hrest⟩ := List.cons.inj hsame
    cases rows with
    | nil => cases h
    | cons row rows =>
      obtain ⟨hvar, hvars⟩ := List.forall_mem_cons.mp hvars
      obtain ⟨hvar', hvars'⟩ := List.forall_mem_cons.mp hvars'
      by_cases hlength : row.length = binding.1.size
      · have hlength' : row.length = binding'.1.size := by rw [hfirst, hlength]
        obtain ⟨stored, hstore, hchanges⟩ := Program.bindInput_ok hvar hlength hfits
        obtain ⟨stored', hstore', hchanges'⟩ := Program.bindInput_ok hvar' hlength' hfits'
        exact ih hrest hvars hvars' hchanges.fits hchanges'.fits
          ((Execution.bind_run hstore).symm.trans h) ((Execution.bind_run hstore').symm.trans h')
      · have hlength' : row.length ≠ binding'.1.size := by rwa [hfirst]
        have hfailed := (Execution.bind_failed (Program.bindInput_failed hlength)).symm.trans h
        have hfailed' := (Execution.bind_failed (Program.bindInput_failed hlength')).symm.trans h'
        obtain ⟨rfl, -⟩ := EStateM.Result.error.inj hfailed
        obtain ⟨rfl, -⟩ := EStateM.Result.error.inj hfailed'
        rw [hfirst]

/-- Two functions with the same parameters refuse inputs for the same reason. -/
lemma bindInputs_error_eq (hname : function'.name = function.name)
    (hsame : function'.inputs.map Prod.fst = function.inputs.map Prod.fst) {low high low' high' : ℕ}
    (hsound : function.Sound vars low high) (hsound' : function'.Sound vars' low' high')
    (hfits : memory.Fits vars) (hfits' : memory'.Fits vars') {e e' : CallError}
    (h : Program.bindInputs function rows memory = .error e next)
    (h' : Program.bindInputs function' rows memory' = .error e' next') : e' = e := by
  have hlength : function'.inputs.length = function.inputs.length := by
    simpa using congrArg List.length hsame
  rw [Program.bindInputs] at h h'
  by_cases hcount : function.inputs.length = rows.length
  · rw [if_neg (not_not.mpr hcount)] at h
    rw [if_neg (not_not.mpr (hlength.trans hcount))] at h'
    exact bindRows_error_eq hsame hsound.input_size hsound'.input_size hfits hfits' h h'
  · rw [if_pos hcount] at h
    rw [if_pos (hlength ▸ hcount)] at h'
    obtain ⟨rfl, -⟩ := EStateM.Result.error.inj h
    obtain ⟨rfl, -⟩ := EStateM.Result.error.inj h'
    rw [hname, hlength]

/-- A port below a bound whose row lasts from call to call. -/
def Model.Lasting (model : Model) (bound j : ℕ) : Prop :=
  j < bound ∧ ∃ node, model.nodes[j]? = some node ∧ node.Lasts

lemma Node.Lasts.storage (h : node.Lasts) : node.kind.storage = .global := by
  rcases h with h | ⟨_, h⟩ <;> rw [h] <;> rfl

/-- A row that lasts is not reset. -/
lemma Home.isReset_eq_false {var : Variable} (h : Home node var) (hlasts : node.Lasts) :
    var.isReset function = false := by
  rw [Variable.isReset, h.storage, hlasts.storage]

namespace Deployed

/-- Inputs and outputs stand for parameters of the function. -/
lemma recorded (d : Deployed model program name place function) {k : ℕ}
    (hnode : model.nodes[k]? = some node) (hstorage : node.kind.storage ≠ .global) {id : VarId}
    (hid : place ⟨k⟩ = some id) : id ∈ function.vars := by
  have hentry : (node.kind.storage, node.port) ∈ model.roster :=
    Model.mem_roster.mpr ⟨node, Model.mem_nodes hnode, rfl, hstorage⟩
  obtain ⟨j, hj⟩ := List.getElem?_of_mem hentry
  obtain ⟨hlt, hget⟩ := List.getElem?_eq_some_iff.mp hj
  obtain ⟨hlength, hall⟩ := List.forall₂_iff_get.mp d.compiled.bindings
  obtain ⟨-, hplace⟩ := hall j hlt (hlength ▸ hlt)
  rw [List.get_eq_getElem, hget, d.wellFormed.numbered.port_id hnode, hid] at hplace
  have hmem : (function.bindings.get ⟨j, hlength ▸ hlt⟩) ∈ function.bindings := List.get_mem ..
  rw [Option.some.inj hplace]
  exact (List.of_mem_zip hmem).2

/-- Outputs are reset before each call. -/
lemma isReset_output (d : Deployed model program name place function) {k : ℕ}
    (hnode : model.nodes[k]? = some node) (hkind : node.kind = .output) {id : VarId}
    (hid : place ⟨k⟩ = some id) {var : Variable} (hvar : program.vars.get? id = some var)
    (hhome : Home node var) : var.isReset function = true := by
  have hrecorded : id ∈ function.vars := d.recorded hnode (by rw [hkind]; decide) hid
  rw [Variable.isReset, hhome.storage, hkind]
  rw [d.compiled.numbered id var hvar]
  exact List.contains_iff_mem.mpr hrecorded

variable (d : Deployed model program name place function)
variable (d' : Deployed model' program' name place' function')
variable (hrewired : model.Rewired model' i)

include d d' hrewired

lemma inputs_eq : function'.inputs.map Prod.fst = function.inputs.map Prod.fst := by
  have hinputs {model : Model} {vars : VariableTable} {place : PortId → Option VarId}
      {function : Function} (h : Compiled model vars 0 place function) :
      function.inputs.map Prod.fst = model.inputPorts.map (Compiler.parameterOf .input) := by
    have hall : List.Forall₂ Eq (function.inputs.map Prod.fst)
        (model.inputPorts.map (Compiler.parameterOf .input)) := by
      rw [List.forall₂_map_left_iff, List.forall₂_map_right_iff]
      exact h.inputs.flip.imp fun _ _ hbinding => hbinding.1
    rwa [List.forall₂_eq_eq_eq] at hall
  rw [hinputs d.compiled, hinputs d'.compiled, hrewired.inputPorts_eq]

/-- Once the inputs are stored, ports that have a row from the beginning are coupled. -/
lemma begin_coupled (haccepts : model.Accepts rows) (hfits : memory.Fits program.vars)
    (hfits' : memory'.Fits program'.vars)
    (hcoupled : Coupled place place' (model.Lasting bound) memory memory') :
    ∃ next next', Program.bindInputs function rows (program.reset function memory) = .ok () next ∧
      Program.bindInputs function' rows (program'.reset function' memory') = .ok () next' ∧
      next.Fits program.vars ∧ next'.Fits program'.vars ∧
      Coupled place place' (model.Known bound 0) next next' := by
  obtain ⟨next, hbind, hfitsNext, hports⟩ := d.compiled.begin_ok d.wellFormed haccepts hfits
  obtain ⟨next', hbind', hfitsNext', hports'⟩ :=
    d'.compiled.begin_ok d'.wellFormed (hrewired.accepts_iff.mpr haccepts) hfits'
  refine ⟨next, next', hbind, hbind', hfitsNext, hfitsNext', ?_⟩
  rintro j ⟨hj, hlt | ⟨node, hnode, hbegins⟩⟩ id id' hid hid'
  · exact absurd hlt (Nat.not_lt_zero j)
  obtain ⟨node', hnode', hbare⟩ := hrewired.exists_node hnode
  obtain ⟨hkind, htype, hsize, hport⟩ := Node.of_bare_eq hbare
  obtain ⟨hinput, hother⟩ := hports j node id hnode hid
  obtain ⟨hinput', hother'⟩ := hports' j node' id' hnode' hid'
  by_cases hsupplied : node.kind = .input
  · rw [hinput hsupplied, hinput' (hkind.trans hsupplied), hrewired.inputPorts_eq, hport, htype]
  obtain ⟨var, hvar, hhome, hget⟩ := hother hsupplied
  obtain ⟨var', hvar', hhome', hget'⟩ := hother' (hkind ▸ hsupplied)
  rcases hbegins with hlasts | hinput | houtput
  · have hlasts' : node'.Lasts := by rwa [Node.Lasts, hkind]
    rw [hget, hget', hhome.isReset_eq_false hlasts, hhome'.isReset_eq_false hlasts']
    exact hcoupled j ⟨hj, node, hnode, hlasts⟩ id id' hid hid'
  · exact absurd hinput hsupplied
  · -- outputs begin with zeros
    have houtput' := hkind.trans houtput
    rw [hget, hget', d.isReset_output hnode houtput hid hvar hhome,
      d'.isReset_output hnode' houtput' hid' hvar' hhome', if_pos rfl, if_pos rfl,
      Variable.initialContents_zero (hhome.zero (.inr houtput)),
      Variable.initialContents_zero (hhome'.zero (.inr houtput')), hhome.size, hhome'.size,
      hhome.elementType, hhome'.elementType, hsize, htype]

/-- If all ports are coupled, so are the outputs. -/
lemma collect_coupled (hfits : memory.Fits program.vars)
    (hcoupled : Coupled place place' (· < model.nodes.size) memory memory') :
    ∃ outputs, Program.collectOutputs function memory = .ok outputs ∧
      Program.collectOutputs function' memory' = .ok outputs := by
  let row : OutputPort → List Float := fun port => ((place port.id).bind memory.get?).getD []
  have hget {id : VarId} {port : PortId} (hid : place port = some id) :
      memory.get? id = some (((place port).bind memory.get?).getD []) := by
    obtain ⟨_, var, -, hvar, -⟩ := d.compiled.home port id hid
    obtain ⟨contents, hcontents, -⟩ := hfits.holds id var hvar
    rw [hid, Option.bind_some, hcontents, Option.getD_some]
  refine ⟨model.outputPorts.map row, collectOutputs_eq ?_, ?_⟩
  · exact d.compiled.outputs.imp fun port binding hbinding => hget hbinding.2
  · rw [← hrewired.outputPorts_eq]
    refine collectOutputs_eq (d'.compiled.outputs.imp fun port binding hbinding => ?_)
    obtain ⟨other, var, hother, -⟩ := d'.compiled.home port.id binding.2 hbinding.2
    have hlt : port.id.index < model.nodes.size := by
      rw [← hrewired.size_eq]
      exact (Array.getElem?_eq_some_iff.mp hother).1
    obtain ⟨id, hid⟩ := d.placed (Array.getElem?_eq_getElem hlt)
    exact (hcoupled _ hlt id binding.2 hid hbinding.2).trans (hget hid)

/-- A call that is refused on one side is refused on the other one, for the same reason. -/
lemma call_failed (hrefused : ¬ model.Accepts rows) (hfits : memory.Fits program.vars)
    (hfits' : memory'.Fits program'.vars)
    (hcoupled : Coupled place place' (model.Lasting bound) memory memory') :
    ∃ e last last', program.run function rows memory = .error e last ∧
      program'.run function' rows memory' = .error e last' ∧
      last.Fits program.vars ∧ last'.Fits program'.vars ∧
      Coupled place place' (model.Lasting bound) last last' := by
  obtain ⟨_, _, hsound⟩ := d.sound
  obtain ⟨_, _, hsound'⟩ := d'.sound
  have hsizes : rows.map List.length ≠ function.inputs.map fun binding => binding.1.size := by
    rwa [← d.compiled.input_sizes]
  have hsizes' : rows.map List.length ≠ function'.inputs.map fun binding => binding.1.size := by
    rw [← d'.compiled.input_sizes]
    exact fun haccepts => hrefused (hrewired.accepts_iff.mp haccepts)
  obtain ⟨e, last, hbind, -, hchanges⟩ := hsound.bindInputs_failed d.regular hfits hsizes
  obtain ⟨e', last', hbind', -, hchanges'⟩ := hsound'.bindInputs_failed d'.regular hfits' hsizes'
  obtain rfl : e' = e := bindInputs_error_eq (d'.named.trans d.named.symm) (d.inputs_eq d' hrewired)
    hsound hsound' (d.regular.reset_changes function hfits).fits
    (d'.regular.reset_changes function' hfits').fits hbind hbind'
  refine ⟨e', last, last', Program.run_eq_error hbind, Program.run_eq_error hbind', hchanges.fits,
    hchanges'.fits, hcoupled.congr (fun j hj id hid => ?_) fun j hj id' hid' => ?_⟩
  · obtain ⟨-, node, hnode, hlasts⟩ := hj
    obtain ⟨var, hvar, hhome⟩ := d.compiled.variable_of hnode hid
    exact hchanges.frame id (not_not.mpr ⟨var, hvar, hhome.storage.trans hlasts.storage⟩)
  · obtain ⟨-, node, hnode, hlasts⟩ := hj
    obtain ⟨node', hnode', hbare⟩ := hrewired.exists_node hnode
    obtain ⟨var, hvar, hhome⟩ := d'.compiled.variable_of hnode' hid'
    refine hchanges'.frame id' (not_not.mpr ⟨var, hvar, ?_⟩)
    rw [hhome.storage, (Node.of_bare_eq hbare).1, hlasts.storage]

variable (hnode : model.Computes i node) (hnode' : model'.Computes i node')
variable (hrow : i < bound → ∀ values,
  node'.row model'.gathered values [] [] = node.row model.gathered values [] [])

include hnode hnode' hrow

/-- A call that succeeds on one side succeeds on the other one, and couples all ports below the
bound. -/
lemma call_ok (haccepts : model.Accepts rows) (hfits : memory.Fits program.vars)
    (hfits' : memory'.Fits program'.vars)
    (hcoupled : Coupled place place' (model.Lasting bound) memory memory') :
    ∃ outputs outputs' last last', program.run function rows memory = .ok outputs last ∧
      program'.run function' rows memory' = .ok outputs' last' ∧
      last.Fits program.vars ∧ last'.Fits program'.vars ∧
      Coupled place place' (model.Known bound model.nodes.size) last last' ∧
      (model.nodes.size ≤ bound → outputs' = outputs) := by
  obtain ⟨_, _, hsound⟩ := d.sound
  obtain ⟨_, _, hsound'⟩ := d'.sound
  obtain ⟨start, start', hbind, hbind', hfits, hfits', hcoupled⟩ :=
    d.begin_coupled d' hrewired haccepts hfits hfits' hcoupled
  obtain ⟨codes, hbody, hcodes⟩ := d.compiled.code
  obtain ⟨codes', hbody', hcodes'⟩ := d'.compiled.code
  obtain ⟨last, last', hruns, hruns', hfits, hfits', hcoupled⟩ := d.run_coupled d' hrewired hnode
    hnode' hrow List.drop_zero List.drop_zero hcodes hcodes' (fun _ h => hbody ▸ h)
    (fun _ h => hbody' ▸ h) hfits hfits' hcoupled
  rw [← hbody] at hruns
  rw [← hbody'] at hruns'
  rw [Nat.zero_add, Array.length_toList] at hcoupled
  obtain ⟨outputs, hcollect, -⟩ :=
    Program.collectOutputs_ok (fun _ hmem => hsound.output hmem) hfits
  obtain ⟨outputs', hcollect', -⟩ :=
    Program.collectOutputs_ok (fun _ hmem => hsound'.output hmem) hfits'
  refine ⟨outputs, outputs', last, last', Program.run_eq_ok.mpr ⟨start, hbind, hruns, hcollect⟩,
    Program.run_eq_ok.mpr ⟨start', hbind', hruns', hcollect'⟩, hfits, hfits', hcoupled,
    fun hbound => ?_⟩
  obtain ⟨same, hsame, hsame'⟩ := d.collect_coupled d' hrewired hfits
    (hcoupled.mono fun j hj => ⟨hj.trans_le hbound, .inl hj⟩)
  rw [Except.ok.inj (hcollect.symm.trans hsame), Except.ok.inj (hcollect'.symm.trans hsame')]

end Deployed

/-! ## Two machines -/

/-- Two machines between calls: what lasts is coupled. -/
structure Paired (model : Model) (program program' : Program) (place place' : PortId → Option VarId)
    (bound : ℕ) (machine machine' : Machine) : Prop where
  left : machine.program = program
  right : machine'.program = program'
  fits : machine.memory.Fits program.vars
  fits' : machine'.memory.Fits program'.vars
  coupled : Coupled place place' (model.Lasting bound) machine.memory machine'.memory

section

variable (d : Deployed model program name place function)
variable (d' : Deployed model' program' name place' function')
variable (hrewired : model.Rewired model' i)

include d d' hrewired

/-- Before the first call constants have their values, and running sums are zero. -/
lemma Paired.start (bound : ℕ) : Paired model program program' place place' bound
    (Machine.start program) (Machine.start program') where
  left := rfl
  right := rfl
  fits := program.initialMemory_fits
  fits' := program'.initialMemory_fits
  coupled := by
    rintro j ⟨-, node, hnode, hlasts⟩ id id' hid hid'
    obtain ⟨node', hnode', hbare⟩ := hrewired.exists_node hnode
    obtain ⟨hkind, htype, hsize, -⟩ := Node.of_bare_eq hbare
    obtain ⟨var, hvar, hhome⟩ := d.compiled.variable_of hnode hid
    obtain ⟨var', hvar', hhome'⟩ := d'.compiled.variable_of hnode' hid'
    rw [Machine.start, Machine.start, Program.get?_initialMemory hvar,
      Program.get?_initialMemory hvar', Option.some.injEq]
    rcases hlasts with hsum | ⟨row, hconstant⟩
    · rw [Variable.initialContents_zero (hhome.zero (.inl hsum)),
        Variable.initialContents_zero (hhome'.zero (.inl (hkind.trans hsum))), hhome.size,
        hhome'.size, hhome.elementType, hhome'.elementType, hsize, htype]
    · obtain ⟨hdata, hlength⟩ := hhome.data row hconstant
      obtain ⟨hdata', hlength'⟩ := hhome'.data row (hkind.trans hconstant)
      rw [Variable.initialContents_data hdata (hlength.trans hhome.size.symm),
        Variable.initialContents_data hdata' (hlength'.trans hhome'.size.symm),
        hhome.elementType, hhome'.elementType, htype]

variable (hnode : model.Computes i node) (hnode' : model'.Computes i node')
variable (hrow : i < bound → ∀ values,
  node'.row model'.gathered values [] [] = node.row model.gathered values [] [])

include hnode hnode' hrow

/-- **Paired machines stay paired.**  A call that is accepted couples all ports below the bound.  If
these are all ports then every call has the same answer on both sides. -/
lemma Paired.serve {machine machine' : Machine}
    (h : Paired model program program' place place' bound machine machine')
    (request : String × List (List Float)) :
    Paired model program program' place place' bound (machine.serve request).2
        (machine'.serve request).2 ∧
      (model.nodes.size ≤ bound → (machine.serve request).1 = (machine'.serve request).1) ∧
      (request.1 = name → model.Accepts request.2 →
        Coupled place place' (model.Known bound model.nodes.size) (machine.serve request).2.memory
          (machine'.serve request).2.memory) := by
  obtain ⟨called, rows⟩ := request
  obtain ⟨_, memory⟩ := machine
  obtain ⟨_, memory'⟩ := machine'
  obtain ⟨rfl, rfl, hfits, hfits', hcoupled⟩ := h
  by_cases hname : called = name
  · subst hname
    have hfunction := d.only called
    have hfunction' := d'.only called
    rw [if_pos rfl] at hfunction hfunction'
    by_cases haccepts : model.Accepts rows
    · obtain ⟨outputs, outputs', last, last', hrun, hrun', hfits, hfits', hknown, hanswers⟩ :=
        d.call_ok d' hrewired hnode hnode' hrow haccepts hfits hfits' hcoupled
      simp only [Machine.serve, Machine.call, hfunction, hfunction', hrun, hrun']
      refine ⟨⟨rfl, rfl, hfits, hfits', hknown.mono ?_⟩, fun hbound => by rw [hanswers hbound],
        fun _ _ => hknown⟩
      rintro j ⟨hj, node, hnode, -⟩
      exact ⟨hj, .inl (Array.getElem?_eq_some_iff.mp hnode).1⟩
    · obtain ⟨e, last, last', hrun, hrun', hfits, hfits', hcoupled⟩ :=
        d.call_failed d' hrewired haccepts hfits hfits' hcoupled
      simp only [Machine.serve, Machine.call, hfunction, hfunction', hrun, hrun']
      exact ⟨⟨rfl, rfl, hfits, hfits', hcoupled⟩, fun _ => trivial,
        fun _ h => absurd h haccepts⟩
  · have hfunction := d.only called
    have hfunction' := d'.only called
    rw [if_neg hname] at hfunction hfunction'
    simp only [Machine.serve, Machine.call, hfunction, hfunction']
    exact ⟨⟨rfl, rfl, hfits, hfits', hcoupled⟩, fun _ => trivial, fun h => absurd h hname⟩

/-- Machines that serve the same requests from the start are paired. -/
lemma Paired.transcript (requests : List (String × List (List Float))) :
    Paired model program program' place place' bound
      (Dataflow.transcript Machine.serve (Machine.start program) requests).2
      (Dataflow.transcript Machine.serve (Machine.start program') requests).2 :=
  transcript_related (fun _ _ request h => (h.serve d d' hrewired hnode hnode' hrow request).1)
    (.start d d' hrewired bound) requests

/-- **The answers are the same**, if all ports are below the bound. -/
lemma Paired.answers_eq (hbound : model.nodes.size ≤ bound)
    (requests : List (String × List (List Float))) :
    (Dataflow.transcript Machine.serve (Machine.start program) requests).1 =
      (Dataflow.transcript Machine.serve (Machine.start program') requests).1 := by
  have hboth : (Dataflow.transcript Machine.serve (Machine.start program) requests).1 =
        (Dataflow.transcript Machine.serve (Machine.start program') requests).1 ∧
      Paired model program program' place place' bound
        (Dataflow.transcript Machine.serve (Machine.start program) requests).2
        (Dataflow.transcript Machine.serve (Machine.start program') requests).2 := by
    refine transcript_simulation (fun _ _ request h => ?_) (.start d d' hrewired bound) requests
    obtain ⟨hpaired, hanswer, -⟩ := h.serve d d' hrewired hnode hnode' hrow request
    exact ⟨hanswer hbound, hpaired⟩
  exact hboth.1

omit hrow in
/-- A call that is accepted leaves the same rows in the ports before the node. -/
lemma Paired.values_eq {values values' : Values} {machine machine' : Machine}
    {answer answer' : Except CallError (List (List Float))}
    (requests : List (String × List (List Float))) (haccepts : model.Accepts rows)
    (hserve : (Dataflow.transcript Machine.serve (Machine.start program) requests).2.serve
      (name, rows) = (answer, machine))
    (hserve' : (Dataflow.transcript Machine.serve (Machine.start program') requests).2.serve
      (name, rows) = (answer', machine'))
    (hshows : Shows place values machine.memory) (hshows' : Shows place' values' machine'.memory)
    (hlength : values.length = i) (hlength' : values'.length = i) : values' = values := by
  have hrow : i < i → ∀ values, node'.row model'.gathered values [] [] =
      node.row model.gathered values [] [] := fun hlt => absurd hlt (lt_irrefl i)
  have hpaired := Paired.transcript d d' hrewired hnode hnode' hrow requests
  obtain ⟨-, -, hcoupled⟩ := hpaired.serve d d' hrewired hnode hnode' hrow (name, rows)
  replace hcoupled := hcoupled rfl haccepts
  rw [hserve, hserve'] at hcoupled
  have hearlier : ∀ j < values.length, j < i ∧ j < model.nodes.size := fun j hj =>
    ⟨hlength ▸ hj, (hlength ▸ hj).trans (Array.getElem?_eq_some_iff.mp hnode.found).1⟩
  have hboth : Shows place' values machine'.memory :=
    hcoupled.shows (fun j hj => ⟨(hearlier j hj).1, .inl (hearlier j hj).2⟩)
      (fun j hj => d.placed (Array.getElem?_eq_getElem (hearlier j hj).2)) hshows
  refine hboth.unique hshows' (hlength'.trans hlength.symm) fun j hj => ?_
  obtain ⟨_, hplaced, -⟩ :=
    hrewired.exists_node (Array.getElem?_eq_getElem (hearlier j hj).2)
  exact d'.placed hplaced

end

end Dataflow
