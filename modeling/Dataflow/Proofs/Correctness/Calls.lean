import Dataflow.Proofs.Correctness.Nodes
import Dataflow.Proofs.Machine.Calls

/-!
# Calls of compiled models

Between two calls only constants and running sums count (`Resting`).  A call resets what does not
last, stores the inputs, runs the code of all nodes and collects the outputs: it succeeds, answers
what the model responds, and leaves the running sums as the model has them (`Compiled.run_ok`).
-/

namespace Dataflow

/-! ## Inputs and outputs -/

variable {model : Model} {vars : VariableTable} {old : ℕ} {place : PortId → Option VarId}
variable {function : Function} {memory : Memory}

/-- Storing rows for ports of different numbers puts each row in the variable of its port and
changes no other variable. -/
lemma bindInputs_run (hinjective : ∀ port port' id, place port = some id → place port' = some id →
      port = port') {storage : StorageClass}
    {ports : List OutputPort} {bindings : List (Parameter × VarId)}
    (hbindings : List.Forall₂ (fun port binding => binding.1 = Compiler.parameterOf storage port ∧
      place port.id = some binding.2) ports bindings)
    (hvars : ∀ port ∈ ports, ∀ id, place port.id = some id →
      ∃ var, vars.get? id = some var ∧ var.size = port.size)
    (hdistinct : (ports.map OutputPort.id).Nodup) {rows : List (List Float)}
    (hrows : rows.map List.length = ports.map OutputPort.size) (hfits : memory.Fits vars) :
    ∃ memory', ((bindings.zip rows).forM fun entry =>
        Program.bindInput entry.1.1 entry.1.2 entry.2) memory = .ok () memory' ∧
      memory'.Fits vars ∧
      (∀ port ∈ ports, ∀ id, place port.id = some id →
        memory'.get? id = some ((rowFor ports rows port.id).map port.elementType.coerce)) ∧
      ∀ id, (∀ port ∈ ports, place port.id ≠ some id) → memory'.get? id = memory.get? id := by
  induction hbindings generalizing memory rows with
  | nil => exact ⟨memory, rfl, hfits, fun _ h => (nomatch h), fun _ _ => rfl⟩
  | @cons port binding ports bindings hhead _ ih =>
    obtain ⟨parameter, id⟩ := binding
    obtain ⟨rfl, hid⟩ := hhead
    obtain ⟨hnew, hdistinct⟩ := List.nodup_cons.mp hdistinct
    obtain ⟨row, rows, rfl, hlength, hrows⟩ := List.map_eq_cons_iff.mp hrows
    obtain ⟨⟨var, hvar, hsize⟩, hvars⟩ :=
      (List.forall_mem_cons.mp hvars).imp_left fun hhead => hhead id hid
    obtain ⟨old, hold, -⟩ := hfits.holds id var hvar
    have hfirst : Program.bindInput (Compiler.parameterOf storage port) id row memory =
        .ok () (memory.set id (row.map port.elementType.coerce)) :=
      Program.bindInput_run hlength hold
    have hfits₁ : (memory.set id (row.map port.elementType.coerce)).Fits vars :=
      hfits.set hvar (by rw [List.length_map, hlength, hsize])
    obtain ⟨memory', hrest, hfits', hget, hframe⟩ := ih hvars hdistinct hrows hfits₁
    refine ⟨memory', (Execution.bind_run hfirst).trans hrest, hfits',
      fun other hother id' hid' => ?_, fun id' hothers => ?_⟩
    · rcases List.mem_cons.mp hother with rfl | hmem
      · -- no later port has the same number, so its row stays
        obtain rfl : id = id' := Option.some.inj (hid.symm.trans hid')
        have hkeep : ∀ later ∈ ports, place later.id ≠ some id := by
          intro later hlater hsame
          rw [hinjective _ _ id hid hsame] at hnew
          exact hnew (List.mem_map_of_mem hlater)
        rw [hframe id hkeep, hfits.get?_set hvar, rowFor_cons_self]
      · have hne : other.id ≠ port.id := by
          intro heq
          rw [← heq] at hnew
          exact hnew (List.mem_map_of_mem hmem)
        rw [rowFor_cons_of_ne hne]
        exact hget other hmem id' hid'
    · obtain ⟨hhead, htail⟩ := List.forall_mem_cons.mp hothers
      have hne : id ≠ id' := fun heq => hhead (by rw [hid, heq])
      rw [hframe id' htail, Memory.get?_set_of_ne memory hne]

/-- The outputs are collected if the memory has rows for them. -/
lemma collectOutputs_eq {row : OutputPort → List Float} {ports : List OutputPort}
    (h : List.Forall₂ (fun port binding => memory.get? binding.2 = some (row port)) ports
      function.outputs) : Program.collectOutputs function memory = .ok (ports.map row) := by
  rw [Program.collectOutputs]
  generalize function.outputs = bindings at h
  induction h with
  | nil => rfl
  | cons hget _ ih =>
    rw [List.mapM_cons, ih, hget]
    rfl

namespace Compiled

/-- The bindings of the parameters of one storage class are those of its part of the roster. -/
lemma bindings_of (h : Compiled model vars old place function) (storage : StorageClass) :
    List.Forall₂ (fun entry binding => binding.1 = Compiler.parameterOf entry.1 entry.2 ∧
        place entry.2.id = some binding.2)
      (model.roster.filter fun entry => entry.1 = storage)
      (function.bindings.filter fun binding => binding.1.storage = storage) := by
  refine List.rel_filter (fun entry binding hentry => ?_) h.bindings
  have hstorage : binding.1.storage = entry.1 := congrArg Parameter.storage hentry.1
  simp only [hstorage]

lemma filter_mk (ports : List OutputPort) (storage other : StorageClass) :
    ((ports.map (Prod.mk other)).filter fun entry => entry.1 = storage) =
      if other = storage then ports.map (Prod.mk other) else [] := by
  rw [List.filter_map]
  split_ifs with heq
  · rw [List.filter_eq_self.mpr]
    exact fun _ _ => decide_eq_true heq
  · rw [List.filter_eq_nil_iff.mpr, List.map_nil]
    exact fun _ _ => by simpa using heq

lemma inputs (h : Compiled model vars old place function) :
    List.Forall₂ (fun port binding => binding.1 = Compiler.parameterOf .input port ∧
      place port.id = some binding.2) model.inputPorts function.inputs := by
  have hbindings := h.bindings_of .input
  rw [Model.roster, List.filter_append, filter_mk, filter_mk, if_pos rfl, if_neg (by decide),
    List.append_nil, List.forall₂_map_left_iff] at hbindings
  exact hbindings

lemma input_sizes (h : Compiled model vars old place function) :
    model.inputPorts.map OutputPort.size = function.inputs.map fun binding => binding.1.size := by
  have hsizes : List.Forall₂ Eq (model.inputPorts.map OutputPort.size)
      (function.inputs.map fun binding => binding.1.size) := by
    rw [List.forall₂_map_left_iff, List.forall₂_map_right_iff]
    exact h.inputs.imp fun port binding hbinding => (congrArg Parameter.size hbinding.1).symm
  rwa [List.forall₂_eq_eq_eq] at hsizes

lemma outputs (h : Compiled model vars old place function) :
    List.Forall₂ (fun port binding => binding.1 = Compiler.parameterOf .output port ∧
      place port.id = some binding.2) model.outputPorts function.outputs := by
  have hbindings := h.bindings_of .output
  rw [Model.roster, List.filter_append, filter_mk, filter_mk, if_pos rfl, if_neg (by decide),
    List.nil_append, List.forall₂_map_left_iff] at hbindings
  exact hbindings

end Compiled

/-! ## A call -/

/-- A memory between two calls: constants hold their values, and running sums what they have come
to. -/
structure Resting (model : Model) (vars : VariableTable) (place : PortId → Option VarId)
    (previous : Values) (memory : Memory) : Prop where
  fits : memory.Fits vars
  lasting : ∀ (i : ℕ) (node : Node), model.nodes[i]? = some node → node.kind.storage = .global →
    ∀ id, place ⟨i⟩ = some id → ∀ supplied row,
      node.start (previous[node.port.id.index]?.getD []) supplied = some row →
        memory.get? id = some row

lemma Node.storage_of_start {node : Node} {previous supplied row : List Float}
    (hkind : node.kind ≠ .input) (h : node.start previous supplied = some row) :
    node.kind.storage = .global := by
  rw [start] at h
  cases hcase : node.kind with
  | input => exact absurd hcase hkind
  | output =>
    rw [hcase] at h
    cases h
  | _ => rfl

lemma Model.mem_inputPorts {port : OutputPort} :
    port ∈ model.inputPorts ↔
      ∃ node ∈ model.nodes.toList, node.kind = .input ∧ node.port = port := by
  rw [inputPorts, List.mem_map]
  constructor
  · rintro ⟨node, hmem, rfl⟩
    obtain ⟨hnode, hkind⟩ := List.mem_filter.mp hmem
    refine ⟨node, hnode, ?_, rfl⟩
    cases hinput : node.kind <;> rw [hinput] at hkind <;> first | rfl | cases hkind
  · rintro ⟨node, hnode, hkind, rfl⟩
    exact ⟨node, List.mem_filter.mpr ⟨hnode, by rw [hkind]⟩, rfl⟩

lemma Model.WellFormed.nodup_inputPorts (h : model.WellFormed) :
    (model.inputPorts.map OutputPort.id).Nodup := by
  have hports : (model.nodes.toList.map fun node => node.port.id) =
      (List.range model.nodes.size).map PortId.mk := by
    apply List.ext_getElem?
    intro i
    rw [List.getElem?_map, List.getElem?_map, Array.getElem?_toList]
    cases hnode : model.nodes[i]? with
    | none =>
      rw [List.getElem?_eq_none (by simpa using hnode)]
      rfl
    | some node =>
      rw [List.getElem?_range (Array.getElem?_eq_some_iff.mp hnode).1, Option.map_some,
        Option.map_some, h.numbered.port_id hnode]
  have hall : (model.nodes.toList.map fun node => node.port.id).Nodup := by
    rw [hports]
    exact List.nodup_range.map fun _ _ heq => congrArg PortId.index heq
  rw [inputPorts, List.map_map]
  exact hall.sublist (List.filter_sublist.map _)

namespace Compiled

variable {program : Program} {previous : Values} {rows : List (List Float)}
variable (h : Compiled model program.vars old place function) (hmodel : model.WellFormed)

include h hmodel

/-- What a call finds when its inputs are stored: the variables of inputs hold the rows that are
supplied, and all other ones have been reset or left alone. -/
lemma begin_ok (haccepts : model.Accepts rows) (hfits : memory.Fits program.vars) :
    ∃ memory', Program.bindInputs function rows (program.reset function memory) = .ok () memory' ∧
      memory'.Fits program.vars ∧
      ∀ (i : ℕ) (node : Node) (id : VarId), model.nodes[i]? = some node → place ⟨i⟩ = some id →
        (node.kind = .input → memory'.get? id =
          some ((rowFor model.inputPorts rows node.port.id).map node.elementType.coerce)) ∧
        (node.kind ≠ .input → ∃ var, program.vars.get? id = some var ∧ Home node var ∧
          memory'.get? id =
            if var.isReset function then some var.initialContents else memory.get? id) := by
  obtain ⟨hfits, hkeeps⟩ := Program.reset_fits function h.numbered hfits
  have hvars : ∀ port ∈ model.inputPorts, ∀ id, place port.id = some id →
      ∃ var, program.vars.get? id = some var ∧ var.size = port.size := by
    intro port hmem id hid
    obtain ⟨node, hnode, -, rfl⟩ := Model.mem_inputPorts.mp hmem
    obtain ⟨var, hvar, hhome⟩ := h.variable_of (hmodel.numbered.getElem?_port hnode) hid
    exact ⟨var, hvar, hhome.size⟩
  obtain ⟨memory', hbind, hfits', hget, hframe⟩ := bindInputs_run h.injective h.inputs hvars
    hmodel.nodup_inputPorts haccepts hfits
  have hcount : function.inputs.length = rows.length := by
    rw [← h.inputs.length_eq, ← List.length_map (f := List.length), haccepts, List.length_map]
  refine ⟨memory', ?_, hfits', fun i node id hnode hid => ⟨fun hkind => ?_, fun hkind => ?_⟩⟩
  · rw [Program.bindInputs, if_neg (not_not.mpr hcount)]
    exact hbind
  · have hmem : node.port ∈ model.inputPorts :=
      Model.mem_inputPorts.mpr ⟨node, Model.mem_nodes hnode, hkind, rfl⟩
    exact hget node.port hmem id (by rw [hmodel.numbered.port_id hnode, hid])
  · have hothers : ∀ port ∈ model.inputPorts, place port.id ≠ some id := by
      intro port hmem hsame
      obtain ⟨other, hother, hinput, rfl⟩ := Model.mem_inputPorts.mp hmem
      have hget := hmodel.numbered.getElem?_port hother
      rw [h.injective _ _ id hsame hid, hnode] at hget
      exact hkind (Option.some.inj hget ▸ hinput)
    obtain ⟨var, hvar, hhome⟩ := h.variable_of hnode hid
    exact ⟨var, hvar, hhome, by rw [hframe id hothers, hkeeps id var hvar]⟩

/-- When the inputs are stored, the first node may begin. -/
lemma bind_ok (haccepts : model.Accepts rows)
    (hresting : Resting model program.vars place previous memory) :
    ∃ memory', Program.bindInputs function rows (program.reset function memory) = .ok () memory' ∧
      Reached model program.vars place previous rows [] memory' := by
  obtain ⟨memory', hbind, hfits, hports⟩ := h.begin_ok hmodel haccepts hresting.fits
  refine ⟨memory', hbind, hfits, fun i row hrow => ?_, fun i node _ hnode id hid row hstart => ?_⟩
  · cases hrow
  · obtain ⟨hinput, hother⟩ := hports i node id hnode hid
    by_cases hkind : node.kind = .input
    · rw [Node.start, hkind] at hstart
      rw [hinput hkind]
      exact hstart
    · -- constants and running sums are neither stored by the caller nor reset
      obtain ⟨var, -, hhome, hget⟩ := hother hkind
      have hglobal := Node.storage_of_start hkind hstart
      have hlasts : var.isReset function = false := by
        rw [Variable.isReset, hhome.storage, hglobal]
      rw [hget, hlasts, if_neg Bool.false_ne_true]
      exact hresting.lasting i node hnode hglobal id hid _ row hstart

/-- When all nodes have run, the memory has the rows of the outputs, and constants and running sums
are where the next call expects them. -/
lemma finish_ok {values : Values} (hvalues : values = model.evaluate model.gathered previous rows)
    (hreached : Reached model program.vars place previous rows values memory) :
    Program.collectOutputs function memory = .ok (model.outputRows values) ∧
      Resting model program.vars place values memory := by
  have hshown : ∀ (i : ℕ) (node : Node), model.nodes[i]? = some node → ∀ id,
      place ⟨i⟩ = some id → memory.get? id = some (values[i]?.getD []) := by
    intro i node hnode id hid
    have hrow := model.getElem?_evaluate model.gathered previous rows hnode
    rw [← hvalues] at hrow
    rw [hreached.shows i _ hrow id hid, hrow, Option.getD_some]
  constructor
  · refine collectOutputs_eq (h.outputs.imp fun port binding hbinding => ?_)
    obtain ⟨node, _, hnode, -, -⟩ := h.home _ _ hbinding.2
    exact hshown _ node hnode _ hbinding.2
  · refine ⟨hreached.fits, fun i node hnode hglobal id hid supplied row hstart => ?_⟩
    have hport := hmodel.numbered.port_id hnode
    rw [hshown i node hnode id hid]
    rw [hport] at hstart
    cases hkind : node.kind with
    | constant entries =>
      rw [Node.start, hkind] at hstart
      have hrow := model.getElem?_evaluate model.gathered previous rows hnode
      rw [← hvalues, Model.rowOf, Node.row, hkind] at hrow
      rw [hrow, ← hstart, Option.getD_some]
    | accumulator =>
      rw [Node.start, hkind] at hstart
      exact hstart
    | input =>
      rw [hkind] at hglobal
      cases hglobal
    | _ =>
      rw [Node.start, hkind] at hstart
      cases hstart

/-- **A call answers what the model responds.**  It succeeds, and the next call may follow. -/
lemma run_ok (hback : model.Backward) (haccepts : model.Accepts rows)
    (hresting : Resting model program.vars place previous memory) :
    ∃ memory', program.run function rows memory =
        .ok (model.respond model.gathered previous rows).1 memory' ∧
      Resting model program.vars place (model.respond model.gathered previous rows).2 memory' := by
  obtain ⟨memory₁, hbind, hreached₁⟩ := h.bind_ok hmodel haccepts hresting
  obtain ⟨codes, hbody, hcodes⟩ := h.code
  have hall : model.nodes.toList.drop ([] : Values).length = model.nodes.toList := List.drop_zero
  obtain ⟨memory', hruns, hreached⟩ := hreached₁.run h hmodel hback hcodes hall
    (hbody ▸ h.admissible)
  rw [← hbody] at hruns
  obtain ⟨hcollect, hresting'⟩ := h.finish_ok hmodel rfl hreached
  exact ⟨memory', Program.run_eq_ok.mpr ⟨memory₁, hbind, hruns, hcollect⟩, hresting'⟩

end Compiled

end Dataflow
