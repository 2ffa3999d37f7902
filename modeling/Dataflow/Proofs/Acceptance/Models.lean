import Dataflow.Proofs.Acceptance.Nodes
import Dataflow.Proofs.Compiler.History

/-!
# When models can be compiled

The nodes of a model are compiled one after another, each in a region of its own.  A model is
compiled exactly if all its nodes meet the requirements of the compiler, no function has the name of
the new one, and there is storage (`Compiler.compile_lowers`).  Storage is part of that, to the
element.
-/

namespace Dataflow

open Attempt

/-- The number of elements of the inputs and outputs of a model. -/
def Model.parameterSize (model : Model) : ℕ :=
  (model.inputPorts.map OutputPort.size).sum + (model.outputPorts.map OutputPort.size).sum

/-- What is reserved for a model is reserved for its parameters and for its nodes. -/
lemma Model.demand_eq (model : Model) :
    model.parameterSize + (model.nodes.toList.map Node.demand).sum = model.demand := by
  rw [parameterSize, demand, inputPorts, outputPorts]
  induction model.nodes.toList with
  | nil => rfl
  | cons node rest ih =>
    have hdemand : node.demand = node.gathered +
        if node.kind.storage = .global then node.size else 0 := rfl
    have hport : node.port.size = node.size := rfl
    cases hkind : node.kind <;>
      simp [hkind, NodeKind.storage, hport] at ih hdemand ⊢ <;> omega

namespace Compiler

variable {model : Model} {node : Node} {count : ℕ} {c d : Compiler Assembler}

/-! ## Nodes -/

/-- The first nodes of a model have been compiled, as many as given, each in a region of its own. -/
structure Underway (model : Model) (count : ℕ) (c : Compiler Assembler) : Prop
    extends Ready model count c where
  opened : ∃ nodes, c.backend.opened = some nodes ∧ ∀ node ∈ nodes, node.index < count

section

variable (hc : c.backend.Tidy)

include hc

lemma notify_exact (milestone : Milestone) (subject : String) :
    Exact (notify milestone subject) c True fun _ d => c.Step [] d ∧ c.Spends 0 d :=
  .of_ok rfl ⟨(notify_ok hc rfl).1, .of_vars_eq rfl rfl rfl rfl⟩

lemma count_exact (step : Statistics → Statistics) :
    Exact (Compiler.count step) c True fun _ d => c.Step [] d ∧ c.Spends 0 d :=
  .of_ok rfl ⟨(count_ok hc rfl).1, .of_vars_eq rfl rfl rfl rfl⟩

lemma mergeStep_exact (node : NodeId) (isFirst : Bool) :
    Exact (mergeStep node isFirst) c True fun _ d => c.Step [] d ∧ c.Spends 0 d where
  sound {_ d} hrun := by
    obtain ⟨hstep, hvars⟩ := mergeStep_ok hc hrun
    refine ⟨trivial, hstep, ?_⟩
    rw [mergeStep_run] at hrun
    split at hrun
    · obtain ⟨-, rfl⟩ := EStateM.Result.ok.inj hrun
      obtain ⟨hopened, hused⟩ := hc.opened_mergeRegion node
      exact .of_vars_eq hused hstep.backend.limit_eq hopened hvars
    · obtain ⟨-, rfl⟩ := EStateM.Result.ok.inj hrun
      exact .refl _
  complete _ := ⟨(), _, mergeStep_run node isFirst c⟩
  portable hrun := nomatch (mergeStep_run node isFirst c).symm.trans hrun

lemma openRegion_exact {nodes : List NodeId} (hopened : c.backend.opened = some nodes)
    {node : NodeId} (hnew : node ∉ nodes) :
    Exact (onBackend (Backend.openRegion node)) c True fun _ d => c.Step [] d ∧
      d.backend.opened = some (nodes ++ [node]) ∧ d.backend.used = c.backend.used := by
  obtain ⟨backend, hbackend, hnodes, hused⟩ := Assembler.openRegion_exact hc hopened hnew
  have hrun : onBackend (Backend.openRegion node) c = .ok () { c with backend } :=
    onBackend_change_eq_ok.mpr ⟨backend, hbackend, rfl⟩
  exact .of_ok hrun ⟨(openRegion_ok hc hrun).1, hnodes, hused⟩

end

lemma finishNode_exact (node : Node) : Exact (finishNode node) c True fun _ d =>
    d.backend = c.backend ∧ d.scopes = c.scopes ∧ d.options = c.options ∧
      d.compiled = node.id :: c.compiled :=
  .of_ok rfl ⟨rfl, rfl, rfl, rfl⟩

/-- The next node gets a region. -/
lemma beginNode_exact (hmodel : model.Arranged) (hc : Underway model count c)
    (hnode : model.nodes[count]? = some node) :
    Exact (beginNode node) c True fun _ d => Ready model count d ∧ c.Step [] d ∧
      d.backend.used = c.backend.used ∧ ∃ nodes, d.backend.opened = some nodes ∧ nodes ≠ [] ∧
        ∀ other ∈ nodes, other.index < count + 1 := by
  have hid := hmodel.numbered count node hnode
  obtain ⟨nodes, hopened, hbefore⟩ := hc.opened
  have hnew : node.id ∉ nodes := fun hmem => by
    have := hbefore _ hmem
    rw [hid] at this
    exact lt_irrefl _ this
  refine (notify_exact hc.tidy _ _).always_bind ?_
  rintro - c₁ ⟨hstep₁, hspends₁⟩
  refine (openRegion_exact hstep₁.tidy (hspends₁.opened.trans hopened) hnew).onBehalfOf.always_bind
    ?_
  rintro - c₂ ⟨hstep₂, hopened₂, hused₂⟩
  refine (count_exact hstep₂.tidy _).mono ?_
  rintro - - d ⟨hstep₃, hspends₃⟩
  have hstep := (hstep₁.trans hstep₂).trans hstep₃
  have hused : d.backend.used = c.backend.used := by
    rw [hspends₃.used, hused₂, hspends₁.used]
    rfl
  refine ⟨hc.step hstep (by rw [hused, hstep.backend.limit_eq]; exact hc.within), hstep, hused, _,
    hspends₃.opened.trans hopened₂, by simp, fun other hother => ?_⟩
  rcases List.mem_append.mp hother with hold | hown
  · exact Nat.lt_succ_of_lt (hbefore other hold)
  · rw [List.mem_singleton.mp hown, hid]
    exact Nat.lt_succ_self count

/-- A node that has been lowered counts as compiled. -/
lemma endNode_exact (hc : c.backend.Tidy) (node : Node) (isFirst : Bool) :
    Exact (endNode node isFirst) c True fun _ d => c.backend.Step [] d.backend ∧ c.Spends 0 d ∧
      d.scopes = c.scopes ∧ d.options = c.options ∧ d.compiled = node.id :: c.compiled := by
  refine (finishNode_exact node).always_bind ?_
  rintro - c₁ ⟨hbackend, hscopes, hoptions, hcompiled⟩
  refine (mergeStep_exact (hbackend ▸ hc) _ _).always_bind ?_
  rintro - c₂ ⟨hstep₂, hspends₂⟩
  refine (notify_exact hstep₂.tidy _ _).mono ?_
  rintro - - d ⟨hstep₃, hspends₃⟩
  have hstep := hstep₂.trans hstep₃
  have hspent := hspends₂.trans hspends₃
  have hback := hstep.backend
  rw [hbackend] at hback
  refine ⟨hback, ⟨?_, ?_, ?_, ?_, ?_⟩, hstep.scopes.trans hscopes, hstep.options.trans hoptions,
    hstep.compiled.trans hcompiled⟩
  · rw [hspent.used, hbackend]
  · rw [hspent.limit, hbackend]
  · rw [hspent.opened, hbackend]
  · exact hback.vars
  · rw [← hbackend]
    exact hspent.stored

/-- When a node has been lowered and counts as compiled, the one after it is next. -/
lemma Ready.next (hmodel : model.Arranged) (hc : Ready model count c)
    (hnode : model.nodes[count]? = some node) {code : List Instruction} {e : Compiler Assembler}
    (hlowered : Lowered model node c code d) (hspends : c.Spends node.demand d)
    (hroom : c.backend.used + node.demand ≤ c.backend.limit)
    (hback : d.backend.Step [] e.backend) (hspent : d.Spends 0 e) (hscopes : e.scopes = d.scopes)
    (hcompiled : e.compiled = node.id :: d.compiled) : Ready model (count + 1) e := by
  have hid := hmodel.numbered count node hnode
  have hscoped := hc.lowered hnode hid hlowered
  have hlookup : e.variableOf? = d.variableOf? := by
    funext port
    rw [variableOf?, variableOf?, hscopes]
  refine ⟨hscoped.step hback.tidy hback.vars hscopes, fun port id var hbound hvar => ?_,
    fun other => ?_, ?_⟩
  · -- an old variable has its storage, and so has the new one
    rw [hlookup] at hbound
    obtain ⟨_, old, -, hold, -⟩ := hscoped.home port id hbound
    obtain rfl : old = var := Option.some.inj ((hback.vars.get? hold).symm.trans hvar)
    rcases hlowered.only port id hbound with hbefore | ⟨-, hafter⟩
    · obtain ⟨_, older, -, holder, -⟩ := hc.home port id hbefore
      obtain rfl : older = old :=
        Option.some.inj ((hlowered.backend.vars.get? holder).symm.trans hold)
      exact hc.stored port id older hbefore holder
    · exact hspends.stored id old hafter hold
  · have hother := hc.compiled other
    rw [isCompiled, List.contains_iff_mem] at hother ⊢
    rw [hcompiled, hlowered.compiled, List.mem_cons, hother, hid]
    constructor
    · rintro (rfl | hlt)
      · exact Nat.lt_succ_self count
      · exact Nat.lt_succ_of_lt hlt
    · intro hle
      rcases Nat.lt_succ_iff_lt_or_eq.mp hle with hlt | heq
      · exact .inr hlt
      · exact .inl (congrArg NodeId.mk heq)
  · exact (hspends.trans hspent).within hroom

/-- **When a node can be compiled.**  Compiling the next node succeeds exactly if the node meets the
requirements and its storage can be reserved. -/
lemma compileNode_lowers (hmodel : model.Arranged) (hc : Underway model count c)
    (hnode : model.nodes[count]? = some node) (isFirst : Bool) :
    Exact (compileNode model node isFirst) c
      (model.Lowers c.options.checkElementTypes node ∧
        c.backend.used + node.demand ≤ c.backend.limit)
      fun _ d => Underway model (count + 1) d ∧ d.options = c.options ∧
        d.backend.used = c.backend.used + node.demand ∧ d.backend.limit = c.backend.limit := by
  have hid := hmodel.numbered count node hnode
  rw [compileNode_split]
  refine (beginNode_exact hmodel hc hnode).always_bind ?_
  rintro - c₁ ⟨hready, hstep, hused, nodes, hopened, hne, hbelow⟩
  have hlimit : c₁.backend.limit = c.backend.limit := hstep.backend.limit_eq
  rw [← hused, ← hlimit, ← hstep.options]
  have hsite : Exact (Site.lower ⟨model, node⟩) c₁ _ _ :=
    Site.lower_exact hmodel hready ⟨nodes, hopened, hne⟩ hnode
  have hlower := hsite.and fun hrun => Site.lower_ok ⟨model, node⟩ hready.tidy
    (fun _ _ => hready.index_lt) (hready.prepared hnode hid) (hready.free hnode hid) hrun
  refine hlower.onBehalfOf.bind_always ?_
  rintro ⟨-, hroom⟩ - c₂ ⟨hspends, code, hlowered⟩
  refine (endNode_exact hlowered.backend.tidy node isFirst).mono ?_
  rintro - - d ⟨hback, hspent, hscopes, hoptions, hcompiled⟩
  refine ⟨⟨hready.next hmodel hnode hlowered hspends hroom hback hspent hscopes hcompiled, nodes,
    ?_, hbelow⟩, hoptions.trans hlowered.options, (hspends.trans hspent).used,
    (hspends.trans hspent).limit⟩
  rw [hspent.opened, hspends.opened, hopened]

/-- The nodes that are left can be compiled exactly if they all meet the requirements and their
storage can be reserved. -/
lemma compileNodes_lowers (hmodel : model.Arranged) {nodes : List Node}
    (hc : Underway model count c) (hnodes : model.nodes.toList.drop count = nodes)
    (isFirst : Bool) :
    Exact (compileNodes model nodes isFirst) c
      ((∀ node ∈ nodes, model.Lowers c.options.checkElementTypes node) ∧
        c.backend.used + (nodes.map Node.demand).sum ≤ c.backend.limit)
      fun _ d => d.backend.pending.isSome ∧
        d.backend.used = c.backend.used + (nodes.map Node.demand).sum := by
  induction nodes generalizing c count isFirst with
  | nil =>
    refine (Exact.pure ()).congr
      (iff_of_true trivial ⟨fun _ h => absurd h List.not_mem_nil, hc.within⟩) ?_
    rintro - _ _ ⟨-, rfl⟩
    obtain ⟨_, hopened, -⟩ := hc.opened
    obtain ⟨pending, hpending, -⟩ := Assembler.opened_eq_some.mp hopened
    exact ⟨by rw [hpending]; rfl, rfl⟩
  | cons node rest ih =>
    obtain ⟨hget, hdrop⟩ := Model.drop_nodes_eq_cons_iff.mp hnodes
    have hrun := (compileNode_lowers hmodel hc hget isFirst).bind
      (f := fun _ => compileNodes model rest false)
      (q := (∀ node ∈ rest, model.Lowers c.options.checkElementTypes node) ∧
        c.backend.used + node.demand + (rest.map Node.demand).sum ≤ c.backend.limit)
      (R := fun _ d => d.backend.pending.isSome ∧
        d.backend.used = c.backend.used + node.demand + (rest.map Node.demand).sum) ?_
    · refine hrun.congr ?_ ?_
      · rw [List.forall_mem_cons, List.map_cons, List.sum_cons]
        constructor
        · rintro ⟨⟨hlowers, -⟩, hrest, hlimit⟩
          exact ⟨⟨hlowers, hrest⟩, by omega⟩
        · rintro ⟨⟨hlowers, hrest⟩, hlimit⟩
          exact ⟨⟨hlowers, by omega⟩, hrest, by omega⟩
      · rintro - - d ⟨hpending, hused⟩
        rw [List.map_cons, List.sum_cons, ← Nat.add_assoc]
        exact ⟨hpending, hused⟩
    · rintro - - c₁ ⟨hunderway, hoptions, hused, hlimit⟩
      rw [← hused, ← hlimit, ← hoptions]
      exact ih hunderway hdrop false

/-! ## Parameters -/

section

variable {roster : List (StorageClass × OutputPort)} {old amount : ℕ}

/-- Ports have been enrolled, and nothing else has changed but counts. -/
structure Enrols (c : Compiler Assembler) (amount : ℕ) (d : Compiler Assembler) : Prop where
  spends : c.Spends amount d
  options : d.options = c.options
  compiled : d.compiled = c.compiled

lemma Enrols.trans {e : Compiler Assembler} {amount' : ℕ} (h : c.Enrols amount d)
    (h' : d.Enrols amount' e) : c.Enrols (amount + amount') e :=
  ⟨h.spends.trans h'.spends, h'.options.trans h.options, h'.compiled.trans h.compiled⟩

lemma allocateParameter_exact (hc : Enrolled old roster c) (storage : StorageClass)
    (port : OutputPort) :
    Exact (allocateParameter storage port) c (c.backend.used + port.size ≤ c.backend.limit)
      fun _ d => c.Enrols port.size d ∧ Enrolled old (roster ++ [(storage, port)]) d := by
  have hrun : Exact (allocateParameter storage port) c
      (c.backend.used + port.size ≤ c.backend.limit) fun _ d => c.Enrols port.size d := by
    refine (allocate_exact hc.tidy _).onBehalfOf.bind_always ?_
    rintro - id c₁ ⟨hstep, hspends, -⟩
    refine (Exact.change _).bind_always ?_
    rintro - - _ rfl
    refine (Exact.pure _).mono ?_
    rintro - _ _ ⟨-, rfl⟩
    exact ⟨hspends.bindPort _ _, hstep.options, hstep.compiled⟩
  exact hrun.and fun h => (allocateParameter_ok hc h).1

lemma allocateAll_exact (hc : Enrolled old roster c) (hwithin : c.backend.used ≤ c.backend.limit)
    (storage : StorageClass) (ports : List OutputPort) :
    Exact (ports.mapM (allocateParameter storage)) c
      (c.backend.used + (ports.map OutputPort.size).sum ≤ c.backend.limit)
      fun _ d => c.Enrols (ports.map OutputPort.size).sum d ∧
        Enrolled old (roster ++ ports.map (Prod.mk storage)) d := by
  induction ports generalizing roster c with
  | nil =>
    refine (Exact.pure []).congr (iff_of_true trivial hwithin) ?_
    rintro - _ _ ⟨-, rfl⟩
    exact ⟨⟨.refl _, rfl, rfl⟩, by rwa [List.map_nil, List.append_nil]⟩
  | cons port rest ih =>
    rw [List.mapM_cons]
    have hrun := (allocateParameter_exact hc storage port).bind
      (f := fun parameter => do
        let parameters ← rest.mapM (allocateParameter storage)
        pure (parameter :: parameters))
      (q := c.backend.used + port.size + (rest.map OutputPort.size).sum ≤ c.backend.limit)
      (R := fun _ d => c.Enrols (port.size + (rest.map OutputPort.size).sum) d ∧
        Enrolled old (roster ++ (storage, port) :: rest.map (Prod.mk storage)) d) ?_
    · refine hrun.iff ?_
      rw [List.map_cons, List.sum_cons]
      constructor
      · rintro ⟨-, hlimit⟩
        omega
      · intro hlimit
        exact ⟨by omega, by omega⟩
    · rintro hport parameter c₁ ⟨henrols, henrolled⟩
      rw [← henrols.spends.used, ← henrols.spends.limit]
      refine (ih henrolled (henrols.spends.within hport)).bind_always ?_
      rintro - parameters c₂ ⟨henrols', henrolled'⟩
      refine (Exact.pure _).mono ?_
      rintro - _ _ ⟨-, rfl⟩
      rw [List.append_assoc] at henrolled'
      exact ⟨henrols.trans henrols', henrolled'⟩

/-- The parameters can be allocated exactly if their storage can be reserved. -/
lemma allocateParameters_exact (hc : Enrolled old [] c)
    (hwithin : c.backend.used ≤ c.backend.limit) :
    Exact (allocateParameters model) c (c.backend.used + model.parameterSize ≤ c.backend.limit)
      fun parameters d => c.Enrols (model.parameterSize) d ∧ Enrolled old model.roster d ∧
        c.backend.Step [] d.backend ∧
        parameters = model.roster.map fun entry => parameterOf entry.1 entry.2 := by
  have hrun : Exact (allocateParameters model) c
      (c.backend.used + model.parameterSize ≤ c.backend.limit)
      fun _ d => c.Enrols (model.parameterSize) d := by
    have hall := (allocateAll_exact hc hwithin .input model.inputPorts).bind
      (f := fun inputs => do
        let outputs ← model.outputPorts.mapM (allocateParameter .output)
        pure (inputs ++ outputs))
      (q := c.backend.used + (model.inputPorts.map OutputPort.size).sum +
        (model.outputPorts.map OutputPort.size).sum ≤ c.backend.limit)
      (R := fun _ d => c.Enrols (model.parameterSize) d) ?_
    · refine hall.iff ?_
      rw [Model.parameterSize]
      constructor
      · rintro ⟨-, hlimit⟩
        omega
      · intro hlimit
        exact ⟨by omega, by omega⟩
    · rintro hinputs inputs c₁ ⟨henrols, henrolled⟩
      rw [← henrols.spends.used, ← henrols.spends.limit]
      refine (allocateAll_exact henrolled (henrols.spends.within hinputs) .output _).bind_always ?_
      rintro - outputs c₂ ⟨henrols', -⟩
      refine (Exact.pure _).mono ?_
      rintro - _ _ ⟨-, rfl⟩
      exact henrols.trans henrols'
  exact hrun.and fun h => allocateParameters_ok hc h

end

/-! ## Models -/

/-- The function can be begun if there is none of its name: its parameters are found. -/
lemma beginFunction_exact {old : ℕ} {name : String} (hc : Enrolled old model.roster c)
    (hcommitted : c.backend.committed.vars ≤ old) (hpending : c.backend.pending = none) :
    Exact (onBackend (Backend.beginFunction name
        (model.roster.map fun entry => parameterOf entry.1 entry.2))) c
      (c.backend.program.function? name = none) fun _ d => d.scopes = c.scopes ∧
        d.compiled = c.compiled ∧ d.options = c.options ∧ d.backend.Tidy ∧
        ∃ pending : PendingFunction, pending.regions = .empty c.backend.policy ∧
          d.backend = c.backend.withPending pending where
  sound {_ d} hrun := by
    obtain ⟨vars, -, hnew, hscopes, htidy, hbackend⟩ := beginFunction_ok hc.tidy hrun
    obtain ⟨backend, -, rfl⟩ := onBackend_change_eq_ok.mp hrun
    exact ⟨hnew, rfl, rfl, rfl, htidy, _, rfl, hbackend⟩
  complete hnew := by
    -- every parameter has a variable that answers to it
    have hfound : ∀ parameter ∈ model.roster.map fun entry => parameterOf entry.1 entry.2,
        ∃ id, c.backend.variableFor parameter = .ok id := by
      intro parameter hparameter
      obtain ⟨entry, hentry, rfl⟩ := List.mem_map.mp hparameter
      obtain ⟨i, hi⟩ := List.getElem?_of_mem hentry
      obtain ⟨var, hvar, hsame, -⟩ := hc.vars i entry hi
      obtain ⟨hname, hclass, -⟩ := Parameter.mk.inj hsame
      have hmem : var ∈ c.backend.uncommitted := by
        rw [VariableTable.get?_eq] at hvar
        refine List.mem_of_getElem? (i := old + i - c.backend.committed.vars) ?_
        rw [Assembler.uncommitted, List.getElem?_drop, ← hvar,
          Nat.add_sub_cancel' (hcommitted.trans (Nat.le_add_right old i))]
      have hanswers : var.answers (parameterOf entry.1 entry.2) = true :=
        decide_eq_true ⟨hclass, hname⟩
      have hsome : (c.backend.uncommitted.find? fun var =>
          var.answers (parameterOf entry.1 entry.2)).isSome :=
        List.find?_isSome.mpr ⟨var, hmem, hanswers⟩
      obtain ⟨found, hfind⟩ := Option.isSome_iff_exists.mp hsome
      exact ⟨found.id, Assembler.variableFor_eq_ok.mpr ⟨found, hfind, rfl⟩⟩
    obtain ⟨vars, hvars⟩ := Except.exists_mapM_eq_ok.mpr hfound
    exact ⟨(), _, onBackend_change_eq_ok.mpr
      ⟨_, Assembler.beginFunction_eq_ok.mpr ⟨hpending, hnew, vars, hvars, rfl⟩, rfl⟩⟩
  portable hrun := by
    obtain ⟨fault, hrefused, rfl, -⟩ := onBackend_change_eq_error.mp hrun
    exact .inl (Assembler.anonymous_of_beginFunction hrefused)

/-- A compiler that can begin a compilation. -/
structure Idle (c : Compiler Assembler) : Prop where
  orderly : c.backend.Orderly
  pending : c.backend.pending = none
  within : c.backend.used ≤ c.backend.limit

/-- The nodes of a model come next exactly if no function has the name and the storage of the
parameters can be reserved. -/
lemma beginModel_exact {name : String} (hmodel : model.Arranged) (hc : c.Idle)
    (hscopes : c.scopes = .root) (hcompiled : c.compiled = []) :
    Exact (beginModel model name) c
      (c.backend.used + model.parameterSize ≤ c.backend.limit ∧
        c.backend.program.function? name = none)
      fun _ d => Underway model 0 d ∧ d.options = c.options ∧
        d.backend.used = c.backend.used + model.parameterSize ∧
        d.backend.limit = c.backend.limit := by
  refine (notify_exact hc.orderly.tidy _ _).always_bind ?_
  rintro - c₁ ⟨hstep₁, hspends₁⟩
  have hused₁ : c₁.backend.used = c.backend.used := hspends₁.used
  rw [← hused₁, ← hspends₁.limit, ← hstep₁.options]
  refine (allocateParameters_exact (enrolled_nil hstep₁.tidy (hstep₁.scopes.trans hscopes))
    (hspends₁.within hc.within)).bind ?_
  rintro hparameters parameters c₂ ⟨henrols, henrolled, hstep₂, rfl⟩
  have hfunctions : c₂.backend.program.function? name = c.backend.program.function? name := by
    rw [Program.function?, Program.function?, hstep₂.functions_eq, hstep₁.backend.functions_eq]
  have hcommitted : c₂.backend.committed.vars ≤ c₁.backend.vars.size := by
    rw [hstep₂.committed_eq, hstep₁.backend.committed_eq]
    exact hc.orderly.committed.trans hstep₁.backend.vars.size_le
  have hpending₂ : c₂.backend.pending = none := by
    have := hstep₂.pending_eq.trans (hstep₁.backend.pending_eq)
    rw [hc.pending] at this
    exact Option.map_eq_none_iff.mp this
  rw [← hfunctions, ← henrols.spends.used, ← henrols.spends.limit, ← henrols.options]
  refine (beginFunction_exact henrolled hcommitted hpending₂).onBehalfOf.bind_always ?_
  rintro - - c₃ ⟨hscopes₃, hcompiled₃, hoptions₃, htidy₃, pending, hregions, hbackend₃⟩
  have hvars₃ : c₃.backend.vars = c₂.backend.vars := by
    rw [hbackend₃]
    rfl
  have hused₃ : c₃.backend.used = c₂.backend.used := by
    rw [hbackend₃]
    rfl
  have hlimit₃ : c₃.backend.limit = c₂.backend.limit := by
    rw [hbackend₃]
    rfl
  have hlookup : c₃.variableOf? = c₂.variableOf? := by
    funext port
    rw [variableOf?, variableOf?, hscopes₃]
  have hscoped : Scoped model 0 c₃ :=
    (henrolled.scoped hmodel.toWellFormed).step htidy₃ (hvars₃ ▸ .refl _) hscopes₃
  refine (Exact.pure _).mono ?_
  rintro - _ t ⟨rfl, ht⟩
  obtain rfl : c₃ = t := ht.symm
  refine ⟨⟨⟨hscoped, fun port id var hid hvar => ?_, fun other => ?_, ?_⟩, [], ?_,
    fun _ h => absurd h List.not_mem_nil⟩, hoptions₃, hused₃, hlimit₃⟩
  · rw [hlookup] at hid
    obtain ⟨i, -, -, -, rfl⟩ := henrolled.bound port id hid
    exact henrols.spends.stored _ var (Nat.le_add_right _ i) (hvars₃ ▸ hvar)
  · have hnone : c₃.compiled = [] := by
      rw [hcompiled₃, henrols.compiled, hstep₁.compiled, hcompiled]
    rw [isCompiled, hnone]
    simp
  · rw [hused₃, hlimit₃]
    exact henrols.spends.within hparameters
  · rw [hbackend₃, Assembler.opened, Assembler.withPending, Option.map_some, hregions]
    rfl

/-- A model is compiled into an open function exactly if no function has its name, its nodes meet
the requirements and its storage can be reserved. -/
lemma compileOpen_lowers {name : String} (hmodel : model.Arranged) (hc : c.Idle)
    (hscopes : c.scopes = .root) (hcompiled : c.compiled = []) :
    Exact (compileOpen model name) c
      (c.backend.program.function? name = none ∧
        (∀ node ∈ model.nodes.toList, model.Lowers c.options.checkElementTypes node) ∧
        c.backend.used + model.demand ≤ c.backend.limit)
      fun _ d => d.backend.pending.isSome ∧
        d.backend.used = c.backend.used + model.demand := by
  have hrun : Exact (compileOpen model name) c
      ((c.backend.used + model.parameterSize ≤ c.backend.limit ∧
          c.backend.program.function? name = none) ∧
        (∀ node ∈ model.nodes.toList, model.Lowers c.options.checkElementTypes node) ∧
        c.backend.used + model.parameterSize + (model.nodes.toList.map Node.demand).sum ≤
          c.backend.limit)
      fun _ d => d.backend.pending.isSome ∧ d.backend.used =
        c.backend.used + model.parameterSize + (model.nodes.toList.map Node.demand).sum := by
    rw [compileOpen_split]
    refine (beginModel_exact hmodel hc hscopes hcompiled).bind ?_
    rintro - parameters c₁ ⟨hunderway, hoptions, hused, hlimit⟩
    rw [← hused, ← hlimit, ← hoptions]
    refine (compileNodes_lowers hmodel hunderway List.drop_zero true).bind_always ?_
    rintro - - c₂ ⟨hpending, hused₂⟩
    refine (Exact.change _).bind_always ?_
    rintro - - _ rfl
    refine (Exact.pure _).mono ?_
    rintro - _ _ ⟨-, rfl⟩
    exact ⟨hpending, hused₂⟩
  rw [← model.demand_eq, ← Nat.add_assoc]
  refine hrun.iff ?_
  constructor
  · rintro ⟨⟨-, hnew⟩, hlowers, hlimit⟩
    exact ⟨hnew, hlowers, hlimit⟩
  · rintro ⟨hnew, hlowers, hlimit⟩
    exact ⟨⟨by omega, hnew⟩, hlowers, hlimit⟩

/-- **When a model is compiled.**  On a compiler that can begin a compilation, an arranged model is
compiled exactly if no function has its name, its nodes meet the requirements and its storage can be
reserved. -/
lemma compile_lowers {name : String} (hmodel : model.Arranged) (hc : c.Idle) :
    Exact (compile model name) c
      (c.backend.program.function? name = none ∧
        (∀ node ∈ model.nodes.toList, model.Lowers c.options.checkElementTypes node) ∧
        c.backend.used + model.demand ≤ c.backend.limit)
      fun _ d => d.backend.used = c.backend.used + model.demand := by
  have hopen : Exact (compileOpen model name) (c.enter name) _ _ :=
    compileOpen_lowers (c := c.enter name) hmodel ⟨hc.orderly, hc.pending, hc.within⟩ rfl rfl
  have hended : ∀ {parameters opened}, compileOpen model name (c.enter name) =
      .ok parameters opened → ∃ backend, opened.backend.endFunction = .ok backend := by
    intro parameters opened hopened
    obtain ⟨pending, hpending⟩ := Option.isSome_iff_exists.mp (hopen.sound hopened).2.1
    exact ⟨_, Assembler.endFunction_eq_ok.mpr ⟨pending, hpending, rfl⟩⟩
  refine ⟨fun {answer d} hrun => ?_, fun hcondition => ?_, fun {e d} hrun => ?_⟩
  · obtain ⟨parameters, opened, backend, hopened, hend, -, rfl⟩ := compile_eq_ok hrun
    obtain ⟨hcondition, -, hused⟩ := hopen.sound hopened
    obtain ⟨_, -, rfl⟩ := Assembler.endFunction_eq_ok.mp hend
    exact ⟨hcondition, hused⟩
  · obtain ⟨parameters, opened, hopened⟩ := hopen.complete hcondition
    obtain ⟨backend, hend⟩ := hended hopened
    exact ⟨_, _, compile_of_compileOpen hopened hend⟩
  · cases hopened : compileOpen model name (c.enter name) with
    | ok parameters opened =>
      obtain ⟨backend, hend⟩ := hended hopened
      cases (compile_of_compileOpen hopened hend).symm.trans hrun
    | error e' reached =>
      rw [compile, compileBody_eq, bind_run, hopened] at hrun
      exact (EStateM.Result.error.inj hrun).1 ▸ hopen.portable hopened

lemma idle_fresh (program : String) (policy : MergePolicy) (limit : ℕ) (options : Options) :
    (fresh (Assembler.fresh program policy limit) options).Idle :=
  ⟨.fresh program policy limit, rfl, Nat.zero_le _⟩

/-- On a fresh compiler nothing but the model matters. -/
lemma compile_fresh_iff (hmodel : model.Arranged) (program name : String) (policy : MergePolicy)
    (limit : ℕ) (options : Options) :
    (∃ answer last, compile model name (fresh (Assembler.fresh program policy limit) options) =
        .ok answer last) ↔
      (∀ node ∈ model.nodes.toList, model.Lowers options.checkElementTypes node) ∧
        model.demand ≤ limit := by
  have hexact : Exact (compile model name)
      (fresh (Assembler.fresh program policy limit) options) _ _ :=
    compile_lowers hmodel (idle_fresh program policy limit options)
  have hzero : (fresh (Assembler.fresh program policy limit) options).backend.used +
      model.demand = model.demand := Nat.zero_add _
  constructor
  · rintro ⟨answer, last, hrun⟩
    obtain ⟨⟨-, hlowers, hlimit⟩, -⟩ := hexact.sound hrun
    exact ⟨hlowers, hzero.symm.trans_le hlimit⟩
  · rintro ⟨hlowers, hlimit⟩
    exact hexact.complete ⟨rfl, hlowers, hzero.trans_le hlimit⟩

end Compiler
end Dataflow
