import Dataflow.Proofs.Compiler.Layout

/-!
# Parameters

Before the first node is compiled, every input and output of a model gets a variable of its own
name, in the order of the model's roster (`Enrolled`).  The assembler looks for the variable of a
parameter by class and name among all that are not committed.  Names are distinct within a model, so
it finds the one that the compiler has bound to the port, unless an earlier one is left over that
answers to the parameter as well (`Enrolled.variableFor_iff`).
-/

namespace Dataflow

open Attempt

/-- The inputs and then the outputs of a model, with their storage classes. -/
def Model.roster (model : Model) : List (StorageClass × OutputPort) :=
  model.inputPorts.map (Prod.mk .input) ++ model.outputPorts.map (Prod.mk .output)

namespace Model

variable {model : Model}

lemma mem_roster {entry : StorageClass × OutputPort} : entry ∈ model.roster ↔
    ∃ node ∈ model.nodes.toList, entry = (node.kind.storage, node.port) ∧
      node.kind.storage ≠ .global := by
  obtain ⟨storage, port⟩ := entry
  simp only [roster, inputPorts, outputPorts, List.mem_append, List.mem_map, List.mem_filter,
    Prod.mk.injEq]
  constructor
  · rintro (⟨_, ⟨node, ⟨hmem, hkind⟩, rfl⟩, rfl, rfl⟩ | ⟨_, ⟨node, ⟨hmem, hkind⟩, rfl⟩, rfl, rfl⟩)
    · refine ⟨node, hmem, ?_⟩
      split at hkind
      · next h => rw [h]; exact ⟨⟨rfl, rfl⟩, by decide⟩
      · cases hkind
    · refine ⟨node, hmem, ?_⟩
      split at hkind
      · next h => rw [h]; exact ⟨⟨rfl, rfl⟩, by decide⟩
      · cases hkind
  · rintro ⟨node, hmem, ⟨rfl, rfl⟩, hstorage⟩
    cases hkind : node.kind with
    | input => exact .inl ⟨_, ⟨node, ⟨hmem, by rw [hkind]⟩, rfl⟩, rfl, rfl⟩
    | output => exact .inr ⟨_, ⟨node, ⟨hmem, by rw [hkind]⟩, rfl⟩, rfl, rfl⟩
    | _ => exact absurd (by rw [hkind]; rfl) hstorage

lemma WellFormed.nodup_roster (h : model.WellFormed) :
    (model.roster.map fun entry => entry.2.name).Nodup := by
  have hports : ∀ p : Node → Bool,
      (((model.nodes.toList.filter p).map Node.port).map OutputPort.name).Nodup := by
    intro p
    rw [List.map_map]
    exact h.distinct.sublist (List.filter_sublist.map Node.name)
  rw [roster, List.map_append, List.map_map, List.map_map]
  refine List.nodup_append.mpr ⟨hports _, hports _, ?_⟩
  -- an input and an output of one name would be one node
  intro name hinput other houtput heq
  obtain ⟨port, hport, rfl⟩ := List.mem_map.mp hinput
  obtain ⟨port', hport', rfl⟩ := List.mem_map.mp houtput
  obtain ⟨node, hnode, hentry, -⟩ := mem_roster.mp
    (List.mem_append_left (model.outputPorts.map (Prod.mk .output))
      (List.mem_map_of_mem (f := Prod.mk StorageClass.input) hport))
  obtain ⟨node', hnode', hentry', -⟩ := mem_roster.mp
    (List.mem_append_right (model.inputPorts.map (Prod.mk .input))
      (List.mem_map_of_mem (f := Prod.mk StorageClass.output) hport'))
  obtain ⟨hstorage, rfl⟩ := Prod.mk.inj hentry
  obtain ⟨hstorage', rfl⟩ := Prod.mk.inj hentry'
  obtain rfl := h.eq_of_name hnode hnode' heq
  cases hstorage.trans hstorage'.symm

/-- An entry of the roster is known by its port. -/
lemma WellFormed.eq_of_port (h : model.WellFormed) {entry entry' : StorageClass × OutputPort}
    (hentry : entry ∈ model.roster) (hentry' : entry' ∈ model.roster)
    (hport : entry.2.id = entry'.2.id) : entry = entry' := by
  obtain ⟨node, hnode, rfl, -⟩ := mem_roster.mp hentry
  obtain ⟨node', hnode', rfl, -⟩ := mem_roster.mp hentry'
  have hget := h.numbered.getElem?_port hnode
  have hsame : node.port.id = node'.port.id := hport
  rw [hsame, h.numbered.getElem?_port hnode'] at hget
  rw [Option.some.inj hget]

end Model

/-- Whether a variable has the class and the name of a parameter. -/
def Variable.answers (var : Variable) (parameter : Parameter) : Bool :=
  var.storage = parameter.storage ∧ var.name = parameter.name

namespace Assembler

/-- The variables since the latest finished function. -/
def uncommitted (a : Assembler) : List Variable := a.vars.toList.drop a.committed.vars

/-- What is looked up for a parameter. -/
lemma variableFor_eq (a : Assembler) (parameter : Parameter) : a.variableFor parameter =
    (a.uncommitted.find? fun var => var.answers parameter).elim
      (.error (.undeclaredParameter parameter.name)) fun var => .ok var.id := by
  have hfind : (a.vars.toList.drop a.committed.vars).find? (fun var =>
      var.storage = parameter.storage ∧ var.name = parameter.name) =
        a.uncommitted.find? (fun var => var.answers parameter) := rfl
  rw [variableFor, hfind]
  cases a.uncommitted.find? (fun var => var.answers parameter) <;> rfl

/-- The first variable that answers to a parameter is found for it. -/
lemma variableFor_eq_ok {a : Assembler} {parameter : Parameter} {id : VarId} :
    a.variableFor parameter = .ok id ↔
      ∃ var, a.uncommitted.find? (fun var => var.answers parameter) = some var ∧ var.id = id := by
  rw [variableFor_eq]
  cases a.uncommitted.find? (fun var => var.answers parameter) <;> simp

lemma anonymous_of_variableFor {a : Assembler} {parameter : Parameter} {fault : BackendFault}
    (h : a.variableFor parameter = .error fault) : fault.Anonymous := by
  rw [variableFor_eq] at h
  cases hfind : a.uncommitted.find? fun var => var.answers parameter with
  | none =>
    rw [hfind] at h
    exact Except.error.inj h ▸ trivial
  | some var =>
    rw [hfind] at h
    cases h

lemma anonymous_of_beginFunction {a : Assembler} {name : String} {parameters : List Parameter}
    {fault : BackendFault} (h : a.beginFunction name parameters = .error fault) :
    fault.Anonymous := by
  rw [beginFunction] at h
  cases hpending : a.pending with
  | some pending =>
    rw [hpending] at h
    exact Except.error.inj h ▸ trivial
  | none =>
    rw [hpending] at h
    by_cases hname : (a.program.function? name).isSome
    · simp only [if_pos hname] at h
      exact Except.error.inj h ▸ trivial
    · simp only [if_neg hname] at h
      rcases Except.bind_eq_error.mp h with hvars | ⟨_, -, hrest⟩
      · obtain ⟨parameter, -, hmissing⟩ := Except.exists_of_mapM_eq_error hvars
        exact anonymous_of_variableFor hmissing
      · cases hrest

end Assembler

namespace Compiler

variable {model : Model} {c d : Compiler Assembler} {roster : List (StorageClass × OutputPort)}
variable {old : ℕ}

/-- The ports of a roster have variables, in the order of the roster and behind the first `old`
ones, and no others have. -/
structure Enrolled (old : ℕ) (roster : List (StorageClass × OutputPort)) (c : Compiler Assembler) :
    Prop where
  tidy : c.backend.Tidy
  size : c.backend.vars.size = old + roster.length
  vars : ∀ (i : ℕ) (entry : StorageClass × OutputPort), roster[i]? = some entry →
    ∃ var, c.backend.vars.get? ⟨old + i⟩ = some var ∧
      var.toParameter = parameterOf entry.1 entry.2 ∧ var.initializer = .zero
  bound : ∀ port id, c.variableOf? port = some id →
    ∃ i entry, roster[i]? = some entry ∧ entry.2.id = port ∧ id = ⟨old + i⟩
  complete : ∀ entry ∈ roster, (c.variableOf? entry.2.id).isSome

/-- At first nothing is bound. -/
lemma enrolled_nil (hc : c.backend.Tidy) (hscopes : c.scopes = .root) :
    Enrolled c.backend.vars.size [] c where
  tidy := hc
  size := rfl
  vars _ _ h := (nomatch h)
  bound port id h := by
    rw [variableOf?, hscopes] at h
    cases h
  complete _ h := absurd h List.not_mem_nil

lemma allocateParameter_ok (hc : Enrolled old roster c) {storage : StorageClass} {port : OutputPort}
    {parameter : Parameter} (h : allocateParameter storage port c = .ok parameter d) :
    Enrolled old (roster ++ [(storage, port)]) d ∧ parameter = parameterOf storage port ∧
      c.backend.Step [] d.backend := by
  obtain ⟨id, c', hallocate, h₁⟩ := bind_eq_ok.mp h
  obtain ⟨hparameter, rfl⟩ := EStateM.Result.ok.inj h₁
  obtain ⟨hstep, rfl, hlist⟩ := allocate_ok hc.tidy (onBehalfOf_eq_ok.mp hallocate)
  have hnext : c.backend.vars.next = ⟨old + roster.length⟩ := congrArg VarId.mk hc.size
  have hlast := VariableTable.get?_next hlist
  refine ⟨⟨hstep.tidy, ?_, fun i entry hentry => ?_, fun other id hid => ?_, fun entry hmem => ?_⟩,
    hparameter.symm, hstep.backend⟩
  · have := congrArg List.length hlist
    simp only [VariableTable.length_toList, List.length_append, List.length_singleton] at this
    rw [List.length_append, List.length_singleton, ← Nat.add_assoc, ← hc.size]
    exact this
  · by_cases hi : i < roster.length
    · rw [List.getElem?_append_left hi] at hentry
      obtain ⟨var, hvar, hparam⟩ := hc.vars i entry hentry
      exact ⟨var, hstep.backend.vars.get? hvar, hparam⟩
    · obtain ⟨hlt, -⟩ := List.getElem?_eq_some_iff.mp hentry
      rw [List.length_append, List.length_singleton] at hlt
      obtain rfl : i = roster.length := by omega
      rw [List.getElem?_concat_length, Option.some.injEq] at hentry
      rw [hnext] at hlast
      exact ⟨_, hlast, by rw [← hentry]; rfl, rfl⟩
  · by_cases heq : port.id = other
    · subst heq
      have hown := variableOf?_bindPort c' port.id c.backend.vars.next
      obtain rfl : c.backend.vars.next = id := Option.some.inj (hown.symm.trans hid)
      exact ⟨_, _, List.getElem?_concat_length, rfl, hnext⟩
    · have hlookup := c'.scopes.lookup_bind_of_ne heq c.backend.vars.next
      obtain ⟨i, entry, hentry, hport, hindex⟩ := hc.bound other id
        ((hstep.variableOf?_eq other).symm.trans (hlookup.symm.trans hid))
      obtain ⟨hlt, -⟩ := List.getElem?_eq_some_iff.mp hentry
      exact ⟨i, entry, (List.getElem?_append_left hlt).trans hentry, hport, hindex⟩
  · by_cases heq : port.id = entry.2.id
    · rw [← heq]
      show ((c'.bindPort port.id _).variableOf? port.id).isSome
      rw [variableOf?_bindPort]
      rfl
    · have hlookup : (c'.bindPort port.id c.backend.vars.next).variableOf? entry.2.id = _ :=
        c'.scopes.lookup_bind_of_ne heq c.backend.vars.next
      rcases List.mem_append.mp hmem with hold | hnew
      · obtain ⟨id, hid⟩ := Option.isSome_iff_exists.mp (hc.complete entry hold)
        show ((c'.bindPort port.id _).variableOf? entry.2.id).isSome
        rw [hlookup]
        exact Option.isSome_iff_exists.mpr ⟨id, (hstep.variableOf?_eq _).trans hid⟩
      · rw [List.mem_singleton.mp hnew] at heq
        exact absurd rfl heq

lemma allocateAll_ok (hc : Enrolled old roster c) {storage : StorageClass} {ports : List OutputPort}
    {parameters : List Parameter}
    (h : ports.mapM (allocateParameter storage) c = .ok parameters d) :
    Enrolled old (roster ++ ports.map (Prod.mk storage)) d ∧
      parameters = ports.map (parameterOf storage) ∧ c.backend.Step [] d.backend := by
  induction ports generalizing roster c parameters with
  | nil =>
    obtain ⟨rfl, rfl⟩ := EStateM.Result.ok.inj h
    exact ⟨by rwa [List.map_nil, List.append_nil], rfl, .refl hc.tidy⟩
  | cons port rest ih =>
    rw [List.mapM_cons] at h
    obtain ⟨parameter, c', hparameter, h₁⟩ := bind_eq_ok.mp h
    obtain ⟨others, _, hothers, h₂⟩ := bind_eq_ok.mp h₁
    obtain ⟨rfl, rfl⟩ := EStateM.Result.ok.inj h₂
    obtain ⟨henrolled, rfl, hstep⟩ := allocateParameter_ok hc hparameter
    obtain ⟨henrolled', rfl, hsteps⟩ := ih henrolled hothers
    rw [List.append_assoc] at henrolled'
    exact ⟨henrolled', rfl, hstep.trans hsteps⟩

/-- Every input and output is enrolled. -/
lemma allocateParameters_ok (hc : Enrolled old [] c) {parameters : List Parameter}
    (h : allocateParameters model c = .ok parameters d) :
    Enrolled old model.roster d ∧ c.backend.Step [] d.backend ∧
      parameters = model.roster.map fun entry => parameterOf entry.1 entry.2 := by
  obtain ⟨inputs, c', hinputs, h₁⟩ := bind_eq_ok.mp h
  obtain ⟨outputs, _, houtputs, h₂⟩ := bind_eq_ok.mp h₁
  obtain ⟨rfl, rfl⟩ := EStateM.Result.ok.inj h₂
  obtain ⟨henrolled, rfl, hstep⟩ := allocateAll_ok hc hinputs
  obtain ⟨henrolled', rfl, hstep'⟩ := allocateAll_ok henrolled houtputs
  refine ⟨henrolled', hstep.trans hstep', ?_⟩
  rw [Model.roster, List.map_append, List.map_map, List.map_map]
  rfl

/-! ## Beginning the function -/

/-- The variable of a parameter is known from the parameter's place in the roster. -/
lemma Enrolled.variableOf?_eq (h : Enrolled old model.roster c) (hmodel : model.WellFormed) {i : ℕ}
    {entry : StorageClass × OutputPort} (hentry : model.roster[i]? = some entry) :
    c.variableOf? entry.2.id = some ⟨old + i⟩ := by
  have hmem := List.mem_of_getElem? hentry
  obtain ⟨id, hid⟩ := Option.isSome_iff_exists.mp (h.complete entry hmem)
  obtain ⟨j, entry', hentry', hport, rfl⟩ := h.bound _ id hid
  obtain rfl := hmodel.eq_of_port (List.mem_of_getElem? hentry') hmem hport
  have hij : i = j := by
    refine (List.getElem?_inj ?_ hmodel.nodup_roster.of_map).mp (hentry.trans hentry'.symm)
    exact (List.getElem?_eq_some_iff.mp hentry).1
  rw [hid, hij]

/-- Once the parameters are there, no node has been compiled. -/
lemma Enrolled.scoped (h : Enrolled old model.roster c) (hmodel : model.WellFormed) :
    Scoped model 0 c := by
  have hnode : ∀ port id, c.variableOf? port = some id → ∃ (i : ℕ) (node : Node),
      model.nodes[port.index]? = some node ∧ node.kind.storage ≠ .global ∧
        model.roster[i]? = some (node.kind.storage, node.port) ∧ id = ⟨old + i⟩ := by
    intro port id hid
    obtain ⟨i, entry, hentry, rfl, hindex⟩ := h.bound port id hid
    obtain ⟨node, hmem, rfl, hstorage⟩ := Model.mem_roster.mp (List.mem_of_getElem? hentry)
    exact ⟨i, node, hmodel.numbered.getElem?_port hmem, hstorage, hentry, hindex⟩
  refine ⟨h.tidy, fun port id hid => ?_, fun port port' id hid hid' => ?_, fun i node hi => ?_⟩
  · obtain ⟨i, node, hget, hstorage, hentry, rfl⟩ := hnode port id hid
    obtain ⟨var, hvar, hparameter, hzero⟩ := h.vars _ _ hentry
    obtain ⟨hname, hclass, htype, hsize⟩ := Parameter.mk.inj hparameter
    refine ⟨node, var, hget, hvar, ⟨htype, hsize, hclass, fun values hkind => ?_, fun _ => hzero⟩⟩
    exact absurd (by rw [hkind]; rfl) hstorage
  · obtain ⟨i, entry, hentry, rfl, rfl⟩ := h.bound port id hid
    obtain ⟨j, entry', hentry', rfl, hindex⟩ := h.bound port' _ hid'
    have hij : i = j := Nat.add_left_cancel (congrArg VarId.index hindex)
    rw [Option.some.inj (hentry.symm.trans (hij ▸ hentry'))]
  · constructor
    · intro hsome
      obtain ⟨id, hid⟩ := Option.isSome_iff_exists.mp hsome
      obtain ⟨-, node', hget, hstorage, -⟩ := hnode _ id hid
      obtain rfl : node = node' := Option.some.inj (hi.symm.trans hget)
      exact .inr hstorage
    · rintro (hlt | hstorage)
      · exact absurd hlt (Nat.not_lt_zero _)
      · have hcomplete : (c.variableOf? node.port.id).isSome :=
          h.complete _ (Model.mem_roster.mpr ⟨node, Model.mem_nodes hi, rfl, hstorage⟩)
        rwa [hmodel.numbered.port_id hi] at hcomplete

/-- Among the variables of the roster, a parameter finds its own. -/
lemma Enrolled.find?_eq (h : Enrolled old model.roster c) (hmodel : model.WellFormed) {i : ℕ}
    {entry : StorageClass × OutputPort} (hentry : model.roster[i]? = some entry) :
    ∃ var, (c.backend.vars.toList.drop old).find?
        (fun var => var.answers (parameterOf entry.1 entry.2)) = some var ∧
      var.id = ⟨old + i⟩ := by
  obtain ⟨var, hvar, hparameter, -⟩ := h.vars i entry hentry
  obtain ⟨hname, hclass, -⟩ := Parameter.mk.inj hparameter
  have hget : (c.backend.vars.toList.drop old)[i]? = some var := by
    rw [List.getElem?_drop, ← hvar, VariableTable.get?_eq]
  obtain ⟨hlt, hat⟩ := List.getElem?_eq_some_iff.mp hget
  have hroster := (List.getElem?_eq_some_iff.mp hentry).1
  refine ⟨var, List.find?_eq_some_iff_getElem.mpr ⟨?_, i, hlt, hat, fun j hj => ?_⟩,
    h.tidy.numbered _ var hvar⟩
  · simp [Variable.answers, parameterOf, hclass, hname]
  · -- a variable before it has the name of another port
    obtain ⟨other, hother, hparameter', -⟩ :=
      h.vars j _ (List.getElem?_eq_getElem (hj.trans hroster))
    have hget' : (c.backend.vars.toList.drop old)[j]? = some other := by
      rw [List.getElem?_drop, ← hother, VariableTable.get?_eq]
    rw [(List.getElem?_eq_some_iff.mp hget').2]
    have hne : other.name ≠ entry.2.name := by
      intro heq
      have hnames : (model.roster.map fun entry => entry.2.name)[j]? =
          (model.roster.map fun entry => entry.2.name)[i]? := by
        rw [List.getElem?_map, List.getElem?_map, hentry,
          List.getElem?_eq_getElem (hj.trans hroster)]
        exact congrArg some ((congrArg Parameter.name hparameter').symm.trans heq)
      have hindex := (List.getElem?_inj (by rw [List.length_map]; exact hj.trans hroster)
        hmodel.nodup_roster).mp hnames
      omega
    simp [Variable.answers, parameterOf, hne]

/-- What is found for a parameter is the variable that its port is bound to, just if no variable
that was left over answers to the parameter. -/
lemma Enrolled.variableFor_iff (h : Enrolled old model.roster c) (hmodel : model.WellFormed)
    {leftover : List Variable}
    (huncommitted : c.backend.uncommitted = leftover ++ c.backend.vars.toList.drop old)
    (hleftover : ∀ var ∈ leftover, var.id.index < old) {i : ℕ} {entry : StorageClass × OutputPort}
    (hentry : model.roster[i]? = some entry) {id : VarId}
    (hid : c.backend.variableFor (parameterOf entry.1 entry.2) = .ok id) :
    c.variableOf? entry.2.id = some id ↔
      ∀ var ∈ leftover, var.answers (parameterOf entry.1 entry.2) = false := by
  obtain ⟨own, hown, hindex⟩ := h.find?_eq hmodel hentry
  obtain ⟨var, hvar, rfl⟩ := Assembler.variableFor_eq_ok.mp hid
  rw [huncommitted, List.find?_append] at hvar
  rw [h.variableOf?_eq hmodel hentry, Option.some.injEq]
  cases hfind : leftover.find? (fun var => var.answers (parameterOf entry.1 entry.2)) with
  | none =>
    rw [hfind, Option.none_or, hown, Option.some.injEq] at hvar
    rw [← hvar]
    simpa [hindex] using List.find?_eq_none.mp hfind
  | some first =>
    rw [hfind, Option.some_or, Option.some.injEq] at hvar
    have hmem := List.mem_of_find?_eq_some hfind
    have hanswers := List.find?_some hfind
    rw [← hvar]
    constructor
    · intro heq
      have hlt := hleftover first hmem
      rw [← heq] at hlt
      simp only at hlt
      omega
    · intro hnone
      rw [hnone first hmem] at hanswers
      cases hanswers

end Compiler
end Dataflow
