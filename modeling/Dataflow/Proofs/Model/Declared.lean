import Dataflow.Model.Parser
import Dataflow.Proofs.Except
import Dataflow.Proofs.Model.WellFormed

/-!
# The model that a draft describes

Resolving the references of a draft turns each of its declarations into the node that stands at the
same position (`Declaration.Describes`), and there is no other way for it to succeed
(`Draft.toModel_eq_ok`).
-/

namespace Dataflow

/-- What a declaration says of its node, if its references are to the given ports. -/
structure Declaration.Describes (ports : List OutputPort) (declaration : Declaration)
    (node : Node) : Prop where
  name : node.name = declaration.name
  kind : node.kind = declaration.kind
  elementType : node.elementType = declaration.elementType
  size : node.size = declaration.size
  inputs : ∃ ranges,
    List.Forall₂ (fun reference range => Draft.resolve ports declaration.line reference = .ok range)
      declaration.references ranges ∧ node.inputs = Draft.inputPorts declaration.kind ranges

variable {model m next : Model} {ports : List OutputPort} {declaration : Declaration}
  {declarations : List Declaration} {line : ℕ}

lemma Declaration.names_eq {nodes : List Node}
    (h : List.Forall₂ (Describes ports) declarations nodes) :
    nodes.map Node.name = declarations.map Declaration.name := by
  induction h with
  | nil => rfl
  | cons hdescribes _ ih => rw [List.map_cons, List.map_cons, hdescribes.name, ih]

namespace Model

lemma Numbered.id_of_toList (h : m.Numbered) {before after : List Node} {node : Node}
    (hnodes : m.nodes.toList = before ++ node :: after) : node.id = ⟨before.length⟩ := by
  refine h before.length node ?_
  rw [← Array.getElem?_toList, hnodes, List.getElem?_append_right le_rfl, Nat.sub_self]
  rfl

/-- Two models with equal names and nodes are equal. -/
lemma eq_of_toList (hname : m.name = model.name) (hnodes : m.nodes.toList = model.nodes.toList) :
    m = model := by
  cases m
  cases model
  rw [Model.mk.injEq]
  exact ⟨hname, Array.toList_inj.mp hnodes⟩

end Model

namespace Draft

/-! ## References -/

lemma resolve_eq_ok {reference : Reference} {range : PortRange}
    (hdistinct : (ports.map OutputPort.name).Nodup) :
    resolve ports line reference = .ok range ↔
      ∃ port ∈ ports, port.name = reference.name ∧ reference.range port = range := by
  rw [resolve]
  cases hfind : ports.find? fun port => port.name = reference.name with
  | none =>
    refine ⟨fun h => (nomatch h), fun ⟨port, hport, hname, _⟩ => ?_⟩
    exact absurd (decide_eq_true hname) (List.find?_eq_none.mp hfind port hport)
  | some found =>
    have hfound : found ∈ ports := List.mem_of_find?_eq_some hfind
    have hname : found.name = reference.name := by simpa using List.find?_some hfind
    refine ⟨fun h => ⟨found, hfound, hname, Except.ok.inj h⟩, ?_⟩
    rintro ⟨port, hport, hname', rfl⟩
    rw [List.inj_on_of_nodup_map hdistinct hfound hport (hname.trans hname'.symm)]

/-- The input ports of a node hold the ranges that have been distributed over them. -/
lemma ranges_inputPorts {kind : NodeKind} {ranges : List PortRange}
    (hnone : kind.inputNames = [] → ranges = [])
    (hmany : 1 < kind.inputNames.length → ranges.length = kind.inputNames.length) :
    (inputPorts kind ranges).flatMap (fun input => input.elements.ranges) = ranges := by
  rw [inputPorts]
  split
  · next hlt =>
    have hzip : ∀ (names : List String) (ranges : List PortRange), ranges.length = names.length →
        (List.zipWith (fun name range => (⟨name, .ofRange range⟩ : InputPort)) names
          ranges).flatMap (fun input => input.elements.ranges) = ranges := by
      intro names ranges hlength
      induction names generalizing ranges with
      | nil => exact (List.length_eq_zero_iff.mp hlength).symm
      | cons name names ih =>
        obtain ⟨range, others, rfl⟩ := List.exists_cons_of_length_eq_add_one hlength
        rw [List.zipWith_cons_cons, List.flatMap_cons, ih others (Nat.succ.inj hlength)]
        rfl
    exact hzip _ ranges (hmany hlt)
  · next hle =>
    cases hnames : kind.inputNames with
    | nil => rw [hnone hnames]; rfl
    | cons name others =>
      obtain rfl : others = [] := by
        rw [hnames, List.length_cons] at hle
        exact List.length_eq_zero_iff.mp (by omega)
      exact List.append_nil ranges

/-! ## Nodes -/

lemma addDeclared_eq_ok : addDeclared ports model declaration = .ok next ↔
    ∃ node, node.id = model.nextNode ∧ declaration.Describes ports node ∧
      next = ⟨model.name, model.nodes.push node⟩ := by
  rw [addDeclared, Except.bind_eq_ok]
  simp only [Except.mapM_eq_ok, Except.pure_eq_ok]
  constructor
  · rintro ⟨ranges, hranges, rfl⟩
    exact ⟨_, rfl, ⟨rfl, rfl, rfl, rfl, ranges, hranges, rfl⟩, rfl⟩
  · rintro ⟨⟨id, name, kind, inputs, elementType, size⟩, hid, hdescribes, rfl⟩
    obtain ⟨rfl, rfl, rfl, rfl, ranges, hranges, rfl⟩ := hdescribes
    cases hid
    exact ⟨ranges, hranges, rfl⟩

lemma foldlM_addDeclared (hmodel : model.Numbered) :
    declarations.foldlM (addDeclared ports) model = .ok m ↔
      m.Numbered ∧ m.name = model.name ∧ ∃ added, m.nodes.toList = model.nodes.toList ++ added ∧
        List.Forall₂ (Declaration.Describes ports) declarations added := by
  induction declarations generalizing model with
  | nil =>
    rw [List.foldlM_nil, Except.pure_eq_ok]
    simp only [List.forall₂_nil_left_iff, exists_eq_right, List.append_nil]
    exact ⟨fun h => h ▸ ⟨hmodel, rfl, rfl⟩,
      fun ⟨_, hname, hnodes⟩ => (Model.eq_of_toList hname hnodes).symm⟩
  | cons declaration declarations ih =>
    rw [List.foldlM_cons, Except.bind_eq_ok]
    simp only [addDeclared_eq_ok]
    constructor
    · rintro ⟨_, ⟨node, hid, hdescribes, rfl⟩, hrest⟩
      obtain ⟨hnumbered, hname, added, hnodes, hadded⟩ := (ih (hmodel.push hid)).mp hrest
      refine ⟨hnumbered, hname, node :: added, ?_, .cons hdescribes hadded⟩
      rw [hnodes, Array.toList_push, List.append_assoc, List.singleton_append]
    · rintro ⟨hnumbered, hname, added, hnodes, hadded⟩
      cases hadded with
      | @cons _ node _ others hdescribes hothers =>
        have hid : node.id = model.nextNode := by
          rw [hnumbered.id_of_toList hnodes, Array.length_toList, Model.nextNode]
        refine ⟨_, ⟨node, hid, hdescribes, rfl⟩, (ih (hmodel.push hid)).mpr ?_⟩
        refine ⟨hnumbered, hname, others, ?_, hothers⟩
        rw [hnodes, Array.toList_push, List.append_assoc, List.singleton_append]

variable {draft : Draft}

/-- The model of a draft has a node for every declaration, numbered by position. -/
lemma toModel_eq_ok : draft.toModel = .ok m ↔ m.Numbered ∧ m.name = draft.name ∧
    List.Forall₂ (Declaration.Describes draft.ports) draft.declarations m.nodes.toList := by
  have hempty : (Model.empty draft.name).Numbered := fun i node h => (nomatch h)
  rw [toModel, foldlM_addDeclared hempty]
  simp only [Model.empty, List.nil_append, exists_eq_left']

/-- The ports that references are resolved among are the ports of the model. -/
lemma ports_eq (hnumbered : m.Numbered)
    (h : List.Forall₂ (Declaration.Describes ports) draft.declarations m.nodes.toList) :
    draft.ports = m.nodes.toList.map Node.port := by
  rw [Draft.ports]
  refine List.ext_getElem (by simp [h.length_eq]) fun i hi hi' => ?_
  rw [List.getElem_mapIdx, List.getElem_map]
  rw [List.length_mapIdx] at hi
  rw [List.length_map] at hi'
  have hdescribes := h.get hi hi'
  have hnode : m.nodes[i]? = some m.nodes.toList[i] := by
    rw [← Array.getElem?_toList, List.getElem?_eq_getElem hi']
  rw [List.get_eq_getElem, List.get_eq_getElem] at hdescribes
  rw [Node.port, hnumbered i _ hnode, hdescribes.name, hdescribes.elementType, hdescribes.size]

end Draft
end Dataflow
