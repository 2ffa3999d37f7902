import Dataflow.Proofs.Acceptance.Requirements
import Dataflow.Proofs.Compiler.Parameters

/-!
# Rewired models

Two models that differ at most in what feeds one of their nodes (`Model.Rewired`) have the same
ports.  So what only depends on ports is the same, such as the parameters of the model, and the
requirements of a node hold in one of the models if they hold in the other.  In `Model.reading` a
node with one input port is fed by other ranges.
-/

namespace Dataflow

/-- A node without what feeds it. -/
def Node.bare (node : Node) : Node := { node with inputs := [] }

lemma Node.of_bare_eq {node node' : Node} (h : node'.bare = node.bare) :
    node'.kind = node.kind ∧ node'.elementType = node.elementType ∧ node'.size = node.size ∧
      node'.port = node.port := by
  obtain ⟨id, name, kind, inputs, elementType, size⟩ := node
  obtain ⟨id', name', kind', inputs', elementType', size'⟩ := node'
  obtain ⟨rfl, rfl, rfl, -, rfl, rfl⟩ := Node.mk.inj h
  exact ⟨rfl, rfl, rfl, rfl⟩

/-- A node with one input port that is fed by given ranges. -/
def Node.reading (node : Node) (ranges : List PortRange) : Node :=
  { node with inputs := [⟨"input", ⟨ranges⟩⟩] }

namespace Model

/-- The model in which a node with one input port is fed by other ranges. -/
def reading (model : Model) (i : ℕ) (ranges : List PortRange) : Model :=
  { model with nodes := model.nodes.modify i fun node => node.reading ranges }

/-- Two models that differ at most in what feeds one node. -/
structure Rewired (model model' : Model) (i : ℕ) : Prop where
  bare : model'.nodes.toList.map Node.bare = model.nodes.toList.map Node.bare
  same : ∀ j ≠ i, model'.nodes[j]? = model.nodes[j]?

variable {model model' : Model} {i j : ℕ} {node node' : Node} {ranges : List PortRange}

lemma getElem?_reading (hnode : model.nodes[i]? = some node) :
    (model.reading i ranges).nodes[i]? = some (node.reading ranges) := by
  rw [reading, Array.getElem?_modify, if_pos rfl, hnode, Option.map_some]

lemma rewired_reading (model : Model) (i : ℕ) (ranges : List PortRange) :
    model.Rewired (model.reading i ranges) i where
  same j hj := by rw [reading, Array.getElem?_modify, if_neg hj.symm]
  bare := by
    apply List.ext_getElem?
    intro j
    rw [List.getElem?_map, List.getElem?_map, Array.getElem?_toList, Array.getElem?_toList,
      reading, Array.getElem?_modify]
    split_ifs
    · rw [Option.map_map]
      rfl
    · rfl

namespace Rewired

variable (h : model.Rewired model' i)

include h

lemma symm : model'.Rewired model i := ⟨h.bare.symm, fun j hj => (h.same j hj).symm⟩

/-! ## Ports -/

lemma size_eq : model'.nodes.size = model.nodes.size := by
  simpa using congrArg List.length h.bare

lemma getElem?_bare (j : ℕ) :
    (model'.nodes[j]?).map Node.bare = (model.nodes[j]?).map Node.bare := by
  rw [← Array.getElem?_toList, ← List.getElem?_map, h.bare, List.getElem?_map,
    Array.getElem?_toList]

lemma exists_node (hnode : model.nodes[j]? = some node) :
    ∃ node', model'.nodes[j]? = some node' ∧ node'.bare = node.bare := by
  have hbare := h.getElem?_bare j
  rw [hnode] at hbare
  exact Option.map_eq_some_iff.mp hbare

/-- What does not depend on inputs is the same for all nodes. -/
lemma map_eq {α : Type} {f : Node → α} (hf : ∀ node, f node.bare = f node) :
    model'.nodes.toList.map f = model.nodes.toList.map f := by
  have hmap (nodes : List Node) : (nodes.map Node.bare).map f = nodes.map f := by
    rw [List.map_map]
    exact List.map_congr_left fun node _ => hf node
  rw [← hmap, h.bare, hmap]

lemma port?_eq (id : PortId) : model'.port? id = model.port? id := by
  have hport (found : Option Node) : (found.map Node.bare).map Node.port = found.map Node.port := by
    rw [Option.map_map]
    rfl
  rw [port?, port?, ← hport, h.getElem?_bare, hport]

/-- So are the ports of nodes that are selected without regard to their inputs. -/
lemma filter_ports {selects : Node → Bool} (hselects : ∀ node, selects node.bare = selects node) :
    (model'.nodes.toList.filter selects).map Node.port =
      (model.nodes.toList.filter selects).map Node.port := by
  have hports (nodes : List Node) : ((nodes.map Node.bare).filter selects).map Node.port =
      (nodes.filter selects).map Node.port := by
    have hsame : selects ∘ Node.bare = selects := funext hselects
    rw [List.filter_map, List.map_map, hsame]
    rfl
  rw [← hports, h.bare, hports]

lemma inputPorts_eq : model'.inputPorts = model.inputPorts := h.filter_ports fun _ => rfl

lemma outputPorts_eq : model'.outputPorts = model.outputPorts := h.filter_ports fun _ => rfl

lemma accepts_iff {rows : List (List Float)} : model'.Accepts rows ↔ model.Accepts rows := by
  rw [Accepts, Accepts, h.inputPorts_eq]

lemma roster_eq : model'.roster = model.roster := by
  rw [roster, roster, h.inputPorts_eq, h.outputPorts_eq]

lemma gathered_eq (values : Values) (ranges : List PortRange) :
    model'.gathered values ranges = model.gathered values ranges := by
  have htype : model'.leadingType ranges = model.leadingType ranges := by
    simp only [leadingType, h.port?_eq]
  rcases ranges with _ | ⟨range, _ | ⟨other, rest⟩⟩
  · rfl
  · rfl
  · rw [gathered_of_length_ne _ _ (by simp), gathered_of_length_ne _ _ (by simp), htype]

lemma offers_iff {range : PortRange} : model'.Offers range ↔ model.Offers range := by
  rw [Offers, Offers, h.port?_eq]

lemma oneType_iff : model'.OneType ranges ↔ model.OneType ranges := by
  simp only [OneType, typeOf?, h.port?_eq]

/-! ## Nodes -/

/-- What holds of all nodes of one model and of the node that is fed otherwise holds of all nodes of
the other model. -/
lemma forall_nodes {P : Node → Prop} (hall : ∀ node ∈ model.nodes.toList, P node)
    (hnode' : model'.nodes[i]? = some node') (hat : P node') :
    ∀ node ∈ model'.nodes.toList, P node := by
  intro node hmem
  obtain ⟨j, hj⟩ := List.getElem?_of_mem hmem
  rw [Array.getElem?_toList] at hj
  by_cases heq : j = i
  · subst heq
    obtain rfl := Option.some.inj (hnode'.symm.trans hj)
    exact hat
  · rw [h.same j heq] at hj
    exact hall node (mem_nodes hj)

lemma lowers {strict : Bool} (hlowers : model.Lowers strict node) : model'.Lowers strict node where
  fed := hlowers.fed
  reads range hrange := (hlowers.reads range hrange).imp_left h.offers_iff.mpr
  words := hlowers.words
  shape := hlowers.shape
  types hstrict := by
    obtain ⟨hinputs, hpair⟩ := hlowers.types hstrict
    refine ⟨fun input hinput => h.oneType_iff.mpr (hinputs input hinput), ?_⟩
    cases hkind : node.kind with
    | binary | dot =>
      rw [hkind] at hpair
      exact h.oneType_iff.mpr hpair
    | _ => exact trivial

/-- The size of the storage is the same if the node that is fed otherwise gathers as much. -/
lemma demand_eq (hnode : model.nodes[i]? = some node) (hnode' : model'.nodes[i]? = some node')
    (hat : node'.gathered = node.gathered) : model'.demand = model.demand := by
  have hgathered :
      model'.nodes.toList.map Node.gathered = model.nodes.toList.map Node.gathered := by
    apply List.ext_getElem?
    intro j
    rw [List.getElem?_map, List.getElem?_map, Array.getElem?_toList, Array.getElem?_toList]
    by_cases heq : j = i
    · rw [heq, hnode, hnode', Option.map_some, Option.map_some, hat]
    · rw [h.same j heq]
  rw [demand, demand, hgathered, h.map_eq fun _ => rfl]

lemma numbered (hmodel : model.Numbered) : model'.Numbered := by
  intro j node' hnode'
  obtain ⟨node, hnode, hbare⟩ := h.symm.exists_node hnode'
  rw [← hmodel j node hnode, ← show node.bare.id = node.id from rfl, hbare]
  rfl

lemma arranged (hmodel : model.Arranged) (hnode' : model'.nodes[i]? = some node')
    (harranged : node'.Arranged) (hranges : ∀ range ∈ node'.ranges, range.length < Word.count ∧
      range.port.index < model.nodes.size) : model'.Arranged where
  numbered := h.numbered hmodel.numbered
  distinct := by
    rw [h.map_eq fun _ => rfl]
    exact hmodel.distinct
  words := h.forall_nodes hmodel.words hnode' fun range hrange => (hranges range hrange).1
  arranged := h.forall_nodes hmodel.arranged hnode' harranged
  ported := by
    rw [h.size_eq]
    exact h.forall_nodes hmodel.ported hnode' fun range hrange => (hranges range hrange).2

end Rewired
end Model
end Dataflow
