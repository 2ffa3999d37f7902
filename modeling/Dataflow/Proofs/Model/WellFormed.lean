import Mathlib
import Dataflow.Model.Basic

/-!
# Well-formed models

What can be relied on in every model that has been read or built: its nodes are numbered by position
and have distinct names, and the lengths of its ranges are words (`Model.WellFormed`).
-/

namespace Dataflow
namespace Model

/-- The number of a node is its position. -/
def Numbered (model : Model) : Prop :=
  ∀ (i : ℕ) (node : Node), model.nodes[i]? = some node → node.id = ⟨i⟩

/-- What reading and building models sees to: nodes are numbered by position and have distinct
names, and the lengths of ranges are words. -/
structure WellFormed (model : Model) : Prop where
  numbered : model.Numbered
  distinct : (model.nodes.toList.map Node.name).Nodup
  words : ∀ node ∈ model.nodes.toList, ∀ range ∈ node.ranges, range.length < Word.count

variable {model : Model}

lemma mem_nodes {i : ℕ} {node : Node} (h : model.nodes[i]? = some node) :
    node ∈ model.nodes.toList :=
  List.mem_of_getElem? ((Array.getElem?_toList ..).trans h)

/-- The nodes from a position on begin with the one at that position. -/
lemma drop_nodes_eq_cons_iff {i : ℕ} {node : Node} {rest : List Node} :
    model.nodes.toList.drop i = node :: rest ↔
      model.nodes[i]? = some node ∧ model.nodes.toList.drop (i + 1) = rest := by
  constructor
  · intro h
    rw [← List.drop_drop, ← Array.getElem?_toList, ← List.head?_drop, h]
    exact ⟨rfl, rfl⟩
  · rintro ⟨hnode, rfl⟩
    obtain ⟨hi, rfl⟩ := Array.getElem?_eq_some_iff.mp hnode
    rw [← Array.getElem_toList]
    exact (List.getElem_cons_drop ..).symm

lemma Numbered.port_id (h : model.Numbered) {i : ℕ} {node : Node}
    (hnode : model.nodes[i]? = some node) : node.port.id = ⟨i⟩ := by
  rw [Node.port, h i node hnode]

lemma Numbered.getElem?_port (h : model.Numbered) {node : Node}
    (hnode : node ∈ model.nodes.toList) : model.nodes[node.port.id.index]? = some node := by
  obtain ⟨i, hi⟩ := List.getElem?_of_mem hnode
  rw [Array.getElem?_toList] at hi
  rw [h.port_id hi, hi]

lemma Numbered.push (h : model.Numbered) {node : Node} (hid : node.id = model.nextNode) :
    (⟨model.name, model.nodes.push node⟩ : Model).Numbered := by
  intro i found hfound
  rw [Array.getElem?_push] at hfound
  split at hfound
  · next hi =>
    cases hfound
    rw [hid, hi, nextNode]
  · exact h i found hfound

lemma numbered_iff : model.Numbered ↔
    ∀ entry ∈ model.nodes.toList.zipIdx, entry.1.id = ⟨entry.2⟩ := by
  simp only [Numbered, Prod.forall, List.mem_zipIdx_iff_getElem?, Array.getElem?_toList]
  exact forall_comm

instance : Decidable model.Numbered := decidable_of_iff' _ numbered_iff

instance : Decidable model.WellFormed :=
  decidable_of_iff (model.Numbered ∧ (model.nodes.toList.map Node.name).Nodup ∧
      ∀ node ∈ model.nodes.toList, ∀ range ∈ node.ranges, range.length < Word.count)
    ⟨fun ⟨hnumbered, hdistinct, hwords⟩ => ⟨hnumbered, hdistinct, hwords⟩,
      fun ⟨hnumbered, hdistinct, hwords⟩ => ⟨hnumbered, hdistinct, hwords⟩⟩

/-- A node is known by its name. -/
lemma WellFormed.eq_of_name (h : model.WellFormed) {node node' : Node}
    (hnode : node ∈ model.nodes.toList) (hnode' : node' ∈ model.nodes.toList)
    (hname : node.name = node'.name) : node = node' :=
  List.inj_on_of_nodup_map h.distinct hnode hnode' hname

end Model
end Dataflow
