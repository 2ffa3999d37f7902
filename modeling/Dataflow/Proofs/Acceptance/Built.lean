import Dataflow.Proofs.Acceptance.Models
import Dataflow.Proofs.Model.Expressible

/-!
# Built models that are compiled

The steps of building check ranges and shapes, so that nearly all of what the compiler requires of a
model holds of every model that has been built.  One thing is missed: an input port may be left
without any range.  Nothing else stands between a built model and its compilation but element types,
if the compiler is to compare them, and storage (`Compiler.compile_built_iff`).
-/

namespace Dataflow

/-- What the steps of building do not see to: every input port has a range. -/
def Node.Supplied (node : Node) : Prop := ∀ input ∈ node.inputs, input.elements.ranges ≠ []

instance {node : Node} : Decidable node.Supplied :=
  inferInstanceAs (Decidable (∀ input ∈ node.inputs, input.elements.ranges ≠ []))

/-! ## Shapes -/

namespace NodeKind

variable {kind : NodeKind} {sizes : List ℕ} {size : ℕ}

lemma Infers.pointwise (h : kind.Infers sizes size) (hcount : kind.inputNames.length = 1)
    (hkind : ∀ op, kind ≠ .reduce op) : sizes = [size] := by
  cases h with
  | output _ | concat _ | unary _ _ | accumulator _ => rfl
  | reduce op => exact absurd rfl (hkind op)
  | dot _ | binary _ _ => cases hcount

lemma Infers.reduce_eq {op : ReduceOp} (h : Infers (.reduce op) sizes size) : size = 1 := by
  cases h
  rfl

lemma Infers.dot_eq (h : Infers .dot sizes size) :
    size = 1 ∧ ∃ length, sizes = [length, length] := by
  cases h
  exact ⟨rfl, _, rfl⟩

lemma Infers.binary_eq {op : BinaryOp} (h : Infers (.binary op) sizes size) :
    ∃ lhs rhs, sizes = [lhs, rhs] ∧ broadcastSize? lhs rhs = some size := by
  cases h with
  | binary _ hsize => exact ⟨_, _, rfl, hsize⟩

/-- Operands that have elements have a result with elements. -/
lemma Infers.ne_zero (h : kind.Infers sizes size) (hsizes : ∀ operand ∈ sizes, operand ≠ 0) :
    size ≠ 0 := by
  cases h with
  | output _ | concat _ | unary _ _ | accumulator _ => exact hsizes _ List.mem_cons_self
  | reduce _ _ | dot _ => exact one_ne_zero
  | @binary op lhs rhs _ hsize =>
    rw [List.forall_mem_cons, List.forall_mem_singleton] at hsizes
    have hbroadcasts := broadcastSize?_eq_some.mp hsize
    rw [Broadcasts] at hbroadcasts
    omega

end NodeKind

namespace Node

variable {model : Model} {node : Node} {operands : List PortElements}

lemma Arranged.fed_iff (h : node.Arranged) :
    (∀ index < node.kind.inputNames.length, node.operand index ≠ []) ↔ node.Supplied := by
  have hcount : node.kind.inputNames.length = node.inputs.length := by
    rw [← h, List.length_map]
  rw [hcount, Supplied, List.forall_mem_iff_forall_getElem]
  refine forall₂_congr fun index hindex => ?_
  rw [operand, List.getElem?_eq_getElem hindex, Option.map_some, Option.getD_some]

namespace Built

lemma arranged (h : node.Built model operands) : node.Arranged := by
  rw [Node.Arranged, h.inputs, List.map_zipWith]
  calc List.zipWith (fun name elements => (InputPort.mk name elements).name)
        node.kind.inputNames operands
      = (node.kind.inputNames.zip operands).map Prod.fst := by rw [List.zip, List.map_zipWith]
    _ = node.kind.inputNames := List.map_fst_zip h.count.le

lemma operand_eq (h : node.Built model operands) (index : ℕ) :
    node.operand index = (operands[index]?.map PortElements.ranges).getD [] := by
  rw [operand, ← h.elements_eq, List.getElem?_map, Option.map_map]
  rfl

lemma infers (h : node.Built model operands) (hne : node.kind.inputNames ≠ []) :
    node.kind.Infers (operands.map PortElements.size) node.size :=
  NodeKind.inferSize_eq_ok.mp (h.inferred hne)

/-- The sizes of operands are words. -/
lemma fills (h : node.Built model operands) {index : ℕ} {elements : PortElements}
    (helements : operands[index]? = some elements) : Fills (node.operand index) elements.size := by
  rw [h.operand_eq, helements]
  exact ⟨rfl, h.words _ (List.mem_of_getElem? helements)⟩

/-- The shape of a built node is right. -/
lemma shaped (h : node.Built model operands)
    (hconstant : ∀ values, node.kind = .constant values → values.length = node.size) :
    node.Shaped := by
  rw [Node.Shaped]
  cases hkind : node.kind with
  | input => exact trivial
  | constant values => exact hconstant values hkind
  | reduce op =>
    have hsize := h.infers (by rw [hkind]; exact List.cons_ne_nil _ _)
    rw [hkind] at hsize
    exact hsize.reduce_eq
  | unary op | accumulator | output | concat =>
    have hsizes := (h.infers (by rw [hkind]; exact List.cons_ne_nil _ _)).pointwise
      (by rw [hkind]; rfl) fun op => by simp [hkind]
    obtain ⟨elements, rfl, hsize⟩ := List.map_eq_singleton_iff.mp hsizes
    exact hsize ▸ h.fills rfl
  | dot =>
    have hsizes := h.infers (by rw [hkind]; exact List.cons_ne_nil _ _)
    rw [hkind] at hsizes
    obtain ⟨hsize, length, hlengths⟩ := hsizes.dot_eq
    obtain ⟨lhs, _, rfl, rfl, hrest⟩ := List.map_eq_cons_iff.mp hlengths
    obtain ⟨rhs, rfl, hrhs⟩ := List.map_eq_singleton_iff.mp hrest
    exact ⟨hsize, _, h.fills rfl, hrhs ▸ h.fills rfl⟩
  | binary op =>
    have hsizes := h.infers (by rw [hkind]; exact List.cons_ne_nil _ _)
    rw [hkind] at hsizes
    obtain ⟨_, _, hlengths, hbroadcast⟩ := hsizes.binary_eq
    obtain ⟨lhs, _, rfl, rfl, hrest⟩ := List.map_eq_cons_iff.mp hlengths
    obtain ⟨rhs, rfl, rfl⟩ := List.map_eq_singleton_iff.mp hrest
    exact ⟨_, _, h.fills rfl, h.fills rfl, broadcastSize?_eq_some.mp hbroadcast⟩

/-- A node that reads something has elements if all its input ports have ranges. -/
lemma size_ne_zero (h : node.Built model operands) (hsupplied : node.Supplied) {range : PortRange}
    (hrange : range ∈ node.ranges) : node.size ≠ 0 := by
  have hne : node.kind.inputNames ≠ [] := by
    intro hnil
    rw [h.arranged.ranges_eq_nil hnil] at hrange
    exact List.not_mem_nil hrange
  refine (h.infers hne).ne_zero (List.forall_mem_map.mpr fun elements helements => ?_)
  have hfed := (h.forall_inputs (P := fun elements => elements.ranges ≠ [])).mp hsupplied
  exact totalLength_ne_zero (hfed elements helements) fun range hmem =>
    (h.covered range (List.mem_flatMap.mpr ⟨elements, helements, hmem⟩)).length_ne_zero

end Built
end Node

/-! ## Models -/

namespace Model

variable {model : Model} {node other : Node} {i j : ℕ} {name : String} {steps : List BuildStep}

/-- The size of a node comes on top of that of any node before it. -/
lemma size_add_size_le_demand (hlt : j < i) (hother : model.nodes[j]? = some other)
    (hnode : model.nodes[i]? = some node) : other.size + node.size ≤ model.demand := by
  rw [← Array.getElem?_toList] at hother
  have hsplit : model.nodes.toList = model.nodes.toList.take i ++ node ::
      model.nodes.toList.drop (i + 1) := by
    rw [← drop_nodes_eq_cons_iff.mpr ⟨hnode, rfl⟩, List.take_append_drop]
  have hmem : other ∈ model.nodes.toList.take i :=
    List.mem_of_getElem? ((List.getElem?_take_of_lt hlt).trans hother)
  have hle : other.size ≤ ((model.nodes.toList.take i).map Node.size).sum :=
    List.le_sum_of_mem (List.mem_map_of_mem hmem)
  rw [demand, hsplit]
  simp only [List.map_append, List.map_cons, List.sum_append, List.sum_cons]
  omega

lemma arranged_build (name : String) (steps : List BuildStep) : (build name steps).Arranged := by
  have hbuilt := built_build name steps
  refine ⟨⟨hbuilt.numbered, hbuilt.distinct, fun node hnode range hrange => ?_⟩,
    fun node hnode => ?_, fun node hnode range hrange => ?_⟩
  all_goals obtain ⟨operands, hoperands⟩ := hbuilt.nodes node hnode
  · rw [hoperands.ranges_eq] at hrange
    obtain ⟨elements, helements, hmem⟩ := List.mem_flatMap.mp hrange
    exact Nat.lt_succ_of_le ((length_le_totalLength hmem).trans (hoperands.words _ helements))
  · exact hoperands.arranged
  · exact (hoperands.covered range (hoperands.ranges_eq ▸ hrange)).lt

lemma length_constant_build {values : List Float}
    (hnode : (build name steps).nodes[i]? = some node) (hkind : node.kind = .constant values) :
    values.length = node.size := by
  refine build_forall (P := fun _ node => ∀ values, node.kind = .constant values →
    values.length = node.size) (fun happends values hkind => ?_) i node hnode values hkind
  cases happends with
  | input hinput =>
    rw [hinput] at hkind
    cases hkind
  | constant others hothers _ hsize =>
    obtain rfl : others = values := NodeKind.constant.inj (hothers.symm.trans hkind)
    exact hsize.symm
  | computed _ _ _ hsize =>
    rw [hkind] at hsize
    cases hsize

/-- If the demand of a built model is a word, the compiler requires of a node what the steps of
building do not see to. -/
lemma lowers_build_iff {strict : Bool} (hdemand : (build name steps).demand ≤ Word.top)
    (hnode : node ∈ (build name steps).nodes.toList) :
    (build name steps).Lowers strict node ↔
      node.Supplied ∧ (strict = true → (build name steps).TypesFit node) := by
  have hmodel := arranged_build name steps
  have hget := hmodel.numbered.getElem?_port hnode
  obtain ⟨operands, hbuilt⟩ := (built_build name steps).nodes node hnode
  have hoffers : ∀ range ∈ node.ranges, (build name steps).Offers range :=
    fun range hrange => hbuilt.covered range (hbuilt.ranges_eq ▸ hrange)
  have hbefore := backward_build name steps _ node hget
  have hfed := hbuilt.arranged.fed_iff
  constructor
  · exact fun h => ⟨hfed.mp h.fed, h.types⟩
  · rintro ⟨hsupplied, htypes⟩
    refine ⟨hfed.mpr hsupplied, fun range hrange => ⟨hoffers range hrange, .inl ?_⟩,
      fun range hrange => ?_, hbuilt.shaped fun _ => length_constant_build hget, htypes⟩
    · rw [hmodel.numbered _ node hget]
      exact hbefore range hrange
    · -- a port that ends at the largest word would leave no storage for the node
      obtain ⟨port, hport, -, hstop⟩ := hoffers range hrange
      obtain ⟨other, hother, rfl⟩ := Option.map_eq_some_iff.mp hport
      have hstorage := size_add_size_le_demand (hbefore range hrange) hother hget
      have hsize := hbuilt.size_ne_zero hsupplied hrange
      have hend : min (range.start + range.length) Word.top ≤ other.size := hstop
      rw [PortRange.Addressable]
      omega

end Model

namespace Compiler

open Model

/-- **When a built model is compiled.**  On a fresh compiler, whatever its options, its merge policy
and its limit, a model that has been built in any number of steps, some of which may have failed, is
compiled exactly if every input port has a range, element types agree where the compiler compares
them, and there is storage.  The limit is a word, as it is for every caller. -/
theorem compile_built_iff {steps : List BuildStep} {limit : ℕ} (hlimit : limit < Word.count)
    (title program name : String) (policy : MergePolicy) (options : Options) :
    let model := build title steps
    (∃ answer last, compile model name (fresh (Assembler.fresh program policy limit) options) =
        .ok answer last) ↔
      (∀ node ∈ model.nodes.toList, node.Supplied ∧
        (options.checkElementTypes = true → model.TypesFit node)) ∧ model.demand ≤ limit := by
  intro model
  rw [compile_fresh_iff (arranged_build title steps)]
  refine and_congr_left fun hdemand => forall₂_congr fun node hnode => ?_
  exact lowers_build_iff (hdemand.trans (Nat.le_of_lt_succ hlimit)) hnode

/-- A product of an operand that is gathered and a constant. -/
def gatheringSteps : List BuildStep :=
  [.input "x" .real 3, .constant "c" .int [2, -1],
    .node "d" .dot [⟨[⟨⟨0⟩, 1, 1⟩, ⟨⟨0⟩, 0, 1⟩]⟩, .ofRange ⟨⟨1⟩, 0, 2⟩],
    .output "y" (.ofRange ⟨⟨2⟩, 0, 1⟩)]

theorem compile_built_iff_gathering :
    9 < Word.count ∧ ∃ answer last, compile (build "m" gatheringSteps) "f"
      (fresh (Assembler.fresh "m" .always 9) ⟨true, false, false⟩) = .ok answer last := by
  have hlimit : 9 < Word.count := by decide
  exact ⟨hlimit, (compile_built_iff hlimit "m" "m" "f" .always ⟨true, false, false⟩).mpr
    ⟨by decide +kernel, by decide +kernel⟩⟩

/-- A negation of nothing is built, and a compiler refuses it, though it does not compare types and
has storage. -/
theorem compile_built_hollow :
    (build "m" [.node "n" (.unary .neg) [.empty]]).nodes.size = 1 ∧
    ∃ last, compile (build "m" [.node "n" (.unary .neg) [.empty]]) "f"
        (fresh (Assembler.fresh "m" .always 67108864) ⟨true, false, false⟩) =
      .error (.structural "n" (.emptyInput "input")) last :=
  ⟨by decide +kernel, Attempt.exists_of_error? (by decide +kernel)⟩

end Compiler
end Dataflow
