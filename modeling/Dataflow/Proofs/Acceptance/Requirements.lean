import Dataflow.Proofs.Acceptance.Conditions
import Dataflow.Proofs.Compiler.Layout
import Dataflow.Proofs.Model.Built

/-!
# What the compiler asks of a model

The compiler checks each node against the model that it is handed, wherever that comes from
(`Model.Lowers`), and no sum that it comes across on the way may leave the words.  All that has to
be known of the model beforehand is that its nodes are numbered, that they have the input ports of
their kinds, and that no range dangles (`Model.Arranged`).  Models that are read from texts have
this, and so have models that are built; what the requirements come down to for either is said
elsewhere.
-/

namespace Dataflow

/-! ## Nodes in order -/

/-- The node has the input ports of its kind. -/
def Node.Arranged (node : Node) : Prop := node.inputs.map InputPort.name = node.kind.inputNames

/-- A well-formed model whose nodes have the input ports of their kinds and refer to ports of the
model. -/
structure Model.Arranged (model : Model) : Prop extends model.WellFormed where
  arranged : ∀ node ∈ model.nodes.toList, node.Arranged
  ported : ∀ node ∈ model.nodes.toList, ∀ range ∈ node.ranges,
    range.port.index < model.nodes.size

instance {node : Node} : Decidable node.Arranged := inferInstanceAs (Decidable (_ = _))

instance {model : Model} : Decidable model.Arranged :=
  decidable_of_iff (model.WellFormed ∧ (∀ node ∈ model.nodes.toList, node.Arranged) ∧
      ∀ node ∈ model.nodes.toList, ∀ range ∈ node.ranges, range.port.index < model.nodes.size)
    ⟨fun ⟨hmodel, harranged, hported⟩ => ⟨hmodel, harranged, hported⟩,
      fun ⟨hmodel, harranged, hported⟩ => ⟨hmodel, harranged, hported⟩⟩

namespace Node.Arranged

variable {node : Node} {name name' : String}

lemma ranges_eq_nil (h : node.Arranged) (hkind : node.kind.inputNames = []) : node.ranges = [] := by
  rw [Arranged, hkind, List.map_eq_nil_iff] at h
  rw [ranges, h]
  rfl

/-- A node with one input port has all its ranges there. -/
lemma ranges_eq_operand (h : node.Arranged) (hkind : node.kind.inputNames = [name]) :
    node.ranges = node.operand 0 := by
  rw [Arranged, hkind, List.map_eq_singleton_iff] at h
  obtain ⟨input, hinputs, -⟩ := h
  rw [ranges, operand, hinputs, List.flatMap_singleton]
  rfl

/-- A node with two input ports has the ranges of both. -/
lemma ranges_eq_operands (h : node.Arranged) (hkind : node.kind.inputNames = [name, name']) :
    node.ranges = node.operand 0 ++ node.operand 1 := by
  rw [Arranged, hkind] at h
  obtain ⟨lhs, rhs, hinputs⟩ : ∃ lhs rhs, node.inputs = [lhs, rhs] :=
    List.length_eq_two.mp ((List.length_map _).symm.trans (congrArg List.length h))
  rw [ranges, operand, operand, hinputs, List.flatMap_cons, List.flatMap_singleton]
  rfl

end Node.Arranged

lemma Model.Arranged.exists_port {model : Model} (h : model.Arranged) {node : Node}
    (hnode : node ∈ model.nodes.toList) {range : PortRange} (hrange : range ∈ node.ranges) :
    ∃ other, model.nodes[range.port.index]? = some other ∧
      model.port? range.port = some other.port := by
  have hget := Array.getElem?_eq_getElem (h.ported node hnode range hrange)
  exact ⟨_, hget, congrArg (Option.map Node.port) hget⟩

/-! ## Requirements -/

/-- The range ends at a word. -/
def PortRange.Addressable (range : PortRange) : Prop := range.start + range.length ≤ Word.top

/-- The ranges can be put one after another without a sum that is no word. -/
structure InWords (ranges : List PortRange) : Prop where
  total : totalLength ranges ≤ Word.top
  ends : ∀ range ∈ ranges, range.Addressable

/-- The ranges have a size, which is a word, when they are put one after another. -/
def Fills (ranges : List PortRange) (size : ℕ) : Prop :=
  size = totalLength ranges ∧ size ≤ Word.top

/-- The number of elements of the variable that an operand is gathered in. -/
def gathering (ranges : List PortRange) : ℕ :=
  if ranges.length = 1 then 0 else totalLength ranges

namespace Node

/-- The size of the node's port is that of what is computed from the operands. -/
def Shaped (node : Node) : Prop :=
  match node.kind with
  | .input => True
  | .constant values => values.length = node.size
  | .unary _ | .accumulator | .output | .concat => Fills (node.operand 0) node.size
  | .reduce _ => node.size = 1
  | .dot => node.size = 1 ∧
    ∃ length, Fills (node.operand 0) length ∧ Fills (node.operand 1) length
  | .binary _ => ∃ lhs rhs, Fills (node.operand 0) lhs ∧ Fills (node.operand 1) rhs ∧
    Broadcasts lhs rhs node.size

/-- The number of elements that are gathered for the node. -/
def gathered (node : Node) : ℕ :=
  match node.kind with
  | .unary _ | .accumulator => gathering (node.operand 0)
  | .binary _ | .dot => gathering (node.operand 0) + gathering (node.operand 1)
  | _ => 0

/-- The number of elements that are reserved when the node is compiled.  The variables of inputs and
outputs are reserved before. -/
def demand (node : Node) : ℕ :=
  node.gathered + if node.kind.storage = .global then node.size else 0

end Node

namespace Model

/-- An operand of the node can be read: it has a range, and each of its ranges is a part of a port
that the node may read. -/
def CanRead (model : Model) (node : Node) (ranges : List PortRange) : Prop :=
  ranges ≠ [] ∧ ∀ range ∈ ranges, model.Offers range ∧ node.MayRead range.port

/-- A node that can be lowered if all nodes before it are and there is storage. -/
structure Lowers (model : Model) (strict : Bool) (node : Node) : Prop where
  fed : ∀ index < node.kind.inputNames.length, node.operand index ≠ []
  reads : ∀ range ∈ node.ranges, model.Offers range ∧ node.MayRead range.port
  words : ∀ range ∈ node.ranges, range.Addressable
  shape : node.Shaped
  types : strict = true → model.TypesFit node

/-- The number of elements that the variables of a compiled model have. -/
def demand (model : Model) : ℕ :=
  (model.nodes.toList.map Node.size).sum + (model.nodes.toList.map Node.gathered).sum

variable {model : Model} {strict : Bool} {node : Node} {name name' : String}

lemma Lowers.canRead (h : model.Lowers strict node) (index : ℕ)
    (hindex : index < node.kind.inputNames.length) : model.CanRead node (node.operand index) :=
  ⟨h.fed index hindex, fun range hrange => h.reads range (Node.mem_ranges hrange)⟩

/-! ## One, two or no operands -/

lemma oneType_singleton (model : Model) (range : PortRange) : model.OneType [range] := by
  intro a ha b hb
  rw [List.mem_singleton.mp ha, List.mem_singleton.mp hb]

/-- Ranges have one type if the others have that of the first one. -/
lemma oneType_cons_iff {first : PortRange} {rest : List PortRange} {elementType : ElementType}
    (hfirst : model.typeOf? first = some elementType) :
    model.OneType (first :: rest) ↔ ∀ range ∈ rest, model.typeOf? range = some elementType := by
  constructor
  · intro hone range hrange
    rw [hone range (List.mem_cons_of_mem _ hrange) first List.mem_cons_self, hfirst]
  · intro hrest
    have hevery : ∀ range ∈ first :: rest, model.typeOf? range = some elementType :=
      List.forall_mem_cons.mpr ⟨hfirst, hrest⟩
    exact fun range hrange other hother => (hevery range hrange).trans (hevery other hother).symm

lemma OneType.mono {ranges others : List PortRange} (h : model.OneType others)
    (hsub : ∀ range ∈ ranges, range ∈ others) : model.OneType ranges :=
  fun range hrange other hother => h range (hsub range hrange) other (hsub other hother)

lemma typesFit_iff_single (hnode : node.Arranged) (hkind : node.kind.inputNames = [name]) :
    model.TypesFit node ↔ model.OneType (node.operand 0) := by
  obtain ⟨input, hinputs, -⟩ := List.map_eq_singleton_iff.mp (hnode.trans hkind)
  have hoperand : node.operand 0 = input.elements.ranges := by
    rw [Node.operand, hinputs]
    rfl
  rw [TypesFit, hinputs, List.forall_mem_singleton, hoperand]
  cases hcase : node.kind <;> rw [hcase] at hkind <;> simp [NodeKind.inputNames] at hkind ⊢

lemma typesFit_iff_pair (hnode : node.Arranged) (hkind : node.kind.inputNames = [name, name']) :
    model.TypesFit node ↔ model.OneType (node.operand 0 ++ node.operand 1) := by
  obtain ⟨lhs, rhs, hinputs⟩ : ∃ lhs rhs, node.inputs = [lhs, rhs] :=
    List.length_eq_two.mp ((List.length_map _).symm.trans
      (congrArg List.length (hnode.trans hkind)))
  have hlhs : node.operand 0 = lhs.elements.ranges := by
    rw [Node.operand, hinputs]
    rfl
  have hrhs : node.operand 1 = rhs.elements.ranges := by
    rw [Node.operand, hinputs]
    rfl
  rw [TypesFit, hinputs, List.forall_mem_cons, List.forall_mem_singleton, ← hlhs, ← hrhs]
  have hpair : (model.OneType (node.operand 0) ∧ model.OneType (node.operand 1)) ∧
      model.OneType (node.operand 0 ++ node.operand 1) ↔
        model.OneType (node.operand 0 ++ node.operand 1) := by
    refine and_iff_right_of_imp fun h => ⟨h.mono fun _ => ?_, h.mono fun _ => ?_⟩
    · exact List.mem_append_left _
    · exact List.mem_append_right _
  cases hcase : node.kind <;> rw [hcase] at hkind <;> simp [NodeKind.inputNames] at hkind
  all_goals exact hpair

lemma lowers_iff_none (hnode : node.Arranged) (hkind : node.kind.inputNames = []) :
    model.Lowers strict node ↔ node.Shaped := by
  have hinputs : node.inputs = [] := List.map_eq_nil_iff.mp (hnode.trans hkind)
  have hranges : ∀ range, range ∉ node.ranges := fun range hrange => by
    rw [hnode.ranges_eq_nil hkind] at hrange
    exact List.not_mem_nil hrange
  refine ⟨Lowers.shape, fun hshape => ⟨fun index hindex => ?_,
    fun range hrange => absurd hrange (hranges range),
    fun range hrange => absurd hrange (hranges range), hshape, fun _ => ⟨?_, ?_⟩⟩⟩
  · rw [hkind] at hindex
    exact absurd hindex (Nat.not_lt_zero index)
  · rw [hinputs]
    exact fun _ h => absurd h List.not_mem_nil
  · cases hcase : node.kind <;> rw [hcase] at hkind <;> simp [NodeKind.inputNames] at hkind ⊢

lemma lowers_iff_single (hnode : node.Arranged) (hkind : node.kind.inputNames = [name]) :
    model.Lowers strict node ↔ model.CanRead node (node.operand 0) ∧
      (∀ range ∈ node.operand 0, range.Addressable) ∧ node.Shaped ∧
      (strict = true → model.OneType (node.operand 0)) := by
  have hcount : node.kind.inputNames.length = 1 := by rw [hkind, List.length_singleton]
  rw [← typesFit_iff_single hnode hkind]
  constructor
  · exact fun h => ⟨h.canRead 0 (by omega), fun range hrange => h.words range
      (Node.mem_ranges hrange), h.shape, h.types⟩
  · rintro ⟨⟨hne, hread⟩, hwords, hshape, htypes⟩
    refine ⟨fun index hindex => ?_, hnode.ranges_eq_operand hkind ▸ hread,
      hnode.ranges_eq_operand hkind ▸ hwords, hshape, htypes⟩
    obtain rfl : index = 0 := by omega
    exact hne

lemma lowers_iff_pair (hnode : node.Arranged) (hkind : node.kind.inputNames = [name, name']) :
    model.Lowers strict node ↔ model.CanRead node (node.operand 0) ∧
      model.CanRead node (node.operand 1) ∧ (∀ range ∈ node.operand 0, range.Addressable) ∧
      (∀ range ∈ node.operand 1, range.Addressable) ∧ node.Shaped ∧
      (strict = true → model.OneType (node.operand 0 ++ node.operand 1)) := by
  have hcount : node.kind.inputNames.length = 2 := by rw [hkind]; rfl
  rw [← typesFit_iff_pair hnode hkind]
  constructor
  · exact fun h => ⟨h.canRead 0 (by omega), h.canRead 1 (by omega),
      fun range hrange => h.words range (Node.mem_ranges hrange),
      fun range hrange => h.words range (Node.mem_ranges hrange), h.shape, h.types⟩
  · rintro ⟨⟨hne, hread⟩, ⟨hne', hread'⟩, hwords, hwords', hshape, htypes⟩
    refine ⟨fun index hindex => ?_, ?_, ?_, hshape, htypes⟩
    · obtain rfl | rfl : index = 0 ∨ index = 1 := by omega
      · exact hne
      · exact hne'
    · rw [hnode.ranges_eq_operands hkind]
      exact List.forall_mem_append.mpr ⟨hread, hread'⟩
    · rw [hnode.ranges_eq_operands hkind]
      exact List.forall_mem_append.mpr ⟨hwords, hwords'⟩

end Model

/-! ## Sizes -/

@[simp] lemma totalLength_singleton (range : PortRange) :
    totalLength [range] = range.length := Nat.add_zero _

/-- A range is no longer than all of them together. -/
lemma length_le_totalLength {ranges : List PortRange} {range : PortRange} (h : range ∈ ranges) :
    range.length ≤ totalLength ranges :=
  List.single_le_sum (fun _ _ => Nat.zero_le _) _ (List.mem_map_of_mem h)

lemma totalLength_ne_zero {ranges : List PortRange} (hne : ranges ≠ [])
    (h : ∀ range ∈ ranges, range.length ≠ 0) : totalLength ranges ≠ 0 := by
  obtain ⟨range, rest, rfl⟩ := List.exists_cons_of_ne_nil hne
  have hnonempty := h range List.mem_cons_self
  have := length_le_totalLength (List.mem_cons_self (a := range) (l := rest))
  omega

lemma Model.CanRead.totalLength_ne_zero {model : Model} {node : Node} {ranges : List PortRange}
    (h : model.CanRead node ranges) : totalLength ranges ≠ 0 :=
  Dataflow.totalLength_ne_zero h.1 fun range hrange => (h.2 range hrange).1.length_ne_zero

end Dataflow
