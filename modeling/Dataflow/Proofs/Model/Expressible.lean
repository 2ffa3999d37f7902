import Dataflow.Proofs.Model.Accepted
import Dataflow.Proofs.Model.Built

/-!
# Built models and their texts

Not every model that can be built can be written: a text has no way to say that a port has no
elements or more than a declaration may have, or that an input port is fed by nothing, and it gives
each operand of a kind with two of them a single reference.  A built model is read back from its
text if none of this is in its way (`Model.Expressible`), and otherwise its text is refused
(`Model.parse_text_iff_expressible`).  The one case that looks like a trap is a kind with two
operands of which one gathers two ranges and the other none: the text would be read as giving each
of them one range, but no such node can be built (`NodeKind.inferSize_pair`).
-/

namespace Dataflow

open Scan (IsName)

/-- A kind with two operands. -/
def NodeKind.IsPaired (kind : NodeKind) : Prop := (∃ op, kind = .binary op) ∨ kind = .dot

/-- A model that a text can express: every port has as many elements as may be declared, every input
port is fed by a range, and by a single one if it is one of two operands. -/
structure Model.Expressible (model : Model) : Prop where
  sizes : ∀ node ∈ model.nodes.toList, 1 ≤ node.size ∧ node.size ≤ maxPortSize
  fed : ∀ node ∈ model.nodes.toList, ∀ input ∈ node.inputs, 1 ≤ input.elements.ranges.length
  paired : ∀ node ∈ model.nodes.toList, node.kind.IsPaired →
    ∀ input ∈ node.inputs, input.elements.ranges.length = 1

namespace NodeKind

variable {kind : NodeKind}

lemma isPaired_iff : kind.IsPaired ↔ 1 < kind.inputNames.length := by
  cases kind <;> simp [IsPaired, inputNames]

instance : Decidable kind.IsPaired := decidable_of_iff' _ isPaired_iff

/-- Two operands of which neither has a single element have the same length. -/
lemma inferSize_pair (hkind : kind.IsPaired) {lhs rhs size : ℕ}
    (h : kind.inferSize [lhs, rhs] = .ok size) : lhs = rhs ∨ lhs = 1 ∨ rhs = 1 := by
  rcases hkind with ⟨op, rfl⟩ | rfl
  · rw [inferSize] at h
    cases hbroadcast : broadcastSize? lhs rhs with
    | none =>
      rw [hbroadcast] at h
      cases h
    | some size =>
      rw [broadcastSize?] at hbroadcast
      split at hbroadcast
      · next hcase => exact hcase.imp_right .inr
      · split at hbroadcast
        · next hcase => exact .inr (.inl hcase)
        · cases hbroadcast
  · rw [inferSize] at h
    split at h
    · next heq => exact .inl heq
    · cases h

end NodeKind

/-! ## Ranges -/

namespace Model

variable {model : Model}

instance : Decidable model.Expressible :=
  decidable_of_iff ((∀ node ∈ model.nodes.toList, 1 ≤ node.size ∧ node.size ≤ maxPortSize) ∧
      (∀ node ∈ model.nodes.toList, ∀ input ∈ node.inputs, 1 ≤ input.elements.ranges.length) ∧
      ∀ node ∈ model.nodes.toList, node.kind.IsPaired →
        ∀ input ∈ node.inputs, input.elements.ranges.length = 1)
    ⟨fun ⟨hsizes, hfed, hpaired⟩ => ⟨hsizes, hfed, hpaired⟩,
      fun ⟨hsizes, hfed, hpaired⟩ => ⟨hsizes, hfed, hpaired⟩⟩

/-- No port has more elements than may be declared. -/
def Limited (model : Model) : Prop := ∀ node ∈ model.nodes.toList, node.size ≤ maxPortSize

lemma Offers.readable {range : PortRange} (h : model.Offers range) (hmodel : model.Limited) :
    range.Readable model ∧ range.length ≤ maxPortSize := by
  obtain ⟨port, hport, hlength, hstop⟩ := h
  obtain ⟨node, hnode, rfl⟩ := Option.map_eq_some_iff.mp hport
  have hsize : range.stop ≤ maxPortSize := hstop.trans (hmodel node (mem_nodes hnode))
  have hend : range.start + range.length ≤ maxPortSize := by
    rw [PortRange.stop, Word.addSaturating] at hsize
    have hword : ¬ Word.top ≤ maxPortSize := by decide
    exact (min_le_iff.mp hsize).resolve_right hword
  have hword : maxPortSize ≤ Word.top := by decide
  exact ⟨⟨hlength, hend.trans hword, (Array.getElem?_eq_some_iff.mp hnode).1⟩,
    (Nat.le_add_left _ _).trans hend⟩

end Model

/-! ## Nodes -/

namespace Node.Built

variable {model : Model} {node : Node} {operands : List PortElements}

lemma readable_ranges (h : node.Built model operands) (hmodel : model.Limited) :
    ∀ range ∈ node.ranges, range.Readable model := fun range hrange =>
  ((h.covered range (h.ranges_eq ▸ hrange)).readable hmodel).1

lemma forall_inputs (h : node.Built model operands) {P : PortElements → Prop} :
    (∀ input ∈ node.inputs, P input.elements) ↔ ∀ elements ∈ operands, P elements := by
  rw [← h.elements_eq, List.forall_mem_map]

/-- Two operands that are fed by two ranges in all are fed by one range each: if one of them had
both, the other would have no elements. -/
lemma single_of_paired (h : node.Built model operands) (hkind : node.kind.IsPaired)
    (hcount : node.ranges.length = node.kind.inputNames.length) :
    ∀ elements ∈ operands, elements.ranges.length = 1 := by
  have htwo : node.kind.inputNames.length = 2 := by
    rcases hkind with ⟨op, hkind⟩ | hkind <;> rw [hkind] <;> rfl
  obtain ⟨⟨lhs⟩, ⟨rhs⟩, rfl⟩ := List.length_eq_two.mp (h.count.symm.trans htwo)
  have hranges : node.ranges = lhs ++ rhs := by
    rw [h.ranges_eq]
    exact congrArg (lhs ++ ·) (List.append_nil rhs)
  have hlength : lhs.length + rhs.length = 2 := by
    rw [← List.length_append, ← hranges, hcount, htwo]
  have hnonempty : ∀ range ∈ lhs ++ rhs, 1 ≤ range.length := by
    intro range hrange
    obtain ⟨_, -, hlength, -⟩ := h.covered range (h.ranges_eq ▸ hranges ▸ hrange)
    exact Nat.one_le_iff_ne_zero.mpr hlength
  have hpair := NodeKind.inferSize_pair hkind
    (h.inferred (List.length_pos_iff.mp (htwo ▸ Nat.two_pos)))
  -- a pair of ranges has at least two elements, and no range has none
  have hboth : ∀ {first second : PortRange}, lhs ++ rhs = [first, second] →
      2 ≤ (PortElements.mk [first, second]).size := by
    intro first second heq
    rw [heq] at hnonempty
    obtain ⟨hfirst, hrest⟩ := List.forall_mem_cons.mp hnonempty
    have hsecond := hrest second List.mem_cons_self
    show 2 ≤ first.length + (second.length + 0)
    omega
  have hnone : (PortElements.mk []).size = 0 := rfl
  rcases lhs with _ | ⟨first, _ | ⟨second, lhs⟩⟩
  · obtain ⟨first, second, rfl⟩ := List.length_eq_two.mp ((Nat.zero_add _).symm.trans hlength)
    have hsize := hboth rfl
    omega
  · have hrhs : rhs.length = 1 := Nat.add_left_cancel hlength
    exact List.forall_mem_cons.mpr ⟨rfl, List.forall_mem_singleton.mpr hrhs⟩
  · obtain ⟨rfl, rfl⟩ : lhs = [] ∧ rhs = [] := by
      simp only [List.length_cons] at hlength
      exact ⟨List.length_eq_zero_iff.mp (by omega), List.length_eq_zero_iff.mp (by omega)⟩
    have hsize := hboth rfl
    omega

/-- Operands with a single range each are what a list of references is distributed to. -/
lemma inputs_eq (h : node.Built model operands)
    (hpaired : node.kind.IsPaired → ∀ elements ∈ operands, elements.ranges.length = 1) :
    node.inputs = Draft.inputPorts node.kind node.ranges := by
  have hcount := h.count
  rw [h.inputs, h.ranges_eq, Draft.inputPorts]
  split
  · next hmany =>
    -- every operand is made of its only range
    have hsingle : operands = (operands.flatMap PortElements.ranges).map .ofRange := by
      have hall := hpaired (NodeKind.isPaired_iff.mpr hmany)
      clear hcount hpaired h
      induction operands with
      | nil => rfl
      | cons elements rest ih =>
        obtain ⟨hfirst, hrest⟩ := List.forall_mem_cons.mp hall
        obtain ⟨⟨range, hrange⟩⟩ : Nonempty {range // elements.ranges = [range]} :=
          (List.length_eq_one_iff.mp hfirst).elim fun range hrange => ⟨⟨range, hrange⟩⟩
        rw [List.flatMap_cons, hrange, List.map_append, ← ih hrest]
        exact congrArg (· :: rest) (congrArg PortElements.mk hrange)
    conv_lhs => rw [hsingle, List.zipWith_map_right]
  · next hfew =>
    rcases operands with _ | ⟨elements, _ | ⟨second, rest⟩⟩
    · rw [List.length_eq_zero_iff.mp hcount]
      rfl
    · obtain ⟨name, hname⟩ := List.length_eq_one_iff.mp hcount
      rw [hname, List.flatMap_cons, List.flatMap_nil, List.append_nil]
      rfl
    · rw [hcount, List.length_cons, List.length_cons] at hfew
      omega

/-- A node whose operands are all fed, and by a single range each if there are two of them, is fed
as its kind wants it. -/
lemma feeds (h : node.Built model operands)
    (hfed : ∀ elements ∈ operands, 1 ≤ elements.ranges.length)
    (hpaired : node.kind.IsPaired → ∀ elements ∈ operands, elements.ranges.length = 1) :
    node.kind.Feeds node.ranges.length := by
  have hcount := h.count
  have hlength :
      node.ranges.length = (operands.map fun elements => elements.ranges.length).sum := by
    rw [h.ranges_eq, List.length_flatMap]
  have hle : operands.length ≤ node.ranges.length := by
    rw [hlength, ← List.length_map (fun elements : PortElements => elements.ranges.length)]
    exact List.length_le_sum_of_one_le _ (List.forall_mem_map.mpr hfed)
  refine ⟨⟨fun hnil => ?_, fun hzero => ?_⟩, fun hmany => ?_⟩
  · rw [hnil] at hcount
    rw [hlength, List.length_eq_zero_iff.mp hcount.symm]
    rfl
  · exact List.length_eq_zero_iff.mp (hcount.trans (by omega))
  · have hone := hpaired (NodeKind.isPaired_iff.mpr hmany)
    rw [hlength, hcount, List.map_congr_left hone, List.map_const', List.sum_replicate]
    exact Nat.mul_one _

/-- A single operand has all the ranges of its node. -/
lemma fed_of_ranges (h : node.Built model operands) (hkind : ¬ node.kind.IsPaired)
    (hne : node.kind.inputNames ≠ [] → node.ranges ≠ []) :
    ∀ elements ∈ operands, 1 ≤ elements.ranges.length := by
  have hfew : operands.length ≤ 1 := h.count ▸ not_lt.mp (NodeKind.isPaired_iff.not.mp hkind)
  rcases operands with _ | ⟨elements, _ | ⟨second, rest⟩⟩
  · exact fun elements hmem => absurd hmem List.not_mem_nil
  · have hnames : node.kind.inputNames ≠ [] := List.ne_nil_of_length_eq_add_one h.count
    have hranges : node.ranges = elements.ranges := h.ranges_eq.trans (List.append_nil _)
    exact List.forall_mem_singleton.mpr (List.length_pos_iff.mpr (hranges ▸ hne hnames))
  · rw [List.length_cons, List.length_cons] at hfew
    omega

end Node.Built

namespace Model

variable {model : Model}

/-! ## Expressible models -/

lemma Expressible.limited (h : model.Expressible) : model.Limited :=
  fun node hnode => (h.sizes node hnode).2

/-- A built model that can be expressed can be written as a text. -/
lemma Built.readable (h : model.Built) (hname : IsName model.name) (hmodel : model.Named)
    (hexpressible : model.Expressible) : model.Readable where
  name := hname
  numbered := h.numbered
  distinct := h.distinct
  nodes node hnode := by
    obtain ⟨operands, hbuilt⟩ := h.nodes node hnode
    have hfed : ∀ elements ∈ operands, 1 ≤ elements.ranges.length :=
      (hbuilt.forall_inputs (P := fun elements => 1 ≤ elements.ranges.length)).mp
        (hexpressible.fed node hnode)
    have hpaired : node.kind.IsPaired → ∀ elements ∈ operands, elements.ranges.length = 1 :=
      fun hkind => (hbuilt.forall_inputs (P := fun elements => elements.ranges.length = 1)).mp
        (hexpressible.paired node hnode hkind)
    obtain ⟨hnonempty, hsize⟩ := hexpressible.sizes node hnode
    exact ⟨hmodel node hnode, Nat.one_le_iff_ne_zero.mp hnonempty, hsize, hbuilt.values,
      hbuilt.feeds hfed hpaired, hbuilt.inputs_eq hpaired,
      hbuilt.readable_ranges hexpressible.limited⟩

/-- References that are accepted are not missing, and there are as many as two operands take. -/
lemma Named.ranges_of_scanOperands (hmodel : model.Named) {node : Node}
    (hreadable : ∀ range ∈ node.ranges, range.Readable model) {references : List Reference}
    {mid : List Char} (h : Reference.scanOperands node.kind (model.referencesText node).toList =
      .ok (references, mid)) :
    node.ranges ≠ [] ∧ (node.kind.IsPaired → node.ranges.length = node.kind.inputNames.length) := by
  have hne : node.ranges ≠ [] := by
    intro hnil
    rw [referencesText_eq_nil hnil] at h
    obtain ⟨found, mid, hfound, -⟩ := Scan.bind_eq_ok.mp h
    have hscan : Reference.scan [] = .error (.expectedName none) := rfl
    rw [Scan.separated, hscan] at hfound
    cases hfound
  refine ⟨hne, fun hkind => ?_⟩
  rw [hmodel.scanOperands_run hreadable hne] at h
  split at h
  · cases h
  · next hcount =>
    exact not_not.mp fun hdiffers => hcount ⟨NodeKind.isPaired_iff.mp hkind, hdiffers⟩

/-- If the text of a built model is accepted, the model can be expressed. -/
lemma Built.expressible (h : model.Built) (hname : IsName model.name) (hmodel : model.Named)
    {read : Model} (hread : parse model.text = .ok read) : model.Expressible := by
  have hlimited : model.Limited := fun node hnode => (hmodel.accepted hname hread hnode).2.1
  have hranges : ∀ node ∈ model.nodes.toList, node.kind.inputNames ≠ [] → node.ranges ≠ [] ∧
      (node.kind.IsPaired → node.ranges.length = node.kind.inputNames.length) := by
    intro node hnode hinputs
    obtain ⟨operands, hbuilt⟩ := h.nodes node hnode
    obtain ⟨references, mid, hoperands⟩ := (hmodel.accepted hname hread hnode).2.2 hinputs
    exact hmodel.ranges_of_scanOperands (hbuilt.readable_ranges hlimited) hoperands
  have hsingle : ∀ node ∈ model.nodes.toList, node.kind.IsPaired →
      ∀ input ∈ node.inputs, input.elements.ranges.length = 1 := by
    intro node hnode hkind
    obtain ⟨operands, hbuilt⟩ := h.nodes node hnode
    have hinputs : node.kind.inputNames ≠ [] :=
      List.length_pos_iff.mp (Nat.zero_lt_one.trans (NodeKind.isPaired_iff.mp hkind))
    exact (hbuilt.forall_inputs (P := fun elements => elements.ranges.length = 1)).mpr
      (hbuilt.single_of_paired hkind ((hranges node hnode hinputs).2 hkind))
  refine ⟨fun node hnode => ?_, fun node hnode => ?_, hsingle⟩
  · obtain ⟨hnonempty, hsize, -⟩ := hmodel.accepted hname hread hnode
    exact ⟨Nat.one_le_iff_ne_zero.mpr hnonempty, hsize⟩
  · by_cases hkind : node.kind.IsPaired
    · exact fun input hinput => (hsingle node hnode hkind input hinput).ge
    · obtain ⟨operands, hbuilt⟩ := h.nodes node hnode
      exact (hbuilt.forall_inputs (P := fun elements => 1 ≤ elements.ranges.length)).mpr
        (hbuilt.fed_of_ranges hkind fun hinputs => (hranges node hnode hinputs).1)

end Model

/-! ## Comparing models -/

/-- A double compares equal to itself unless it is no number. -/
lemma Number.beq_self {v : Float} (h : v.isNaN = false) : (v == v) = true := by
  show (v.toModel.unpack.compare v.toModel.unpack == some Ordering.eq) = true
  replace h : v.toModel.unpack.isNaN = false := h
  cases hv : v.toModel.unpack with
  | notANumber =>
    rw [hv] at h
    cases h
  | infinity sign | zero sign => cases sign <;> rfl
  | finite sign mantissa exponent hpos =>
    cases sign <;> simp [Float.Model.UnpackedFloat.compare, Std.compare_self]

lemma list_beq_self {α : Type} [BEq α] {list : List α} (h : ∀ a ∈ list, (a == a) = true) :
    (list == list) = true := by
  induction list with
  | nil => rfl
  | cons a rest ih =>
    obtain ⟨ha, hrest⟩ := List.forall_mem_cons.mp h
    rw [List.cons_beq_cons, ha, ih hrest]
    rfl

/-- The values of a constant. -/
def NodeKind.values : NodeKind → List Float
  | .constant values => values
  | _ => []

lemma NodeKind.beq_self {kind : NodeKind} (h : ∀ v ∈ kind.values, v.isNaN = false) :
    (kind == kind) = true := by
  cases kind with
  | constant values => exact list_beq_self fun v hv => Number.beq_self (h v hv)
  | input | output | dot | concat | accumulator => rfl
  | binary op | unary op | reduce op => exact beq_self_eq_true op

lemma Node.beq_self {node : Node} (h : ∀ v ∈ node.kind.values, v.isNaN = false) :
    (node == node) = true := by
  have hkind := NodeKind.beq_self h
  obtain ⟨id, name, kind, inputs, elementType, size⟩ := node
  show (id == id && (name == name && (kind == kind && (inputs == inputs &&
    (elementType == elementType && size == size))))) = true
  dsimp only at hkind
  rw [hkind]
  simp

namespace Model

variable {model : Model}

/-- No value of a constant is no number. -/
def Numeric (model : Model) : Prop :=
  ∀ node ∈ model.nodes.toList, ∀ v ∈ node.kind.values, v.isNaN = false

instance : Decidable model.Numeric :=
  inferInstanceAs (Decidable (∀ node ∈ model.nodes.toList, ∀ v ∈ node.kind.values,
    v.isNaN = false))

lemma Numeric.beq_self (h : model.Numeric) : (model == model) = true := by
  obtain ⟨name, nodes⟩ := model
  show (name == name && nodes == nodes) = true
  rw [beq_self_eq_true, ← Array.beq_toList,
    list_beq_self fun node hnode => Node.beq_self (h node hnode)]
  rfl

/-! ## Texts of built models -/

/-- **Which built models have a faithful text.**  Whatever steps are taken to build a model, whether
or not some of them fail, if its names can stand in a text and no value of its constants is no
number, then its text is read as a model that compares equal to it just if the model can be
expressed.  It is read as this very model then, and in all other cases it is refused with a fault on
one of its lines, so it is never read as a different model. -/
theorem parse_text_iff_expressible {name : String} (hname : IsName name) (steps : List BuildStep)
    (hmodel : (build name steps).Named) (hnumeric : (build name steps).Numeric) :
    ((∃ read, parse (build name steps).text = .ok read ∧ (read == build name steps) = true) ↔
      (build name steps).Expressible) ∧
    ((build name steps).Expressible → parse (build name steps).text = .ok (build name steps)) ∧
    (¬ (build name steps).Expressible →
      ∃ line fault, parse (build name steps).text = .error (.parse line fault)) := by
  have hbuilt := built_build name steps
  have hname' : IsName (build name steps).name := (name_build name steps).symm ▸ hname
  have hread : (build name steps).Expressible →
      parse (build name steps).text = .ok (build name steps) :=
    fun hexpressible => (hbuilt.readable hname' hmodel hexpressible).parse_text
  refine ⟨⟨?_, fun hexpressible => ⟨_, hread hexpressible, hnumeric.beq_self⟩⟩, hread,
    fun hinexpressible => ?_⟩
  · rintro ⟨read, hparse, -⟩
    exact hbuilt.expressible hname' hmodel hparse
  · cases hparse : parse (build name steps).text with
    | ok read => exact absurd (hbuilt.expressible hname' hmodel hparse) hinexpressible
    | error e =>
      obtain ⟨line, fault, rfl⟩ := parse_eq_error hparse
      exact ⟨line, fault, rfl⟩

/-- A dot product of parts of an input and a constant; the step that uses a name twice fails. -/
def dotSteps : List BuildStep :=
  [.input "x" .real 3, .constant "c" .int [2, -1], .input "x" .bool 1,
    .node "d" .dot [.ofRange ⟨⟨0⟩, 1, 2⟩, .ofRange ⟨⟨1⟩, 0, 2⟩],
    .output "y" ⟨[⟨⟨2⟩, 0, 1⟩, ⟨⟨0⟩, 0, 3⟩]⟩]

/-- A node that gathers nothing has no text. -/
def hollowSteps : List BuildStep := [.node "n" .concat [.empty]]

theorem parse_text_iff_expressible_samples :
    parse (build "m" dotSteps).text = .ok (build "m" dotSteps) ∧
      ∃ line fault, parse (build "m" hollowSteps).text = .error (.parse line fault) := by
  have hname : IsName "m" := by decide +kernel
  have hfull : (build "m" dotSteps).Expressible := by decide +kernel
  have hhollow : ¬ (build "m" hollowSteps).Expressible := by decide +kernel
  exact ⟨(parse_text_iff_expressible hname dotSteps (by decide +kernel) (by decide +kernel)).2.1
      hfull,
    (parse_text_iff_expressible hname hollowSteps (by decide +kernel) (by decide +kernel)).2.2
      hhollow⟩

end Model
end Dataflow
