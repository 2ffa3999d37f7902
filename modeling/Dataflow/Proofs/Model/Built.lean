import Dataflow.Model.Builder
import Dataflow.Proofs.Except
import Dataflow.Proofs.Model.Evaluation
import Dataflow.Proofs.Model.WellFormed

/-!
# Models that are built

A model is built step by step, and a step that fails leaves it alone (`Model.build`).  What is known
of a built model is that its nodes are numbered by position and have distinct names, that a constant
has a value, that every range of a node is a part of an earlier port, and that the size of a node
has been inferred from its operands (`Model.Built`).
-/

namespace Dataflow

/-! ## Shapes -/

/-- How the size of a node of a kind follows from the sizes of its operands. -/
inductive NodeKind.Infers : NodeKind → List ℕ → ℕ → Prop
  | output {size : ℕ} : size ≤ maxPortSize → Infers .output [size] size
  | concat {size : ℕ} : size ≤ maxPortSize → Infers .concat [size] size
  | unary (op : UnaryOp) (size : ℕ) : Infers (.unary op) [size] size
  | accumulator (size : ℕ) : Infers .accumulator [size] size
  | reduce (op : ReduceOp) (size : ℕ) : Infers (.reduce op) [size] 1
  | dot (size : ℕ) : Infers .dot [size, size] 1
  | binary (op : BinaryOp) {lhs rhs size : ℕ} :
    broadcastSize? lhs rhs = some size → Infers (.binary op) [lhs, rhs] size

lemma NodeKind.inferSize_eq_ok {kind : NodeKind} {sizes : List ℕ} {size : ℕ} :
    kind.inferSize sizes = .ok size ↔ kind.Infers sizes size := by
  constructor
  · intro h
    rw [inferSize.eq_def] at h
    split at h
    · next operand =>
      split at h
      · next hle =>
        obtain rfl := Except.ok.inj h
        exact .output hle
      · cases h
    · next operand =>
      split at h
      · next hle =>
        obtain rfl := Except.ok.inj h
        exact .concat hle
      · cases h
    · next op operand =>
      obtain rfl := Except.ok.inj h
      exact .unary op operand
    · next operand =>
      obtain rfl := Except.ok.inj h
      exact .accumulator operand
    · next op operand =>
      obtain rfl := Except.ok.inj h
      exact .reduce op operand
    · next lhs rhs =>
      split at h
      · next heq =>
        obtain rfl := Except.ok.inj h
        exact heq ▸ .dot lhs
      · cases h
    · next op lhs rhs =>
      split at h
      · next found hfound =>
        obtain rfl := Except.ok.inj h
        exact .binary op hfound
      · cases h
    · cases h
  · intro h
    cases h with
    | output hle | concat hle => exact if_pos hle
    | unary op size | accumulator size | reduce op size => rfl
    | dot size => exact if_pos rfl
    | binary op hfound => rw [inferSize, hfound]

/-! ## Steps -/

/-- A step of building a model. -/
inductive BuildStep where
  /-- To append an input. -/
  | input (name : String) (elementType : ElementType) (size : ℕ)
  /-- To append a constant. -/
  | constant (name : String) (elementType : ElementType) (values : List Float)
  /-- To append a computing node. -/
  | node (name : String) (kind : NodeKind) (operands : List PortElements)
  /-- To append an output. -/
  | output (name : String) (elements : PortElements)

namespace Model

/-- The model after a step, with one node more, or the reason why the step fails. -/
def advance (model : Model) : BuildStep → Except ModelError Model
  | .input name elementType size => model.addInput name elementType size
  | .constant name elementType values => model.addConstant name elementType values
  | .node name kind operands => model.addNode name kind operands
  | .output name elements => model.addOutput name elements

/-- What a list of steps makes of the model without nodes. -/
def build (name : String) (steps : List BuildStep) : Model :=
  steps.foldl (fun model step => (model.advance step).toOption.getD model) (empty name)

variable {model next : Model} {name : String}

/-! ## Steps that succeed -/

lemma checkName_eq_ok :
    model.checkName name = .ok () ↔ name ∉ model.nodes.toList.map Node.name := by
  have hfind : (model.findNode? name).isSome = true ↔ name ∈ model.nodes.toList.map Node.name := by
    rw [findNode?, List.find?_isSome]
    simp only [decide_eq_true_eq, List.mem_map]
  rw [checkName, ← hfind]
  split
  · next h => exact ⟨fun h => (nomatch h), fun hnot => absurd h hnot⟩
  · next h => exact ⟨fun _ => h, fun _ => rfl⟩

/-- A range that is not empty and lies inside a port of the model. -/
def Offers (model : Model) (range : PortRange) : Prop :=
  ∃ port, model.port? range.port = some port ∧ range.length ≠ 0 ∧ range.stop ≤ port.size

lemma Offers.length_ne_zero {range : PortRange} (h : model.Offers range) : range.length ≠ 0 := by
  obtain ⟨_, -, hlength, -⟩ := h
  exact hlength

lemma checkRange_eq_ok {range : PortRange} :
    model.checkRange range = .ok () ↔ model.Offers range := by
  rw [checkRange, Offers]
  cases model.port? range.port with
  | none => simp
  | some port =>
    simp only [Option.some.injEq, exists_eq_left']
    split
    · next h => exact ⟨fun h => (nomatch h), fun hand => absurd h (by omega)⟩
    · next h => exact ⟨fun _ => by omega, fun _ => rfl⟩

lemma addInput_eq_ok {elementType : ElementType} {size : ℕ} :
    model.addInput name elementType size = .ok next ↔
      name ∉ model.nodes.toList.map Node.name ∧ size ≠ 0 ∧ size ≤ maxPortSize ∧
        model.push name .input [] elementType size = next := by
  rw [addInput]
  simp only [Except.bind_eq_ok, checkName_eq_ok, Except.guard_eq_ok, Except.pure_eq_ok,
    Unique.exists_iff, PUnit.default_eq_unit, not_lt, ne_eq]

lemma addConstant_eq_ok {elementType : ElementType} {values : List Float} :
    model.addConstant name elementType values = .ok next ↔
      name ∉ model.nodes.toList.map Node.name ∧ values ≠ [] ∧
        model.push name (.constant values) [] elementType values.length = next := by
  rw [addConstant]
  simp only [Except.bind_eq_ok, checkName_eq_ok, Except.guard_eq_ok, Except.pure_eq_ok,
    Unique.exists_iff, PUnit.default_eq_unit, List.isEmpty_iff, ne_eq]

/-- The sizes of operands are counted unless one of them is no word. -/
lemma mapM_size?_cases (operands : List PortElements) :
    (∀ elements ∈ operands, elements.size ≤ Word.top) ∧
        operands.mapM PortElements.size? = some (operands.map PortElements.size) ∨
      ¬ (∀ elements ∈ operands, elements.size ≤ Word.top) ∧
        operands.mapM PortElements.size? = none := by
  induction operands with
  | nil => exact .inl ⟨fun _ h => absurd h List.not_mem_nil, rfl⟩
  | cons elements rest ih =>
    rw [List.mapM_cons, List.forall_mem_cons, PortElements.size?_eq]
    rcases Word.ofNat?_cases elements.size with ⟨hword, hsize⟩ | ⟨hword, hsize⟩ <;> rw [hsize]
    · rcases ih with ⟨hwords, hrest⟩ | ⟨hwords, hrest⟩ <;> rw [hrest]
      · exact .inl ⟨⟨hword, hwords⟩, rfl⟩
      · exact .inr ⟨fun h => hwords h.2, rfl⟩
    · exact .inr ⟨fun h => absurd h.1 (not_le.mpr hword), rfl⟩

lemma addNode_eq_ok {kind : NodeKind} {operands : List PortElements} :
    model.addNode name kind operands = .ok next ↔
      name ∉ model.nodes.toList.map Node.name ∧ kind.inputNames.length = operands.length ∧
        (∀ range ∈ operands.flatMap PortElements.ranges, model.Offers range) ∧
        (∀ elements ∈ operands, elements.size ≤ Word.top) ∧
        ∃ size, kind.inferSize (operands.map PortElements.size) = .ok size ∧
          model.push name kind (List.zipWith InputPort.mk kind.inputNames operands)
            (model.leadingType (operands.flatMap PortElements.ranges)) size = next := by
  rw [addNode]
  simp only [Except.bind_eq_ok, checkName_eq_ok, Except.guard_eq_ok, Except.forM_eq_ok,
    checkRange_eq_ok, Unique.exists_iff, PUnit.default_eq_unit, not_not, ne_eq]
  refine and_congr_right fun _ => and_congr_right fun _ => and_congr_right fun _ => ?_
  rcases mapM_size?_cases operands with ⟨hwords, hsizes⟩ | ⟨hwords, hsizes⟩ <;> simp only [hsizes]
  · simp only [Except.bind_eq_ok, Except.mapError_eq_ok, Except.pure_eq_ok]
    exact (and_iff_right hwords).symm
  · exact iff_of_false Except.throw_ne_ok fun h => hwords h.1

/-! ## What a step appends -/

/-- A node that some step may append to the model. -/
inductive Appends (model : Model) (node : Node) : Prop
  | input (hkind : node.kind = .input) (hinputs : node.inputs = [])
    (hsize : node.size ≤ maxPortSize)
  | constant (values : List Float) (hkind : node.kind = .constant values)
    (hinputs : node.inputs = []) (hsize : node.size = values.length)
  | computed (operands : List PortElements)
    (hinputs : node.inputs.map InputPort.elements = operands)
    (hcovered : ∀ range ∈ operands.flatMap PortElements.ranges, model.Offers range)
    (hsize : node.kind.Infers (operands.map PortElements.size) node.size)

lemma addNode_appends {kind : NodeKind} {operands : List PortElements}
    (hnext : model.addNode name kind operands = .ok next) :
    ∃ node, next.nodes = model.nodes.push node ∧ model.Appends node := by
  obtain ⟨-, hcount, hcovered, -, size, hsize, rfl⟩ := addNode_eq_ok.mp hnext
  refine ⟨_, nodes_push .., .computed operands ?_ hcovered
    (NodeKind.inferSize_eq_ok.mp hsize)⟩
  calc (List.zipWith InputPort.mk kind.inputNames operands).map InputPort.elements
      = (kind.inputNames.zip operands).map Prod.snd := by
        rw [List.map_zipWith, List.zip, List.map_zipWith]
    _ = operands := List.map_snd_zip hcount.ge

lemma advance_appends {step : BuildStep} (hnext : model.advance step = .ok next) :
    ∃ node, next.nodes = model.nodes.push node ∧ model.Appends node := by
  cases step with
  | input name elementType size =>
    obtain ⟨-, -, hsize, rfl⟩ := addInput_eq_ok.mp hnext
    exact ⟨_, nodes_push .., .input rfl rfl hsize⟩
  | constant name elementType values =>
    obtain ⟨-, -, rfl⟩ := addConstant_eq_ok.mp hnext
    exact ⟨_, nodes_push .., .constant values rfl rfl rfl⟩
  | node name kind operands => exact addNode_appends hnext
  | output name elements => exact addNode_appends hnext

lemma Appends.offers {node : Node} (h : model.Appends node) :
    ∀ range ∈ node.ranges, model.Offers range := by
  intro range hrange
  cases h with
  | input _ hinputs | constant _ _ hinputs =>
    rw [Node.ranges, hinputs] at hrange
    cases hrange
  | computed operands hinputs hcovered =>
    refine hcovered range ?_
    rwa [← hinputs, List.flatMap_map]

lemma Offers.lt {range : PortRange} (h : model.Offers range) :
    range.port.index < model.nodes.size := by
  obtain ⟨port, hport, -⟩ := h
  obtain ⟨node, hnode, -⟩ := Option.map_eq_some_iff.mp hport
  exact (Array.getElem?_eq_some_iff.mp hnode).1

end Model

/-! ## Nodes -/

/-- A node that may have been appended to a model by a step.  Its operands are what its input ports
refer to. -/
structure Node.Built (model : Model) (node : Node) (operands : List PortElements) : Prop where
  inputs : node.inputs = List.zipWith InputPort.mk node.kind.inputNames operands
  count : node.kind.inputNames.length = operands.length
  inferred : node.kind.inputNames ≠ [] →
    node.kind.inferSize (operands.map PortElements.size) = .ok node.size
  values : ∀ values, node.kind = .constant values → values ≠ []
  covered : ∀ range ∈ operands.flatMap PortElements.ranges, model.Offers range
  words : ∀ elements ∈ operands, elements.size ≤ Word.top

namespace Node.Built

variable {model : Model} {node : Node} {operands : List PortElements}

lemma elements_eq (h : node.Built model operands) :
    node.inputs.map InputPort.elements = operands := by
  rw [h.inputs, List.map_zipWith]
  calc List.zipWith (fun name elements => (InputPort.mk name elements).elements)
        node.kind.inputNames operands
      = (node.kind.inputNames.zip operands).map Prod.snd := by rw [List.zip, List.map_zipWith]
    _ = operands := List.map_snd_zip h.count.ge

lemma ranges_eq (h : node.Built model operands) :
    node.ranges = operands.flatMap PortElements.ranges := by
  rw [Node.ranges, ← h.elements_eq, List.flatMap_map]

end Node.Built

namespace Model

/-- A model that may have been built. -/
structure Built (model : Model) : Prop where
  numbered : model.Numbered
  distinct : (model.nodes.toList.map Node.name).Nodup
  nodes : ∀ node ∈ model.nodes.toList, ∃ operands, node.Built model operands

variable {model : Model} {name : String} {kind : NodeKind} {inputs : List InputPort}
variable {elementType : ElementType} {size : ℕ}

lemma Offers.push {range : PortRange} (h : model.Offers range) :
    (model.push name kind inputs elementType size).Offers range := by
  obtain ⟨port, hport, hrange⟩ := h
  refine ⟨port, ?_, hrange⟩
  obtain ⟨node, hnode, rfl⟩ := Option.map_eq_some_iff.mp hport
  have hlt := (Array.getElem?_eq_some_iff.mp hnode).1
  rw [port?, nodes_push, Array.getElem?_push, if_neg hlt.ne, hnode]
  rfl

namespace Built

lemma empty (name : String) : (Model.empty name).Built where
  numbered := fun _ _ h => (nomatch h)
  distinct := List.nodup_nil
  nodes := fun _ h => absurd h List.not_mem_nil

/-- What a node has to satisfy to be appended to a built model. -/
lemma push (h : model.Built) (hname : name ∉ model.nodes.toList.map Node.name)
    {operands : List PortElements}
    (hnode : (Node.mk model.nextNode name kind inputs elementType size).Built model operands) :
    (model.push name kind inputs elementType size).Built where
  numbered := h.numbered.push rfl
  distinct := by
    rw [nodes_push, Array.toList_push, List.map_append, List.map_singleton]
    refine List.nodup_append.mpr ⟨h.distinct, List.nodup_singleton _, ?_⟩
    rintro _ hold _ hnew rfl
    have heq : _ = name := List.mem_singleton.mp hnew
    exact hname (heq ▸ hold)
  nodes node hmem := by
    have hmono : ∀ {node : Node} {operands}, node.Built model operands →
        node.Built (model.push name kind inputs elementType size) operands :=
      fun hbuilt => { hbuilt with
        covered := fun range hrange => (hbuilt.covered range hrange).push }
    rw [nodes_push, Array.toList_push] at hmem
    rcases List.mem_append.mp hmem with hold | hnew
    · obtain ⟨operands, hbuilt⟩ := h.nodes node hold
      exact ⟨operands, hmono hbuilt⟩
    · rw [List.mem_singleton.mp hnew]
      exact ⟨operands, hmono hnode⟩

/-- A node without input ports. -/
lemma push_source (h : model.Built) (hname : name ∉ model.nodes.toList.map Node.name)
    (hkind : kind.inputNames = []) (hvalues : ∀ values, kind = .constant values → values ≠ []) :
    (model.push name kind [] elementType size).Built := by
  have hnode : (Node.mk model.nextNode name kind [] elementType size).Built model [] := {
    inputs := by
      rw [hkind]
      rfl
    count := by
      rw [hkind]
      rfl
    inferred := fun hne => absurd hkind hne
    values := hvalues
    covered := fun _ hrange => absurd hrange List.not_mem_nil
    words := fun _ helements => absurd helements List.not_mem_nil }
  exact h.push hname hnode

lemma addNode (h : model.Built) {operands : List PortElements} {next : Model}
    (hnext : model.addNode name kind operands = .ok next) : next.Built := by
  obtain ⟨hname, hcount, hcovered, hwords, size, hsize, rfl⟩ := addNode_eq_ok.mp hnext
  refine h.push hname ⟨rfl, hcount, fun _ => hsize, ?_, hcovered, hwords⟩
  -- no shape is inferred for a constant
  rintro values rfl
  obtain rfl : operands = [] := List.length_eq_zero_iff.mp hcount.symm
  cases hsize

lemma advance (h : model.Built) {step : BuildStep} {next : Model}
    (hnext : model.advance step = .ok next) : next.Built := by
  cases step with
  | input name elementType size =>
    obtain ⟨hname, -, -, rfl⟩ := addInput_eq_ok.mp hnext
    exact h.push_source hname rfl fun _ hkind => (nomatch hkind)
  | constant name elementType values =>
    obtain ⟨hname, hvalues, rfl⟩ := addConstant_eq_ok.mp hnext
    refine h.push_source hname rfl ?_
    rintro _ ⟨⟩
    exact hvalues
  | node name kind operands => exact h.addNode hnext
  | output name elements => exact h.addNode hnext

end Built

lemma name_advance {step : BuildStep} {next : Model} (hnext : model.advance step = .ok next) :
    next.name = model.name := by
  have hnode : ∀ {name kind operands}, model.addNode name kind operands = .ok next →
      next.name = model.name := by
    intro name kind operands hnext
    obtain ⟨-, -, -, -, size, -, rfl⟩ := addNode_eq_ok.mp hnext
    rfl
  cases step with
  | input name elementType size =>
    obtain ⟨-, -, -, rfl⟩ := addInput_eq_ok.mp hnext
    rfl
  | constant name elementType values =>
    obtain ⟨-, -, rfl⟩ := addConstant_eq_ok.mp hnext
    rfl
  | node name kind operands => exact hnode hnext
  | output name elements => exact hnode hnext

/-! ## Models -/

variable {steps : List BuildStep}

/-- What every step preserves holds of what is built, whether or not steps have failed. -/
lemma build_invariant {J : Model → Prop} (hempty : J (empty name))
    (hadvance : ∀ {model step next}, J model → model.advance step = .ok next → J next) :
    J (build name steps) := by
  have hrun : ∀ model : Model, J model →
      J (steps.foldl (fun model step => (model.advance step).toOption.getD model) model) := by
    induction steps with
    | nil => exact fun _ h => h
    | cons step rest ih =>
      intro model h
      refine ih _ ?_
      dsimp only
      cases hnext : model.advance step with
      | error fault => exact h
      | ok next => exact hadvance h hnext
  exact hrun _ hempty

lemma built_build (name : String) (steps : List BuildStep) : (build name steps).Built :=
  build_invariant (.empty name) fun h hnext => h.advance hnext

lemma name_build (name : String) (steps : List BuildStep) : (build name steps).name = name :=
  build_invariant (J := fun model => model.name = name) rfl
    fun h hnext => (name_advance hnext).trans h

/-- What holds of every node that a step appends holds of all nodes, at their positions. -/
lemma build_forall {P : ℕ → Node → Prop}
    (hstep : ∀ {model : Model} {node}, model.Appends node → P model.nodes.size node) :
    ∀ (i : ℕ) (node : Node), (build name steps).nodes[i]? = some node → P i node := by
  refine build_invariant (J := fun model => ∀ (i : ℕ) (node : Node), model.nodes[i]? = some node →
    P i node) (fun _ _ h => (nomatch h)) fun ih hnext i node hnode => ?_
  obtain ⟨new, hnodes, happends⟩ := advance_appends hnext
  rw [hnodes, Array.getElem?_push] at hnode
  split at hnode
  · next hi =>
    obtain rfl := Option.some.inj hnode
    exact hi ▸ hstep happends
  · exact ih i node hnode

/-- Every range of a built model names a port that is declared strictly earlier. -/
lemma backward_build (name : String) (steps : List BuildStep) : (build name steps).Backward :=
  build_forall fun happends range hrange => (happends.offers range hrange).lt

end Model
end Dataflow
