import Dataflow.Proofs.Acceptance.Models

/-!
# What is accepted

A model that has been read from a text is compiled exactly if it is acceptable
(`Compiler.compile_iff_acceptable`): no check is missing, and none refuses a model without reason.
Storage is part of that, to the element.  In such a model every port is small, and each of two
operands is a single range, so no sum that the compiler comes across leaves the words
(`Model.Readable.lowers_iff_fits`).
-/

namespace Dataflow

open Attempt

/-- The number of elements that are reserved when a node of a model that has been read is compiled.
The variables of inputs and outputs are reserved before. -/
def Node.charge (node : Node) : ℕ :=
  node.gatherSize + if node.kind.storage = .global then node.size else 0

/-! ## Nodes that are read -/

namespace Node.Readable

variable {model : Model} {node : Node}

lemma arranged (h : node.Readable model) : node.Arranged := by
  rw [Arranged, h.inputs, Draft.inputPorts]
  split
  · next hmany =>
    have hcount := h.feeds.2 hmany
    rw [List.map_zipWith]
    calc List.zipWith (fun name range => (InputPort.mk name (.ofRange range)).name)
          node.kind.inputNames node.ranges
        = (node.kind.inputNames.zip node.ranges).map Prod.fst := by
          rw [List.zip, List.map_zipWith]
      _ = node.kind.inputNames := List.map_fst_zip hcount.ge
  · rw [List.map_map]
    exact List.map_id _

/-- A node with one input port has all its ranges there. -/
lemma operand_zero (h : node.Readable model) {name : String}
    (hkind : node.kind.inputNames = [name]) : node.operand 0 = node.ranges ∧ node.ranges ≠ [] := by
  refine ⟨?_, fun hnil => ?_⟩
  · rw [operand, h.inputs, Draft.inputPorts, hkind]
    rfl
  · have hnone := h.feeds.1.mpr (by rw [hnil]; rfl)
    rw [hkind] at hnone
    cases hnone

/-- A node with two input ports has one range for each. -/
lemma operand_pair (h : node.Readable model) {name name' : String}
    (hkind : node.kind.inputNames = [name, name']) : ∃ range range', node.ranges = [range, range'] ∧
      node.operand 0 = [range] ∧ node.operand 1 = [range'] := by
  have hcount := h.feeds.2 (by rw [hkind]; exact Nat.lt_succ_self 1)
  rw [hkind] at hcount
  obtain ⟨range, range', hranges⟩ := List.length_eq_two.mp hcount
  refine ⟨range, range', hranges, ?_, ?_⟩
  all_goals
    rw [operand, h.inputs, Draft.inputPorts, hkind, hranges]
    rfl

end Node.Readable

lemma PortRange.Readable.offers_iff {model : Model} {range : PortRange} (h : range.Readable model) :
    model.Offers range ↔ model.Covers range := by
  obtain ⟨node, -, hport⟩ := h.exists_node
  simp only [Model.Offers, Model.Covers, hport, h.stop_eq, Option.some.injEq, exists_eq_left',
    Option.mem_def, ne_eq, h.nonempty, not_false_eq_true, true_and]

lemma PortRange.Readable.fills_iff {model : Model} {range : PortRange} (h : range.Readable model)
    {size : ℕ} : Fills [range] size ↔ size = range.length := by
  rw [Fills, totalLength_singleton]
  refine and_iff_left_of_imp fun hsize => ?_
  have := h.word
  omega

namespace Model.Readable

variable {model : Model} {node : Node} {strict : Bool}
variable (hmodel : model.Readable) (hnode : node ∈ model.nodes.toList)

include hmodel

lemma arranged : model.Arranged where
  toWellFormed := hmodel.wellFormed
  arranged node hnode := (hmodel.nodes node hnode).arranged
  ported node hnode range hrange := ((hmodel.nodes node hnode).ranges range hrange).port

include hnode

/-- Shapes that fit are shapes that are right and have words for their sizes. -/
lemma shaped_iff : node.Shaped ↔ node.ShapeFits := by
  have hreadable := hmodel.nodes node hnode
  have hone {name : String} (hkind : node.kind.inputNames = [name]) :
      Fills (node.operand 0) node.size ↔ totalLength node.ranges = node.size := by
    have hword : node.size ≤ Word.top := hreadable.size_le.trans (by decide)
    rw [(hreadable.operand_zero hkind).1, Fills, and_iff_left hword, eq_comm]
  have htwo {name name' : String} (hkind : node.kind.inputNames = [name, name']) (lhs rhs : ℕ) :
      Fills (node.operand 0) lhs ∧ Fills (node.operand 1) rhs ↔
        lhs = totalLength (node.operand 0) ∧ rhs = totalLength (node.operand 1) := by
    obtain ⟨range, range', hranges, hlhs, hrhs⟩ := hreadable.operand_pair hkind
    have hread := hreadable.ranges
    rw [hranges, List.forall_mem_cons, List.forall_mem_singleton] at hread
    rw [hlhs, hrhs, hread.1.fills_iff, hread.2.fills_iff, totalLength_singleton,
      totalLength_singleton]
  rw [Node.Shaped, Node.ShapeFits]
  cases hkind : node.kind with
  | input | constant values | reduce op => exact Iff.rfl
  | unary op | accumulator | output | concat => exact hone (by rw [hkind]; rfl)
  | dot =>
    refine and_congr_right fun _ => ⟨?_, fun hsame => ?_⟩
    · rintro ⟨length, hfills⟩
      obtain ⟨hlhs, hrhs⟩ := (htwo (by rw [hkind]; rfl) _ _).mp hfills
      exact hlhs.symm.trans hrhs
    · exact ⟨_, (htwo (by rw [hkind]; rfl) _ _).mpr ⟨rfl, hsame⟩⟩
  | binary op =>
    constructor
    · rintro ⟨lhs, rhs, hlhs, hrhs, hbroadcasts⟩
      obtain ⟨rfl, rfl⟩ := (htwo (by rw [hkind]; rfl) _ _).mp ⟨hlhs, hrhs⟩
      exact hbroadcasts
    · intro hbroadcasts
      obtain ⟨hlhs, hrhs⟩ := (htwo (by rw [hkind]; rfl) _ _).mpr ⟨rfl, rfl⟩
      exact ⟨_, _, hlhs, hrhs, hbroadcasts⟩

/-- The requirements of the compiler are that the node fits. -/
lemma lowers_iff_fits : model.Lowers strict node ↔ model.Fits strict node := by
  have hreadable := hmodel.nodes node hnode
  have hoffers : ∀ range ∈ node.ranges, model.Offers range ↔ model.Covers range :=
    fun range hrange => (hreadable.ranges range hrange).offers_iff
  constructor
  · exact fun h => ⟨fun range hrange => (hoffers range hrange).mp (h.reads range hrange).1,
      fun range hrange => (h.reads range hrange).2, (hmodel.shaped_iff hnode).mp h.shape, h.types⟩
  · intro h
    refine ⟨fun index hindex => ?_, fun range hrange =>
      ⟨(hoffers range hrange).mpr (h.covered range hrange), h.ordered range hrange⟩,
      fun range hrange => (hreadable.ranges range hrange).word,
      (hmodel.shaped_iff hnode).mpr h.shape, h.types⟩
    -- no input port is left without a range
    cases hkind : node.kind.inputNames with
    | nil =>
      rw [hkind] at hindex
      exact absurd hindex (Nat.not_lt_zero index)
    | cons name rest =>
      cases rest with
      | nil =>
        obtain ⟨hoperand, hne⟩ := hreadable.operand_zero hkind
        rw [hkind, List.length_singleton] at hindex
        obtain rfl : index = 0 := by omega
        rwa [hoperand]
      | cons name' rest =>
        obtain rfl : rest = [] := by
          cases hcase : node.kind <;> rw [hcase] at hkind <;>
            simp [NodeKind.inputNames] at hkind <;> exact hkind.2.2
        obtain ⟨range, range', -, hlhs, hrhs⟩ := hreadable.operand_pair hkind
        rw [hkind] at hindex
        obtain rfl | rfl : index = 0 ∨ index = 1 := by
          simp only [List.length_cons, List.length_nil] at hindex
          omega
        · exact hlhs ▸ List.cons_ne_nil _ _
        · exact hrhs ▸ List.cons_ne_nil _ _

/-- Only element-wise operations on one operand gather ranges, if there are several of them. -/
lemma gathered_eq : node.gathered = node.gatherSize := by
  have hreadable := hmodel.nodes node hnode
  have hone {name : String} (hkind : node.kind.inputNames = [name]) : gathering (node.operand 0) =
      if 2 ≤ node.ranges.length then totalLength node.ranges else 0 := by
    obtain ⟨hoperand, hne⟩ := hreadable.operand_zero hkind
    have hpos := List.length_pos_of_ne_nil hne
    rw [hoperand, gathering]
    split_ifs <;> omega
  have htwo {name name' : String} (hkind : node.kind.inputNames = [name, name']) :
      gathering (node.operand 0) + gathering (node.operand 1) = 0 := by
    obtain ⟨range, range', -, hlhs, hrhs⟩ := hreadable.operand_pair hkind
    rw [hlhs, hrhs]
    rfl
  rw [Node.gathered, Node.gatherSize]
  cases hkind : node.kind with
  | input | constant values | reduce op | output | concat => rfl
  | unary op | accumulator => exact hone (by rw [hkind]; rfl)
  | dot | binary op => exact htwo (by rw [hkind]; rfl)

lemma demand_eq_charge : node.demand = node.charge := by
  rw [Node.demand, Node.charge, hmodel.gathered_eq hnode]

omit hnode

lemma demand_eq_storage : model.demand = model.storage := by
  have hall : model.nodes.toList.map Node.gathered = model.nodes.toList.map Node.gatherSize :=
    List.map_congr_left fun node hnode => hmodel.gathered_eq hnode
  rw [demand, storage, hall]

end Model.Readable

/-! ## Models that are read -/

namespace Compiler

variable {model : Model} {node : Node} {count : ℕ} {c : Compiler Assembler}

/-- Compiling the next node of a model that has been read succeeds exactly if the node fits and its
storage can be reserved. -/
lemma compileNode_exact (hmodel : model.Readable) (hc : Underway model count c)
    (hnode : model.nodes[count]? = some node) (isFirst : Bool) :
    Exact (compileNode model node isFirst) c
      (model.Fits c.options.checkElementTypes node ∧
        c.backend.used + node.charge ≤ c.backend.limit)
      fun _ d => Underway model (count + 1) d ∧ d.options = c.options ∧
        d.backend.used = c.backend.used + node.charge ∧ d.backend.limit = c.backend.limit := by
  have hmem := Model.mem_nodes hnode
  rw [← hmodel.lowers_iff_fits hmem, ← hmodel.demand_eq_charge hmem]
  exact compileNode_lowers hmodel.arranged hc hnode isFirst

/-- A model that has been read is compiled exactly if no function has its name, its nodes fit and
its storage can be reserved. -/
lemma compile_exact {name : String} (hmodel : model.Readable) (hc : c.Idle) :
    Exact (compile model name) c
      (c.backend.program.function? name = none ∧
        (∀ node ∈ model.nodes.toList, model.Fits c.options.checkElementTypes node) ∧
        c.backend.used + model.storage ≤ c.backend.limit)
      fun _ d => d.backend.used = c.backend.used + model.storage := by
  have hall : (∀ node ∈ model.nodes.toList, model.Lowers c.options.checkElementTypes node) ↔
      ∀ node ∈ model.nodes.toList, model.Fits c.options.checkElementTypes node :=
    forall₂_congr fun _ hnode => hmodel.lowers_iff_fits hnode
  rw [← hall, ← hmodel.demand_eq_storage]
  exact compile_lowers hmodel.arranged hc

/-- **Exactly the acceptable models are compiled.**  On a fresh compiler, whatever its options, its
merge policy and its limit, a model that has been read from a text is compiled into a function of
any name exactly if it is acceptable.  What is reserved then is the storage of the model, to the
element. -/
theorem compile_iff_acceptable {model : Model} {text : String} (h : Model.parse text = .ok model)
    (program name : String) (policy : MergePolicy) (limit : ℕ) (options : Options) :
    let start := fresh (Assembler.fresh program policy limit) options
    ((∃ answer last, compile model name start = .ok answer last) ↔
      model.Acceptable options.checkElementTypes limit) ∧
    ∀ answer last, compile model name start = .ok answer last →
      last.backend.used = model.storage := by
  intro start
  have hexact : Exact (compile model name) start _ _ :=
    compile_exact (Model.readable_of_parse h) (idle_fresh program policy limit options)
  have hzero : start.backend.used + model.storage = model.storage := Nat.zero_add _
  refine ⟨⟨?_, fun hacceptable => ?_⟩, fun answer last hrun => ?_⟩
  · rintro ⟨answer, last, hrun⟩
    obtain ⟨⟨-, hfits, hlimit⟩, -⟩ := hexact.sound hrun
    exact ⟨hfits, hzero.symm.trans_le hlimit⟩
  · exact hexact.complete ⟨rfl, hacceptable.fits, hzero.trans_le hacceptable.storage⟩
  · exact (hexact.sound hrun).2.trans hzero

/-- A model that gathers two ranges. -/
def joined : Model :=
  ⟨"joined", #[⟨⟨0⟩, "a", .input, [], .real, 2⟩,
    ⟨⟨1⟩, "n", .unary .neg, [⟨"input", ⟨[⟨⟨0⟩, 0, 2⟩, ⟨⟨0⟩, 1, 1⟩]⟩⟩], .real, 3⟩,
    ⟨⟨2⟩, "y", .output, [⟨"input", ⟨[⟨⟨1⟩, 0, 3⟩]⟩⟩], .real, 3⟩]⟩

theorem compile_iff_acceptable_joined :
    Model.parse
        "model joined\ninput a: real[2]\nnode n: real[3] = neg a, a[1]\noutput y: real[3] = n" =
      .ok joined ∧
    (∃ answer last, compile joined "f" (fresh (Assembler.fresh "m" .always 11) .standard) =
      .ok answer last ∧ last.backend.used = 11) ∧
    ¬ ∃ answer last, compile joined "f" (fresh (Assembler.fresh "m" .always 10) .standard) =
      .ok answer last := by
  have hparse : Model.parse
      "model joined\ninput a: real[2]\nnode n: real[3] = neg a, a[1]\noutput y: real[3] = n" =
      .ok joined := by decide +kernel
  have hstorage : joined.storage = 11 := by decide
  refine ⟨hparse, ?_, ?_⟩
  · obtain ⟨hiff, hused⟩ := compile_iff_acceptable hparse "m" "f" .always 11 .standard
    obtain ⟨answer, last, hrun⟩ := hiff.mpr (by decide +kernel)
    exact ⟨answer, last, hrun, (hused answer last hrun).trans hstorage⟩
  · rw [(compile_iff_acceptable hparse "m" "f" .always 10 .standard).1]
    exact fun h => absurd h.storage (by decide)

end Compiler
end Dataflow
