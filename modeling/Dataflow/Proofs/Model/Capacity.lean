import Dataflow.Proofs.Model.Expressible

/-!
# How large ports get

A text cannot declare a port of more elements than `maxPortSize`.  A step of building checks the
size of an input, a concatenation and an output, but neither the number of a constant's values nor
the size of an element-wise result, which is that of its operands.  An operand of one range is no
larger than the port of that range; several ranges together may be larger than any port
(`Model.ports_limited`).
-/

namespace Dataflow

/-- A kind that computes one element for each element of its operands. -/
def NodeKind.IsElementwise : NodeKind → Prop
  | .unary _ | .binary _ | .accumulator => True
  | _ => False

instance {kind : NodeKind} : Decidable kind.IsElementwise := by
  unfold NodeKind.IsElementwise
  exact match kind with
    | .unary _ | .binary _ | .accumulator => inferInstanceAs (Decidable True)
    | .input | .output | .constant _ | .reduce _ | .dot | .concat =>
      inferInstanceAs (Decidable False)

/-- What no step of building checks: a constant has no more values than a port may have elements,
and neither have the ranges that are put together for an element-wise operation. -/
structure Node.Restrained (node : Node) : Prop where
  values : ∀ values, node.kind = .constant values → values.length ≤ maxPortSize
  operands : node.kind.IsElementwise → ∀ input ∈ node.inputs,
    2 ≤ input.elements.ranges.length → input.elements.size ≤ maxPortSize

/-! ## Operands -/

lemma broadcastSize?_le {lhs rhs size bound : ℕ} (h : broadcastSize? lhs rhs = some size)
    (hbound : 1 ≤ bound) : size ≤ bound ↔ lhs ≤ bound ∧ rhs ≤ bound := by
  rw [broadcastSize?] at h
  split_ifs at h with hsame hone <;> obtain rfl := Option.some.inj h <;> omega

/-- An operand of one range is no larger than a port. -/
lemma PortElements.size_le_iff {model : Model} (hmodel : model.Limited) {elements : PortElements}
    (hcovered : ∀ range ∈ elements.ranges, model.Offers range) :
    elements.size ≤ maxPortSize ↔
      (2 ≤ elements.ranges.length → elements.size ≤ maxPortSize) := by
  refine ⟨fun h _ => h, fun h => ?_⟩
  obtain ⟨_ | ⟨range, _ | ⟨second, rest⟩⟩⟩ := elements
  · exact Nat.zero_le _
  · have hlength := ((hcovered range List.mem_cons_self).readable hmodel).2
    exact (Nat.add_zero _).trans_le hlength
  · exact h (Nat.le_add_left 2 _)

/-! ## Steps -/

namespace Model

variable {model : Model}

/-- If all earlier ports are small enough, a port is too large just if something is that no step
checks. -/
lemma Appends.le_iff {node : Node} (h : model.Appends node) (hmodel : model.Limited) :
    node.size ≤ maxPortSize ↔ node.Restrained := by
  have hone : 1 ≤ maxPortSize := by decide
  -- sizes that are checked say nothing about what is not
  have hchecked : (∀ values, node.kind ≠ .constant values) → ¬ node.kind.IsElementwise →
      node.Restrained := fun hvalues hkind =>
    ⟨fun values heq => absurd heq (hvalues values), fun helementwise => absurd helementwise hkind⟩
  cases h with
  | input hkind _ hsize =>
    exact iff_of_true hsize (hchecked (by simp [hkind]) (by rw [hkind]; exact id))
  | constant values hkind _ hsize =>
    rw [hsize]
    constructor
    · intro hle
      refine ⟨fun other hother => ?_, fun helementwise => ?_⟩
      · obtain rfl : values = other := NodeKind.constant.inj (hkind.symm.trans hother)
        exact hle
      · rw [hkind] at helementwise
        exact helementwise.elim
    · exact fun hrestrained => hrestrained.values values hkind
  | computed operands hinputs hcovered hsize =>
    have hoperand : ∀ elements ∈ operands, elements.size ≤ maxPortSize ↔
        (2 ≤ elements.ranges.length → elements.size ≤ maxPortSize) := fun elements hmem =>
      PortElements.size_le_iff hmodel fun range hrange =>
        hcovered range (List.mem_flatMap.mpr ⟨elements, hmem, hrange⟩)
    generalize hsizes : operands.map PortElements.size = sizes at hsize
    have hrestrained : (∀ values, node.kind ≠ .constant values) → node.kind.IsElementwise →
        (node.Restrained ↔ ∀ size ∈ sizes, size ≤ maxPortSize) := by
      intro hvalues hkind
      rw [← hsizes, List.forall_mem_map, forall₂_congr hoperand, ← hinputs, List.forall_mem_map]
      exact ⟨fun hnode => hnode.operands hkind,
        fun hall => ⟨fun values heq => absurd heq (hvalues values), fun _ => hall⟩⟩
    generalize node.kind = kind at hsize hchecked hrestrained
    generalize node.size = size at hsize
    cases hsize with
    | unary op size | accumulator size =>
      rw [hrestrained (fun _ => nofun) trivial, List.forall_mem_singleton]
    | binary op hbroadcast =>
      rw [hrestrained (fun _ => nofun) trivial, broadcastSize?_le hbroadcast hone,
        List.forall_mem_cons, List.forall_mem_singleton]
    | output hle | concat hle => exact iff_of_true hle (hchecked (fun _ => nofun) id)
    | reduce op size | dot size => exact iff_of_true hone (hchecked (fun _ => nofun) id)

/-! ## Models -/

/-- **How large ports get.**  No port of a model that has been read has more than `maxPortSize`
elements.  For a model that has been built in any number of steps, some of which may have failed,
this is so exactly if it is so for the values of constants and for the ranges that are put together
for an element-wise operation. -/
theorem ports_limited (text name : String) (steps : List BuildStep) :
    (∀ model, parse text = .ok model → model.Limited) ∧
    ((build name steps).Limited ↔
      ∀ node ∈ (build name steps).nodes.toList, node.Restrained) := by
  refine ⟨fun model hparse node hnode => ?_, ?_⟩
  · exact ((readable_of_parse hparse).nodes node hnode).size_le
  · refine build_invariant (J := fun model => model.Limited ↔
      ∀ node ∈ model.nodes.toList, node.Restrained) ?_ ?_
    · exact iff_of_true (fun _ h => absurd h List.not_mem_nil) fun _ h => absurd h List.not_mem_nil
    · intro model step next ih hnext
      obtain ⟨node, hnodes, happends⟩ := advance_appends hnext
      have hall : ∀ P : Node → Prop, (∀ other ∈ next.nodes.toList, P other) ↔
          (∀ other ∈ model.nodes.toList, P other) ∧ P node := by
        intro P
        rw [hnodes, Array.toList_push, List.forall_mem_append, List.forall_mem_singleton]
      rw [Limited, hall, hall, ← ih]
      exact and_congr_right happends.le_iff

/-- The largest input, and twice as many of its elements. -/
def doubleSteps : List BuildStep :=
  [.input "a" .real 16777216,
    .node "n" (.unary .neg) [⟨[⟨⟨0⟩, 0, 16777216⟩, ⟨⟨0⟩, 0, 16777216⟩]⟩]]

theorem ports_limited_samples :
    parse "model m\ninput a: real[16777216]" =
      .ok ⟨"m", #[⟨⟨0⟩, "a", .input, [], .real, 16777216⟩]⟩ ∧
    Limited ⟨"m", #[⟨⟨0⟩, "a", .input, [], .real, 16777216⟩]⟩ ∧
    (build "m" (doubleSteps.take 1)).Limited := by
  have hparse : parse "model m\ninput a: real[16777216]" =
      .ok ⟨"m", #[⟨⟨0⟩, "a", .input, [], .real, 16777216⟩]⟩ := by decide +kernel
  refine ⟨hparse, (ports_limited _ "m" []).1 _ hparse,
    (ports_limited "" "m" (doubleSteps.take 1)).2.mpr fun node hnode => ?_⟩
  obtain rfl : node = ⟨⟨0⟩, "a", .input, [], .real, 16777216⟩ := List.mem_singleton.mp hnode
  exact ⟨fun _ h => (nomatch h), fun h => h.elim⟩

/-- The steps make a port of twice as many elements as a port may have. -/
theorem ports_limited_double : ¬ (build "m" doubleSteps).Limited := by
  intro h
  have hport := h ⟨⟨1⟩, "n", .unary .neg, _, .real, 33554432⟩
    (List.mem_cons_of_mem _ List.mem_cons_self)
  exact absurd hport (by decide)

end Model
end Dataflow
