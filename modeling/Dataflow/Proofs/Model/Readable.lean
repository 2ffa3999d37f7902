import Dataflow.Proofs.Model.Declared
import Dataflow.Proofs.Model.Words

/-!
# Models that are read

What is known of a model that has been read from a text (`Model.Readable`): whatever it is made of
can stand in a text.  Names are names, ports have elements and not too many of them, ranges are not
empty and belong to ports of the model, and the ranges of a node are distributed over its input
ports in the way of its kind (`Model.readable_of_parse`).
-/

namespace Dataflow

/-! ## Declarations -/

/-- A reference to a range that is not empty and ends at a word. -/
def Reference.Sound (reference : Reference) : Prop :=
  ∀ window ∈ reference.window, window.1 < window.2 ∧ window.2 ≤ Word.top

/-- How many ranges feed a node of a kind: none if it has no input port, any number from one on if
it has one, and one for each if it has several. -/
def NodeKind.Feeds (kind : NodeKind) (count : ℕ) : Prop :=
  (kind.inputNames = [] ↔ count = 0) ∧ (1 < kind.inputNames.length → count = kind.inputNames.length)

lemma NodeKind.inputNames_ne_nil {kind : NodeKind} (h : kind ∈ operators) :
    kind.inputNames ≠ [] := by
  have hall : ∀ kind ∈ operators, kind.inputNames ≠ [] := by decide
  exact hall kind h

/-- A declaration that has passed all checks of a text. -/
structure Declaration.Sound (declaration : Declaration) : Prop where
  name : Scan.IsName declaration.name
  nonempty : declaration.size ≠ 0
  size_le : declaration.size ≤ maxPortSize
  values : ∀ values, declaration.kind = .constant values → values ≠ []
  feeds : declaration.kind.Feeds declaration.references.length
  references : ∀ reference ∈ declaration.references, reference.Sound

/-- A draft whose declarations are sound and have distinct names. -/
structure Draft.Sound (draft : Draft) : Prop where
  name : Scan.IsName draft.name
  declarations : ∀ declaration ∈ draft.declarations, declaration.Sound
  distinct : (draft.declarations.map Declaration.name).Nodup

variable {draft next : Draft} {line rest : List Char}

open Scan

lemma Reference.scan_eq_ok {reference : Reference} (h : scan line = .ok (reference, rest)) :
    reference.Sound := by
  obtain ⟨name, mid, -, h⟩ := bind_eq_ok.mp h
  obtain ⟨bracket, mid', -, h⟩ := bind_eq_ok.mp h
  cases bracket with
  | false =>
    cases h
    exact fun _ h => (nomatch h)
  | true =>
    obtain ⟨start, mid₁, hstart, h⟩ := bind_eq_ok.mp h
    obtain ⟨dots, mid₂, -, h⟩ := bind_eq_ok.mp h
    -- however the end has been found, what follows it is read in the same way
    have hclose : ∀ stop mid, stop ≤ Word.top → (do
        Scan.expect ']'
        if stop ≤ start then throw (.emptyRange start stop name)
        return ⟨name, some (start, stop)⟩ : Scan Reference) mid = .ok (reference, rest) →
        reference.Sound := by
      intro stop mid hstop h
      obtain ⟨_, mid', -, h⟩ := bind_eq_ok.mp h
      split at h
      · cases h
      · next hlt =>
        cases h
        rintro _ ⟨⟩
        exact ⟨not_le.mp hlt, hstop⟩
    split at h
    · obtain ⟨stop, mid₃, hstop, h⟩ := bind_eq_ok.mp h
      exact hclose stop mid₃ (index_le hstop) h
    · split at h
      · cases h
      · next htop => exact hclose (start + 1) mid₂ (by have := index_le hstart; omega) h

lemma Reference.scanOperands_eq_ok {kind : NodeKind} {references : List Reference}
    (h : scanOperands kind line = .ok (references, rest)) (hkind : kind.inputNames ≠ []) :
    kind.Feeds references.length ∧ ∀ reference ∈ references, reference.Sound := by
  obtain ⟨all, mid, hall, h⟩ := bind_eq_ok.mp h
  obtain ⟨hne, hsound⟩ := separated_eq_ok (fun _ _ _ => scan_eq_ok) hall
  split at h
  · cases h
  · next hcount =>
    cases h
    refine ⟨⟨⟨fun hnil => absurd hnil hkind, fun hzero => ?_⟩, fun hlt => ?_⟩, hsound⟩
    · exact absurd (List.length_eq_zero_iff.mp hzero) hne
    · exact not_not.mp fun hdiffers => hcount ⟨hlt, hdiffers⟩

namespace Draft

lemma scanShape_eq_ok {name : String} {elementType : ElementType} {size : ℕ}
    (h : draft.scanShape line = .ok ((name, elementType, size), rest)) :
    IsName name ∧ name ∉ draft.declarations.map Declaration.name ∧ size ≠ 0 ∧
      size ≤ maxPortSize := by
  obtain ⟨word, mid, hword, h⟩ := bind_eq_ok.mp h
  split at h
  · cases h
  · next hnew =>
    obtain ⟨_, mid₁, -, h⟩ := bind_eq_ok.mp h
    obtain ⟨typeName, mid₂, -, h⟩ := bind_eq_ok.mp h
    cases htype : ElementType.ofName? typeName with
    | none =>
      rw [htype] at h
      cases h
    | some found =>
      rw [htype] at h
      obtain ⟨_, mid₃, -, h⟩ := bind_eq_ok.mp h
      obtain ⟨count, mid₄, -, h⟩ := bind_eq_ok.mp h
      obtain ⟨_, mid₅, -, h⟩ := bind_eq_ok.mp h
      split at h
      · cases h
      · next hnonempty =>
        split at h
        · cases h
        · next hsize =>
          cases h
          refine ⟨name_eq_ok hword, fun hold => hnew ?_, hnonempty, not_lt.mp hsize⟩
          obtain ⟨declaration, hmem, rfl⟩ := List.mem_map.mp hold
          exact List.any_eq_true.mpr ⟨declaration, hmem, beq_self_eq_true _⟩

lemma scanOperation_eq_ok {kind : NodeKind} {references : List Reference}
    (h : scanOperation line = .ok ((kind, references), rest)) :
    (∀ values, kind = .constant values → values ≠ []) ∧ kind.Feeds references.length ∧
      ∀ reference ∈ references, reference.Sound := by
  obtain ⟨operation, mid, -, h⟩ := bind_eq_ok.mp h
  split at h
  · obtain ⟨values, mid', hvalues, h⟩ := bind_eq_ok.mp h
    cases h
    obtain ⟨hne, -⟩ := separated_eq_ok (P := fun _ => True) (fun _ _ _ _ => trivial) hvalues
    refine ⟨?_, ?_, fun _ hmem => absurd hmem List.not_mem_nil⟩
    · rintro _ ⟨⟩
      exact hne
    · exact ⟨⟨fun _ => rfl, fun _ => rfl⟩, fun hlt => absurd hlt (Nat.not_lt_zero 1)⟩
  · cases hkind : NodeKind.ofOperator? operation with
    | none =>
      rw [hkind] at h
      cases h
    | some found =>
      rw [hkind] at h
      obtain ⟨operands, mid', hoperands, h⟩ := bind_eq_ok.mp h
      cases h
      have hoperator : kind ∈ NodeKind.operators := List.mem_of_find?_eq_some hkind
      refine ⟨?_, Reference.scanOperands_eq_ok hoperands (NodeKind.inputNames_ne_nil hoperator)⟩
      rintro values rfl
      exact absurd rfl (NodeKind.inputNames_ne_nil hoperator)

lemma Sound.declare (h : draft.Sound) {declaration : Declaration} (hsound : declaration.Sound)
    (hnew : declaration.name ∉ draft.declarations.map Declaration.name) :
    (draft.declare declaration).Sound where
  name := h.name
  declarations := List.forall_mem_append.mpr
    ⟨h.declarations, List.forall_mem_singleton.mpr hsound⟩
  distinct := by
    rw [Draft.declare, List.map_append, List.map_singleton]
    refine List.nodup_append.mpr ⟨h.distinct, List.nodup_singleton _, ?_⟩
    rintro _ hold _ hname rfl
    exact hnew (List.mem_singleton.mp hname ▸ hold)

/-- A statement names the model or declares a node. -/
lemma scanStatement_eq_ok {number : ℕ}
    (hscan : draft.scanStatement number line = .ok (next, rest)) :
    (∃ name, IsName name ∧ next = { draft with name, named := true }) ∨
      ∃ declaration : Declaration, declaration.line = number ∧ declaration.Sound ∧
        declaration.name ∉ draft.declarations.map Declaration.name ∧
        next = draft.declare declaration := by
  obtain ⟨word, mid, -, hscan⟩ := bind_eq_ok.mp hscan
  split at hscan
  · -- the name of the model
    split at hscan
    · cases hscan
    · obtain ⟨name, mid', hname, hscan⟩ := bind_eq_ok.mp hscan
      cases hscan
      exact .inl ⟨name, name_eq_ok hname, rfl⟩
  · -- an input
    obtain ⟨⟨name, elementType, size⟩, mid', hshape, hscan⟩ := bind_eq_ok.mp hscan
    obtain ⟨hname, hnew, hnonempty, hsize⟩ := scanShape_eq_ok hshape
    cases hscan
    refine .inr ⟨⟨number, name, elementType, size, .input, []⟩, rfl, ?_, hnew, rfl⟩
    exact ⟨hname, hnonempty, hsize, fun _ h => (nomatch h),
      ⟨⟨fun _ => rfl, fun _ => rfl⟩, fun hlt => absurd hlt (Nat.not_lt_zero 1)⟩,
      fun _ hmem => absurd hmem List.not_mem_nil⟩
  · -- a constant or a computing node
    obtain ⟨⟨name, elementType, size⟩, mid', hshape, hscan⟩ := bind_eq_ok.mp hscan
    obtain ⟨hname, hnew, hnonempty, hsize⟩ := scanShape_eq_ok hshape
    obtain ⟨_, mid₁, -, hscan⟩ := bind_eq_ok.mp hscan
    obtain ⟨⟨kind, references⟩, mid₂, hoperation, hscan⟩ := bind_eq_ok.mp hscan
    obtain ⟨hvalues, hfeeds, hreferences⟩ := scanOperation_eq_ok hoperation
    cases hscan
    exact .inr ⟨_, rfl, ⟨hname, hnonempty, hsize, hvalues, hfeeds, hreferences⟩, hnew, rfl⟩
  · -- an output
    obtain ⟨⟨name, elementType, size⟩, mid', hshape, hscan⟩ := bind_eq_ok.mp hscan
    obtain ⟨hname, hnew, hnonempty, hsize⟩ := scanShape_eq_ok hshape
    obtain ⟨_, mid₁, -, hscan⟩ := bind_eq_ok.mp hscan
    obtain ⟨references, mid₂, hoperands, hscan⟩ := bind_eq_ok.mp hscan
    obtain ⟨hfeeds, hreferences⟩ := Reference.scanOperands_eq_ok hoperands (by decide)
    cases hscan
    refine .inr ⟨⟨number, name, elementType, size, .output, references⟩, rfl, ?_, hnew, rfl⟩
    exact ⟨hname, hnonempty, hsize, fun _ h => (nomatch h), hfeeds, hreferences⟩
  · cases hscan

/-- A line holds a statement or nothing. -/
lemma readLine_eq_ok {number : ℕ} (hread : draft.readLine number line = .ok next) :
    next = draft ∨ ∃ statement rest, draft.scanStatement number statement = .ok (next, rest) := by
  rw [Draft.readLine] at hread
  split at hread
  · cases hread
    exact .inl rfl
  · obtain ⟨⟨found, rest⟩, hscan, hread⟩ := Except.bind_eq_ok.mp hread
    simp only at hread
    split at hread
    · cases hread
      exact .inr ⟨_, _, hscan⟩
    · cases hread

/-- What every line preserves, where the number of the next line may be part of it, the text
preserves. -/
lemma readLines_induction {P : Draft → ℕ → Prop}
    (hstep : ∀ {draft next number line}, P draft number →
      draft.readLine number line = .ok next → P next (number + 1))
    {number : ℕ} {lines : List (List Char)} (h : P draft number)
    (hread : draft.readLines number lines = .ok next) : P next (number + lines.length) := by
  induction lines generalizing draft number with
  | nil =>
    cases hread
    exact h
  | cons line others ih =>
    obtain ⟨found, hline, hread⟩ := Except.bind_eq_ok.mp hread
    rw [List.length_cons, Nat.add_comm others.length, ← Nat.add_assoc]
    exact ih (hstep h (Except.mapError_eq_ok.mp hline)) hread

lemma Sound.readLine (h : draft.Sound) {number : ℕ}
    (hread : draft.readLine number line = .ok next) : next.Sound := by
  rcases readLine_eq_ok hread with rfl | ⟨statement, rest, hscan⟩
  · exact h
  · rcases scanStatement_eq_ok hscan with ⟨name, hname, rfl⟩ | ⟨declaration, -, hsound, hnew, rfl⟩
    · exact { h with name := hname }
    · exact h.declare hsound hnew

lemma Sound.readLines (h : draft.Sound) {number : ℕ} {lines : List (List Char)}
    (hread : draft.readLines number lines = .ok next) : next.Sound :=
  readLines_induction (P := fun draft _ => draft.Sound) (fun h => h.readLine) h hread

lemma sound_empty : Draft.empty.Sound where
  name := isName_of_isAlpha (by simp [Draft.empty]) (by simp [Draft.empty])
  declarations := fun _ h => (nomatch h)
  distinct := List.nodup_nil

end Draft

/-! ## Models -/

/-- A range that can be written as a reference. -/
structure PortRange.Readable (model : Model) (range : PortRange) : Prop where
  nonempty : range.length ≠ 0
  word : range.start + range.length ≤ Word.top
  port : range.port.index < model.nodes.size

namespace PortRange.Readable

variable {model : Model} {range : PortRange}

lemma exists_node (h : range.Readable model) : ∃ node,
    model.nodes[range.port.index]? = some node ∧ model.port? range.port = some node.port := by
  have hget := Array.getElem?_eq_getElem h.port
  exact ⟨_, hget, congrArg (Option.map Node.port) hget⟩

lemma stop_eq (h : range.Readable model) : range.stop = range.start + range.length :=
  Word.addSaturating_of_lt (Nat.lt_succ_of_le h.word)

end PortRange.Readable

/-- A node that can be written as a statement. -/
structure Node.Readable (model : Model) (node : Node) : Prop where
  name : IsName node.name
  nonempty : node.size ≠ 0
  size_le : node.size ≤ maxPortSize
  values : ∀ values, node.kind = .constant values → values ≠ []
  feeds : node.kind.Feeds node.ranges.length
  inputs : node.inputs = Draft.inputPorts node.kind node.ranges
  ranges : ∀ range ∈ node.ranges, range.Readable model

/-- A model that can be written as a text. -/
structure Model.Readable (model : Model) : Prop where
  name : IsName model.name
  numbered : model.Numbered
  distinct : (model.nodes.toList.map Node.name).Nodup
  nodes : ∀ node ∈ model.nodes.toList, node.Readable model

lemma NodeKind.Feeds.ranges_inputPorts {kind : NodeKind} {ranges : List PortRange}
    (h : kind.Feeds ranges.length) :
    (Draft.inputPorts kind ranges).flatMap (fun input => input.elements.ranges) = ranges :=
  Draft.ranges_inputPorts (fun hnil => List.length_eq_zero_iff.mp (h.1.mp hnil)) h.2

/-- The ranges of a node are what its declaration refers to, and are distributed over its input
ports in the way of its kind. -/
lemma Declaration.Describes.ranges {ports : List OutputPort} {declaration : Declaration}
    {node : Node} (h : declaration.Describes ports node)
    (hfeeds : declaration.kind.Feeds declaration.references.length) :
    List.Forall₂ (fun reference range => Draft.resolve ports declaration.line reference = .ok range)
      declaration.references node.ranges ∧ node.kind.Feeds node.ranges.length ∧
      node.inputs = Draft.inputPorts node.kind node.ranges := by
  obtain ⟨ranges, hranges, hinputs⟩ := h.inputs
  rw [hranges.length_eq, ← h.kind] at hfeeds
  rw [← h.kind] at hinputs
  have hall : node.ranges = ranges := by
    rw [Node.ranges, hinputs, hfeeds.ranges_inputPorts]
  rw [hall]
  exact ⟨hranges, hfeeds, hinputs⟩

lemma Reference.Sound.readable_range {reference : Reference} {node : Node} {model : Model}
    (h : reference.Sound) (hnumbered : model.Numbered) (hnode : node ∈ model.nodes.toList)
    (hnonempty : node.size ≠ 0) (hsize : node.size ≤ maxPortSize) :
    (reference.range node.port).Readable model := by
  have hport : node.port.id.index < model.nodes.size :=
    (Array.getElem?_eq_some_iff.mp (hnumbered.getElem?_port hnode)).1
  have hword : maxPortSize ≤ Word.top := by decide
  rw [Reference.range]
  split
  · exact ⟨hnonempty, (Nat.zero_add _).trans_le (hsize.trans hword), hport⟩
  · next start stop hwindow =>
    obtain ⟨hlt, hle⟩ := h (start, stop) hwindow
    exact ⟨Nat.sub_ne_zero_of_lt hlt, (Nat.add_sub_of_le hlt.le).trans_le hle, hport⟩

namespace Draft

variable {model : Model}

/-- The nodes of a sound draft have different names. -/
lemma Sound.nodup_names (h : draft.Sound) (hmodel : draft.toModel = .ok model) :
    (model.nodes.toList.map Node.name).Nodup := by
  obtain ⟨-, -, hnodes⟩ := toModel_eq_ok.mp hmodel
  exact Declaration.names_eq hnodes ▸ h.distinct

/-- A reference that is resolved stands for a range of the node that it names. -/
lemma Sound.resolved (h : draft.Sound) (hmodel : draft.toModel = .ok model) {line : ℕ}
    {reference : Reference} {range : PortRange}
    (hresolve : Draft.resolve draft.ports line reference = .ok range) :
    ∃ target ∈ model.nodes.toList, target.name = reference.name ∧
      reference.range target.port = range := by
  obtain ⟨hnumbered, -, hnodes⟩ := toModel_eq_ok.mp hmodel
  have hports := ports_eq hnumbered hnodes
  have hdistinct : (draft.ports.map OutputPort.name).Nodup := by
    rw [hports, List.map_map]
    exact h.nodup_names hmodel
  obtain ⟨port, hport, hname, hrange⟩ := (resolve_eq_ok hdistinct).mp hresolve
  obtain ⟨target, htarget, rfl⟩ := List.mem_map.mp (hports ▸ hport)
  exact ⟨target, htarget, hname, hrange⟩

/-- Sound declarations describe nodes that can be written. -/
lemma Sound.readable (h : draft.Sound) (hmodel : draft.toModel = .ok model) : model.Readable := by
  obtain ⟨hnumbered, hname, hnodes⟩ := toModel_eq_ok.mp hmodel
  -- every node is described by a sound declaration
  have hsource : ∀ node ∈ model.nodes.toList, ∃ declaration : Declaration,
      declaration.Sound ∧ declaration.Describes draft.ports node := by
    intro node hnode
    obtain ⟨i, hi, rfl⟩ := List.getElem_of_mem hnode
    have hi' := hnodes.length_eq ▸ hi
    exact ⟨_, h.declarations _ (List.getElem_mem hi'), hnodes.get hi' hi⟩
  refine ⟨hname ▸ h.name, hnumbered, h.nodup_names hmodel, fun node hnode => ?_⟩
  obtain ⟨declaration, hsound, hdescribes⟩ := hsource node hnode
  obtain ⟨hranges, hfeeds, hinputs⟩ := hdescribes.ranges hsound.feeds
  refine ⟨hdescribes.name ▸ hsound.name, hdescribes.size ▸ hsound.nonempty,
    hdescribes.size ▸ hsound.size_le, hdescribes.kind ▸ hsound.values, hfeeds, hinputs, ?_⟩
  intro range hrange
  obtain ⟨i, hi, rfl⟩ := List.getElem_of_mem hrange
  have hi' := hranges.length_eq ▸ hi
  obtain ⟨source, hsource', -, hrange⟩ := h.resolved hmodel (hranges.get hi' hi)
  obtain ⟨origin, horigin, hdescribes'⟩ := hsource source hsource'
  rw [List.get_eq_getElem, List.get_eq_getElem] at hrange
  rw [← hrange]
  exact (hsound.references _ (List.getElem_mem hi')).readable_range hnumbered hsource'
    (hdescribes'.size ▸ horigin.nonempty) (hdescribes'.size ▸ horigin.size_le)

end Draft

namespace Model

variable {model : Model}

lemma readable_of_parse {text : String} (h : parse text = .ok model) : model.Readable := by
  obtain ⟨draft, hread, hmodel⟩ := Except.bind_eq_ok.mp h
  exact (Draft.sound_empty.readLines hread).readable hmodel

lemma Readable.wellFormed (h : model.Readable) : model.WellFormed where
  numbered := h.numbered
  distinct := h.distinct
  words := fun node hnode range hrange =>
    Nat.lt_succ_of_le ((Nat.le_add_left _ _).trans ((h.nodes node hnode).ranges range hrange).word)

end Model
end Dataflow
