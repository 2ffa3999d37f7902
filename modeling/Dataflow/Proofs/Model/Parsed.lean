import Dataflow.Proofs.Model.Resolution

/-!
# What is read is well-formed

A text is read line by line, so its declarations stand in file order (`Draft.InOrder`).  Every one
of them becomes the node at its position: with a port of its own, with the input ports that its kind
asks for, all of them fed, and with ranges of the nodes that it names, wherever in the text these
are declared (`Declaration.Becomes`).  The tables in which references are resolved in place come to
the same, and no access to them misses (`Model.parse_wellFormed`).
-/

namespace Dataflow

/-! ## File order -/

namespace Draft

/-- The declarations stand on ascending lines, all of them before a given one. -/
structure InOrder (draft : Draft) (number : ℕ) : Prop where
  ascending : (draft.declarations.map Declaration.line).Pairwise (· < ·)
  before : ∀ declaration ∈ draft.declarations, declaration.line < number

variable {draft next : Draft} {number : ℕ} {line : List Char}

lemma InOrder.mono (h : draft.InOrder number) : draft.InOrder (number + 1) :=
  { h with before := fun declaration hmem => Nat.lt_succ_of_lt (h.before declaration hmem) }

lemma InOrder.readLine (h : draft.InOrder number) (hread : draft.readLine number line = .ok next) :
    next.InOrder (number + 1) := by
  rcases readLine_eq_ok hread with rfl | ⟨statement, rest, hscan⟩
  · exact h.mono
  · rcases scanStatement_eq_ok hscan with ⟨name, -, rfl⟩ | ⟨declaration, hline, -, -, rfl⟩
    · exact ⟨h.ascending, h.mono.before⟩
    · refine ⟨?_, List.forall_mem_append.mpr ⟨h.mono.before, List.forall_mem_singleton.mpr ?_⟩⟩
      · rw [declare, List.map_append, List.map_singleton, List.pairwise_append]
        refine ⟨h.ascending, List.pairwise_singleton _ _, fun earlier hearlier last hlast => ?_⟩
        obtain ⟨other, hother, rfl⟩ := List.mem_map.mp hearlier
        rw [List.mem_singleton.mp hlast, hline]
        exact h.before other hother
      · exact hline.trans_lt (Nat.lt_succ_self number)

end Draft

/-! ## Nodes -/

namespace NodeKind

variable {kind : NodeKind} {ranges : List PortRange}

/-- The kinds with two input ports. -/
lemma one_lt_length_inputNames :
    1 < kind.inputNames.length ↔ (∃ op, kind = .binary op) ∨ kind = .dot := by
  cases kind <;> simp [inputNames]

lemma Feeds.names_inputPorts (h : kind.Feeds ranges.length) :
    (Draft.inputPorts kind ranges).map InputPort.name = kind.inputNames := by
  rw [← filled_eq_inputPorts h, filled]
  exact List.ext_getElem (by simp) fun i hi hi' => by simp

/-- Every input port is fed, and those of kinds with two operands by one range each. -/
lemma Feeds.ranges_of_mem (h : kind.Feeds ranges.length) {input : InputPort}
    (hinput : input ∈ Draft.inputPorts kind ranges) :
    input.elements.ranges ≠ [] ∧
      (1 < kind.inputNames.length → input.elements.ranges.length = 1) := by
  rw [← filled_eq_inputPorts h, filled, List.mem_mapIdx] at hinput
  obtain ⟨i, hi, rfl⟩ := hinput
  by_cases hmany : 1 < kind.inputNames.length
  · have hlt : i < ranges.length := h.2 hmany ▸ hi
    simp [hmany, hlt]
  · refine ⟨?_, fun hlt => absurd hlt hmany⟩
    simp only [if_neg hmany]
    rintro rfl
    rw [h.1.mpr rfl] at hi
    cases hi

end NodeKind

/-- A node of a model is what a declaration says: it is numbered by its position, it has the output
port of this number and no other one, the port has elements and not too many, the node has the input
ports of its kind, all of them fed, and those of kinds with two operands by one range each, and the
ranges are what the references stand for. -/
structure Declaration.Becomes (model : Model) (i : ℕ) (declaration : Declaration) (node : Node) :
    Prop where
  name : node.name = declaration.name
  kind : node.kind = declaration.kind
  id : node.id = ⟨i⟩
  outputs : (model.tables.nodes[i]?).map NodeRecord.outputs = some [⟨i⟩]
  port : ∃ port, model.port? ⟨i⟩ = some port ∧ port.id = ⟨i⟩ ∧ port.node = node.id ∧
    port.name = node.name ∧ 1 ≤ port.size ∧ port.size ≤ maxPortSize
  alone : ∀ id port, model.port? id = some port → port.node = node.id → id = ⟨i⟩
  inputs : node.inputs.map InputPort.name = node.kind.inputNames
  fed : ∀ input ∈ node.inputs, input.elements.ranges ≠ []
  operands : (∃ op, node.kind = .binary op) ∨ node.kind = .dot →
    ∀ input ∈ node.inputs, input.elements.ranges.length = 1
  ranges : List.Forall₂ (fun reference range =>
    1 ≤ range.length ∧ range.start + range.length ≤ Word.top ∧
      range.stop = range.start + range.length ∧
      ∃ target ∈ model.nodes.toList,
        (∀ other ∈ model.nodes.toList, other.name = reference.name ↔ other = target) ∧
        model.port? range.port = some target.port ∧ range = reference.range target.port)
    declaration.references node.ranges

lemma Reference.port_range (reference : Reference) (port : OutputPort) :
    (reference.range port).port = port.id := by
  rw [range]
  split <;> rfl

namespace Model

variable {model : Model}

/-- What an access to the tables of a model finds. -/
lemma Numbered.getElem?_tables (h : model.Numbered) {node : Node}
    (hnode : node ∈ model.nodes.toList) :
    model.tables.nodes[node.id.index]? = some node.record ∧
      model.tables.ports[node.port.id.index]? = some node.port := by
  have hget : model.nodes.toList[node.port.id.index]? = some node :=
    (Array.getElem?_toList ..).trans (h.getElem?_port hnode)
  rw [tables, Tables.ofNodes, List.getElem?_map, List.getElem?_map]
  exact ⟨congrArg (Option.map Node.record) hget, congrArg (Option.map Node.port) hget⟩

/-- The numbers of nodes in the tables of a model lead to their ports. -/
lemma Numbered.parameterPorts (h : model.Numbered) {nodes : List Node}
    (hnodes : ∀ node ∈ nodes, node ∈ model.nodes.toList) :
    model.tables.parameterPorts (nodes.map Node.id) = nodes.map Node.port := by
  rw [Tables.parameterPorts, List.filterMap_map, ← List.filterMap_eq_map]
  refine List.filterMap_congr fun node hnode => ?_
  obtain ⟨hrecord, hport⟩ := h.getElem?_tables (hnodes node hnode)
  simp only [Function.comp_apply, hrecord, Option.bind_eq_bind, Option.bind_some]
  exact hport

lemma Numbered.port?_eq (h : model.Numbered) {node : Node} (hnode : node ∈ model.nodes.toList) :
    model.port? node.port.id = some node.port :=
  congrArg (Option.map Node.port) (h.getElem?_port hnode)

/-- A node has no other port than its own. -/
lemma Numbered.eq_of_port? (h : model.Numbered) {id : PortId} {port : OutputPort}
    (hport : model.port? id = some port) : port.node = ⟨id.index⟩ := by
  obtain ⟨node, hnode, rfl⟩ := Option.map_eq_some_iff.mp hport
  exact h _ node hnode

end Model

namespace Draft

variable {draft : Draft} {model : Model}

/-- The ranges of a node are those that its references stand for. -/
lemma Sound.forall₂_ranges (h : draft.Sound) (hmodel : draft.toModel = .ok model)
    {references : List Reference} {ranges : List PortRange} {line : ℕ}
    (hranges : List.Forall₂ (fun reference range =>
      Draft.resolve draft.ports line reference = .ok range) references ranges) :
    List.Forall₂ (fun reference range =>
      ∃ target ∈ model.nodes.toList,
        (∀ other ∈ model.nodes.toList, other.name = reference.name ↔ other = target) ∧
        model.port? range.port = some target.port ∧ range = reference.range target.port)
      references ranges := by
  obtain ⟨hnumbered, -⟩ := toModel_eq_ok.mp hmodel
  refine hranges.imp fun reference range hresolve => ?_
  obtain ⟨target, htarget, hname, rfl⟩ := h.resolved hmodel hresolve
  refine ⟨target, htarget, fun other hother => ⟨fun hsame => ?_, fun heq => heq ▸ hname⟩, ?_, rfl⟩
  · exact List.inj_on_of_nodup_map (h.nodup_names hmodel) hother htarget (hsame.trans hname.symm)
  · rw [Reference.port_range, hnumbered.port?_eq htarget]

/-- A sound draft describes a model whose nodes are what the declarations say. -/
lemma Sound.becomes (h : draft.Sound) (hmodel : draft.toModel = .ok model) {i : ℕ}
    {declaration : Declaration} {node : Node}
    (hdeclaration : draft.declarations[i]? = some declaration)
    (hnode : model.nodes[i]? = some node) : declaration.Becomes model i node := by
  obtain ⟨hnumbered, -, hnodes⟩ := toModel_eq_ok.mp hmodel
  have hmem := Model.mem_nodes hnode
  have hid := hnumbered i node hnode
  have hreadable := (h.readable hmodel).nodes node hmem
  obtain ⟨hi, rfl⟩ := List.getElem?_eq_some_iff.mp hdeclaration
  have hdescribes : (draft.declarations[i]).Describes draft.ports node := by
    rw [← Array.getElem?_toList] at hnode
    obtain ⟨hi', rfl⟩ := List.getElem?_eq_some_iff.mp hnode
    exact hnodes.get hi hi'
  obtain ⟨hranges, -⟩ := hdescribes.ranges (h.declarations _ (List.getElem_mem hi)).feeds
  have hfed : ∀ input ∈ node.inputs, input.elements.ranges ≠ [] ∧
      (1 < node.kind.inputNames.length → input.elements.ranges.length = 1) := fun input hinput =>
    hreadable.feeds.ranges_of_mem (hreadable.inputs ▸ hinput)
  refine ⟨hdescribes.name, hdescribes.kind, hid, ?_, ⟨node.port, ?_, ?_, rfl, rfl,
    Nat.one_le_iff_ne_zero.mpr hreadable.nonempty, hreadable.size_le⟩, fun id port hport heq => ?_,
    ?_, fun input hinput => (hfed input hinput).1, fun hkind input hinput =>
      (hfed input hinput).2 (NodeKind.one_lt_length_inputNames.mpr hkind), ?_⟩
  · have hrecord := (hnumbered.getElem?_tables hmem).1
    rw [hid] at hrecord
    rw [hrecord, Option.map_some, Node.record, hnumbered.port_id hnode]
  · rw [← hnumbered.port_id hnode, hnumbered.port?_eq hmem]
  · exact hnumbered.port_id hnode
  · rw [hnumbered.eq_of_port? hport, hid] at heq
    exact congrArg PortId.mk (congrArg NodeId.index heq)
  · rw [hreadable.inputs]
    exact hreadable.feeds.names_inputPorts
  · have htargets := h.forall₂_ranges hmodel hranges
    refine List.forall₂_iff_get.mpr ⟨htargets.length_eq, fun j hj hj' => ?_⟩
    have hrange := hreadable.ranges _ (List.get_mem node.ranges ⟨j, hj'⟩)
    exact ⟨Nat.one_le_iff_ne_zero.mpr hrange.nonempty, hrange.word, hrange.stop_eq,
      htargets.get hj hj'⟩

/-- The nodes of a kind are those that are declared with it, in file order. -/
lemma names_filter (p : NodeKind → Bool) {ports : List OutputPort} {declarations : List Declaration}
    {nodes : List Node} (h : List.Forall₂ (Declaration.Describes ports) declarations nodes) :
    ((nodes.filter fun node => p node.kind).map Node.port).map OutputPort.name =
      (declarations.filter fun declaration => p declaration.kind).map Declaration.name := by
  induction h with
  | nil => rfl
  | cons hdescribes _ ih =>
    rw [List.filter_cons, List.filter_cons, hdescribes.kind]
    split
    · rw [List.map_cons, List.map_cons, List.map_cons, ih, Node.port, hdescribes.name]
    · exact ih

end Draft

/-- **Parsed models are well-formed.**  Whatever is read of a text, no access by position that is
made to resolve the references misses, and the tables they are resolved in become those of the
model, or the error is the same.  If a model is read, its nodes have distinct names, and there is a
draft with declarations on ascending lines, one for every node of the model, each of which becomes
the node at its position.  The input and the output ports of the model are those of the declared
inputs and outputs, in file order. -/
theorem Model.parse_wellFormed (text : String) :
    (∀ draft, Draft.empty.readLines 1 (Text.lines text.toList) = .ok draft →
      draft.reading.resolved? = some ((parse text).map tables)) ∧
    ∀ model, parse text = .ok model → ∃ draft,
      Draft.empty.readLines 1 (Text.lines text.toList) = .ok draft ∧
      (draft.declarations.map Declaration.line).Pairwise (· < ·) ∧
      (model.nodes.toList.map Node.name).Nodup ∧
      model.nodes.size = draft.declarations.length ∧
      (∀ (i : ℕ) (declaration : Declaration) (node : Node),
        draft.declarations[i]? = some declaration → model.nodes[i]? = some node →
          declaration.Becomes model i node) ∧
      model.tables.parameterPorts model.tables.inputs = model.inputPorts ∧
      model.inputPorts.map OutputPort.name = (draft.declarations.filter fun declaration =>
        declaration.kind matches .input).map Declaration.name ∧
      model.tables.parameterPorts model.tables.outputs = model.outputPorts ∧
      model.outputPorts.map OutputPort.name = (draft.declarations.filter fun declaration =>
        declaration.kind matches .output).map Declaration.name := by
  constructor
  · intro draft hread
    rw [(Draft.sound_empty.readLines hread).resolved_reading, parse, hread]
    rfl
  · intro model hparse
    obtain ⟨draft, hread, hmodel⟩ := Except.bind_eq_ok.mp hparse
    have hsound := Draft.sound_empty.readLines hread
    have horder : draft.InOrder (1 + (Text.lines text.toList).length) :=
      Draft.readLines_induction (P := Draft.InOrder) (fun h => h.readLine)
        ⟨List.Pairwise.nil, fun _ hmem => absurd hmem List.not_mem_nil⟩ hread
    obtain ⟨hnumbered, -, hnodes⟩ := Draft.toModel_eq_ok.mp hmodel
    refine ⟨draft, hread, horder.ascending, Declaration.names_eq hnodes ▸ hsound.distinct, ?_,
      fun i declaration node hdeclaration hnode => hsound.becomes hmodel hdeclaration hnode, ?_,
      Draft.names_filter (· matches .input) hnodes, ?_,
      Draft.names_filter (· matches .output) hnodes⟩
    · rw [← Array.length_toList, hnodes.length_eq]
    · exact hnumbered.parameterPorts fun node hmem => List.mem_of_mem_filter hmem
    · exact hnumbered.parameterPorts fun node hmem => List.mem_of_mem_filter hmem

/-- A reference to a node that is declared further down, and a node that refers to itself, where no
element is. -/
def Model.forward : Model :=
  ⟨"model", #[⟨⟨0⟩, "a", .binary .add, [⟨"lhs", .ofRange ⟨⟨1⟩, 1, 1⟩⟩,
      ⟨"rhs", .ofRange ⟨⟨0⟩, 18446744073709551614, 1⟩⟩], .real, 3⟩,
    ⟨⟨1⟩, "b", .input, [], .int, 2⟩]⟩

theorem Model.parse_wellFormed_forward :
    let text := "node a: real[3] = add b[1], a[18446744073709551614]\ninput b: int[2]"
    parse text = .ok forward ∧ ∃ draft,
      Draft.empty.readLines 1 (Text.lines text.toList) = .ok draft ∧
      draft.reading.resolved? = some (.ok forward.tables) ∧
      ∃ declaration node, draft.declarations[0]? = some declaration ∧
        forward.nodes[0]? = some node ∧ Declaration.Becomes forward 0 declaration node := by
  intro text
  obtain ⟨hresolved, hmodels⟩ := parse_wellFormed text
  have hparse : parse text = .ok forward := by decide +kernel
  obtain ⟨draft, hread, -, -, hsize, hbecomes, -⟩ := hmodels forward hparse
  have hlength : 0 < draft.declarations.length := by
    rw [← hsize]
    decide
  have hfirst := List.getElem?_eq_getElem hlength
  refine ⟨hparse, draft, hread, ?_, _, _, hfirst, rfl, hbecomes 0 _ _ hfirst rfl⟩
  rw [hresolved draft hread, hparse]
  rfl

end Dataflow
