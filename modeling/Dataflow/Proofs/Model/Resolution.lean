import Dataflow.Proofs.Model.Readable

/-!
# Resolving references in place

Instead of a draft, a reader may keep tables.  It enters every node as soon as it is declared, with
input ports that are empty, and keeps a table of names and a list of the references that wait for
the end of the text.  Resolving a reference then takes three accesses by position: to the port that
the name stands for, to the node that refers to it, and to an input port of this node.  For whatever
has been read none of them misses, and the outcome is that of resolving the draft
(`Draft.Sound.resolved_reading`).
-/

namespace Dataflow

/-! ## Tables -/

/-- A node in a table, which knows its output ports by number. -/
structure NodeRecord where
  /-- The number of the node. -/
  id : NodeId
  /-- The name of the node. -/
  name : String
  /-- What the node computes. -/
  kind : NodeKind
  /-- The input ports. -/
  inputs : List InputPort
  /-- The numbers of the output ports. -/
  outputs : List PortId
deriving DecidableEq, Repr

/-- A model in tables. -/
structure Tables where
  /-- The name of the model. -/
  name : String
  /-- The nodes in declared order. -/
  nodes : List NodeRecord
  /-- The output ports of all nodes. -/
  ports : List OutputPort
  /-- The numbers of the input nodes. -/
  inputs : List NodeId
  /-- The numbers of the output nodes. -/
  outputs : List NodeId
deriving DecidableEq, Repr

namespace Tables

/-- The tables of a model without nodes. -/
def empty (name : String) : Tables := ⟨name, [], [], [], []⟩

/-- Enters a node and its port. -/
def enter (tables : Tables) (name : String) (kind : NodeKind) (inputs : List InputPort)
    (elementType : ElementType) (size : ℕ) : Tables :=
  let node : NodeId := ⟨tables.nodes.length⟩
  let port : PortId := ⟨tables.ports.length⟩
  { name := tables.name
    nodes := tables.nodes ++ [⟨node, name, kind, inputs, [port]⟩]
    ports := tables.ports ++ [⟨port, node, name, elementType, size⟩]
    inputs := if kind matches .input then tables.inputs ++ [node] else tables.inputs
    outputs := if kind matches .output then tables.outputs ++ [node] else tables.outputs }

/-- Replaces the node at a position. -/
def replace (tables : Tables) (index : ℕ) (record : NodeRecord) : Tables :=
  { tables with nodes := tables.nodes.set index record }

/-- Appends a range to an input port of a node, if there are such a node and such an input port. -/
def append? (tables : Tables) (node : NodeId) (input : ℕ) (range : PortRange) : Option Tables := do
  let record ← tables.nodes[node.index]?
  let port ← record.inputs[input]?
  let inputs := record.inputs.set input { port with elements := port.elements.push range }
  return tables.replace node.index { record with inputs }

/-- The first output ports of some nodes. -/
def parameterPorts (tables : Tables) (ids : List NodeId) : List OutputPort :=
  ids.filterMap fun id => do
    let record ← tables.nodes[id.index]?
    let port ← record.outputs.head?
    tables.ports[port.index]?

end Tables

/-- A node in a table. -/
def Node.record (node : Node) : NodeRecord :=
  ⟨node.id, node.name, node.kind, node.inputs, [node.port.id]⟩

/-- Some nodes in tables. -/
def Tables.ofNodes (name : String) (nodes : List Node) : Tables where
  name := name
  nodes := nodes.map Node.record
  ports := nodes.map Node.port
  inputs := (nodes.filter fun node => node.kind matches .input).map Node.id
  outputs := (nodes.filter fun node => node.kind matches .output).map Node.id

/-- A model in tables. -/
def Model.tables (model : Model) : Tables := .ofNodes model.name model.nodes.toList

/-- A reference that waits for the end of the text. -/
structure Waiting where
  /-- The line on which the reference stands. -/
  line : ℕ
  /-- The node that refers. -/
  node : NodeId
  /-- The position of the input port. -/
  input : ℕ
  /-- The reference. -/
  reference : Reference
deriving DecidableEq, Repr

/-- What a reader that keeps tables has read. -/
structure Reading where
  /-- The nodes and their ports. -/
  tables : Tables
  /-- The port that a name stands for. -/
  names : String → Option PortId
  /-- The references in file order. -/
  waiting : List Waiting

/-- The input port that a reference is for: every reference has an input port of its own if the kind
has several, and otherwise they share the only one. -/
def NodeKind.slot (kind : NodeKind) (position : ℕ) : ℕ :=
  if 1 < kind.inputNames.length then position else 0

namespace Reading

/-- Enters a declaration. -/
def declare (reading : Reading) (declaration : Declaration) : Reading where
  tables := reading.tables.enter declaration.name declaration.kind
    (declaration.kind.inputNames.map fun name => ⟨name, .empty⟩) declaration.elementType
    declaration.size
  names := Function.update reading.names declaration.name (some ⟨reading.tables.ports.length⟩)
  waiting := reading.waiting ++ declaration.references.mapIdx fun position reference =>
    ⟨declaration.line, ⟨reading.tables.nodes.length⟩, declaration.kind.slot position, reference⟩

/-- Resolves a reference.  There is no outcome if an access by position misses. -/
def resolve? (names : String → Option PortId) (tables : Tables) (waiting : Waiting) :
    Option (Except ModelError Tables) :=
  match names waiting.reference.name with
  | none => some (.error (.parse waiting.line (.undeclaredNode waiting.reference.name)))
  | some id => do
    let port ← tables.ports[id.index]?
    let range := match waiting.reference.window with
      | none => ⟨id, 0, port.size⟩
      | some (start, stop) => ⟨id, start, stop - start⟩
    let tables ← tables.append? waiting.node waiting.input range
    return .ok tables

/-- Resolves references one after another, up to the first that names no node. -/
def resolveAll? (names : String → Option PortId) (tables : Tables) :
    List Waiting → Option (Except ModelError Tables)
  | [] => some (.ok tables)
  | waiting :: rest =>
    match resolve? names tables waiting with
    | none => none
    | some (.error error) => some (.error error)
    | some (.ok tables) => resolveAll? names tables rest

/-- Resolves all references. -/
def resolved? (reading : Reading) : Option (Except ModelError Tables) :=
  resolveAll? reading.names reading.tables reading.waiting

end Reading

/-- What a reader that keeps tables has read, when a draft has been read. -/
def Draft.reading (draft : Draft) : Reading :=
  draft.declarations.foldl Reading.declare ⟨.empty draft.name, fun _ => none, []⟩

/-! ## Input ports that are filled one by one -/

namespace NodeKind

variable {kind : NodeKind} {ranges : List PortRange}

/-- The input ports of a node of a kind when the first of its references have been resolved. -/
def filled (kind : NodeKind) (ranges : List PortRange) : List InputPort :=
  kind.inputNames.mapIdx fun i name =>
    ⟨name, ⟨if 1 < kind.inputNames.length then ranges[i]?.toList else ranges⟩⟩

lemma filled_nil (kind : NodeKind) :
    kind.filled [] = kind.inputNames.map fun name => ⟨name, .empty⟩ := by
  refine List.ext_getElem (by simp [filled]) fun i hi hi' => ?_
  simp [filled, PortElements.empty]

lemma filled_eq_inputPorts (h : kind.Feeds ranges.length) :
    kind.filled ranges = Draft.inputPorts kind ranges := by
  rw [filled, Draft.inputPorts]
  split
  · next hmany =>
    refine List.ext_getElem (by simp [h.2 hmany]) fun i hi hi' => ?_
    rw [List.length_zipWith, lt_min_iff] at hi'
    simp [hi'.2, PortElements.ofRange]
  · exact List.ext_getElem (by simp) fun i hi hi' => by simp

/-- The input port for the next reference is there, and appending the range to it fills it. -/
lemma filled_concat (range : PortRange) (h : kind.slot ranges.length < kind.inputNames.length) :
    ∃ port, (kind.filled ranges)[kind.slot ranges.length]? = some port ∧
      (kind.filled ranges).set (kind.slot ranges.length)
        { port with elements := port.elements.push range } = kind.filled (ranges ++ [range]) := by
  have hlt : kind.slot ranges.length < (kind.filled ranges).length := by
    rwa [filled, List.length_mapIdx]
  refine ⟨_, List.getElem?_eq_getElem hlt, List.ext_getElem (by simp [filled]) fun i hi hi' => ?_⟩
  rw [filled, List.length_mapIdx] at hi'
  rw [List.getElem_set]
  simp only [filled, List.getElem_mapIdx, slot, PortElements.push]
  by_cases hmany : 1 < kind.inputNames.length
  · simp only [hmany, if_true]
    split
    · next heq => simp [← heq]
    · next hne =>
      rcases Nat.lt_or_gt_of_ne hne with hgt | hlt
      · simp [List.getElem?_append, hgt.not_gt, Nat.sub_ne_zero_of_lt hgt]
      · rw [List.getElem?_append_left hlt]
  · obtain rfl : i = 0 := by omega
    simp [hmany]

end NodeKind

/-! ## What has been read -/

/-- The node of a declaration before its references are resolved. -/
def Declaration.bare (index : ℕ) (declaration : Declaration) : Node :=
  ⟨⟨index⟩, declaration.name, declaration.kind, declaration.kind.filled [], declaration.elementType,
    declaration.size⟩

/-- The references of a declaration. -/
def Declaration.waiting (index : ℕ) (declaration : Declaration) : List Waiting :=
  declaration.references.mapIdx fun position reference =>
    ⟨declaration.line, ⟨index⟩, declaration.kind.slot position, reference⟩

lemma Tables.ofNodes_enter (name : String) (nodes : List Node) (declaration : Declaration) :
    (ofNodes name nodes).enter declaration.name declaration.kind
        (declaration.kind.inputNames.map fun name => ⟨name, .empty⟩) declaration.elementType
        declaration.size = ofNodes name (nodes ++ [declaration.bare nodes.length]) := by
  rw [← NodeKind.filled_nil]
  simp only [enter, ofNodes, Declaration.bare, List.length_map, List.map_append, List.filter_append,
    List.map_singleton, Tables.mk.injEq, true_and]
  refine ⟨rfl, rfl, ?_, ?_⟩
  · cases declaration.kind <;> simp
  · cases declaration.kind <;> simp

namespace Draft

variable {draft : Draft}

lemma ports_eq_bare (draft : Draft) :
    draft.ports = (draft.declarations.mapIdx Declaration.bare).map Node.port :=
  List.ext_getElem (by simp [ports]) fun i hi hi' => by simp [ports, Declaration.bare, Node.port]

/-- The ports are numbered by position. -/
lemma id_of_getElem?_ports {i : ℕ} {port : OutputPort} (h : draft.ports[i]? = some port) :
    port.id = ⟨i⟩ := by
  rw [ports, List.getElem?_mapIdx] at h
  obtain ⟨declaration, -, rfl⟩ := Option.map_eq_some_iff.mp h
  rfl

/-- The port that a name stands for. -/
def portOf? (draft : Draft) (name : String) : Option PortId :=
  (draft.ports.find? fun port => port.name = name).map OutputPort.id

lemma portOf?_declare (draft : Draft) {declaration : Declaration}
    (hnew : declaration.name ∉ draft.declarations.map Declaration.name) :
    (draft.declare declaration).portOf? = Function.update draft.portOf? declaration.name
      (some ⟨draft.declarations.length⟩) := by
  funext name
  rw [Function.update_apply, portOf?, portOf?, ports, ports, declare, List.mapIdx_concat,
    List.find?_append, Option.map_or]
  split
  · next heq =>
    have hnone : (draft.ports.find? fun port => port.name = name) = none := by
      refine List.find?_eq_none.mpr fun port hport hname => hnew ?_
      obtain ⟨i, hi, rfl⟩ := List.getElem_of_mem hport
      rw [ports, List.length_mapIdx] at hi
      simp only [ports, List.getElem_mapIdx, decide_eq_true_eq] at hname
      exact heq ▸ hname ▸ List.mem_map_of_mem (List.getElem_mem hi)
    rw [ports] at hnone
    rw [hnone, heq]
    simp
  · next hne => simp [Ne.symm hne]

/-- Entering declarations one by one yields the tables of all of them. -/
lemma reading_eq (hdistinct : (draft.declarations.map Declaration.name).Nodup) :
    draft.reading = ⟨.ofNodes draft.name (draft.declarations.mapIdx Declaration.bare),
      draft.portOf?, (draft.declarations.mapIdx Declaration.waiting).flatten⟩ := by
  obtain ⟨name, named, declarations⟩ := draft
  induction declarations using List.reverseRecOn with
  | nil => rfl
  | append_singleton declarations declaration ih =>
    rw [List.map_append, List.map_singleton, List.nodup_append] at hdistinct
    obtain ⟨hdistinct, -, hnew⟩ := hdistinct
    have hreading : (⟨name, named, declarations ++ [declaration]⟩ : Draft).reading =
        (⟨name, named, declarations⟩ : Draft).reading.declare declaration := by
      simp [reading]
    have hnames : (declare ⟨name, named, declarations⟩ declaration).portOf? = _ :=
      portOf?_declare _ fun hmem => hnew _ hmem _ (List.mem_singleton_self _) rfl
    rw [hreading, ih hdistinct, Reading.declare, Tables.ofNodes_enter, List.mapIdx_concat,
      List.mapIdx_concat, List.flatten_append, List.length_mapIdx, Reading.mk.injEq]
    refine ⟨rfl, ?_, ?_⟩
    · refine Eq.trans ?_ hnames.symm
      simp [Tables.ofNodes]
    · simp [Tables.ofNodes, Declaration.waiting]

end Draft

/-! ## Resolving -/

namespace Reading

variable {name : String} {before after : List Node} {node : Node} {draft : Draft}
variable {ranges : List PortRange} {rest : List Waiting}

/-- The other tables do not depend on what feeds a node. -/
lemma replace_ofNodes (inputs : List InputPort) :
    (Tables.ofNodes name (before ++ node :: after)).replace before.length
      { node.record with inputs } = .ofNodes name (before ++ { node with inputs } :: after) := by
  rw [Tables.replace, Tables.ofNodes, Tables.ofNodes, Tables.mk.injEq]
  refine ⟨rfl, ?_, by simp [Node.port], ?_, ?_⟩
  · rw [List.map_append, List.set_append_right _ _ (List.length_map Node.record).le,
      List.length_map, Nat.sub_self, List.map_cons, List.set_cons_zero, List.map_append,
      List.map_cons]
    rfl
  · cases hkind : node.kind <;> simp [hkind]
  · cases hkind : node.kind <;> simp [hkind]

/-- Appending the range of the next reference to the node that waits for it. -/
lemma append?_ofNodes (hinputs : node.inputs = node.kind.filled ranges)
    (hslot : node.kind.slot ranges.length < node.kind.inputNames.length) (range : PortRange) :
    (Tables.ofNodes name (before ++ node :: after)).append? ⟨before.length⟩
        (node.kind.slot ranges.length) range = some (.ofNodes name
      (before ++ { node with inputs := node.kind.filled (ranges ++ [range]) } :: after)) := by
  obtain ⟨port, hport, hset⟩ := NodeKind.filled_concat range hslot
  have hrecord : (Tables.ofNodes name (before ++ node :: after)).nodes[before.length]? =
      some node.record := by
    simp [Tables.ofNodes]
  have hinput : node.record.inputs[node.kind.slot ranges.length]? = some port := by
    rw [Node.record, hinputs, hport]
  have hfilled : node.record.inputs.set (node.kind.slot ranges.length)
      { port with elements := port.elements.push range } =
        node.kind.filled (ranges ++ [range]) := by
    rw [Node.record, hinputs, hset]
  rw [Tables.append?, hrecord, Option.bind_eq_bind, Option.bind_some, hinput, Option.bind_eq_bind,
    Option.bind_some, hfilled]
  exact congrArg some (replace_ofNodes _)

/-- A reference is resolved in place as it is among the ports: the port that a name stands for is
where the table of names says. -/
lemma resolve?_eq {tables : Tables} (hports : tables.ports = draft.ports) (waiting : Waiting) :
    resolve? draft.portOf? tables waiting =
      match Draft.resolve draft.ports waiting.line waiting.reference with
      | .error error => some (.error error)
      | .ok range => (tables.append? waiting.node waiting.input range).map .ok := by
  rw [resolve?, Draft.portOf?, Draft.resolve]
  cases hfind : draft.ports.find? fun port => port.name = waiting.reference.name with
  | none => rfl
  | some port =>
    obtain ⟨i, hi⟩ := List.getElem?_of_mem (List.mem_of_find?_eq_some hfind)
    have hget : tables.ports[port.id.index]? = some port := by
      rw [hports, Draft.id_of_getElem?_ports hi, hi]
    simp only [Option.map_some, hget, Option.bind_eq_bind, Option.bind_some, Reference.range]
    cases waiting.reference.window <;> exact Option.map_eq_bind.symm

variable {line : ℕ} {references : List Reference}

/-- Resolving the references of a node one by one fills its input ports. -/
lemma resolveAll?_node (hports : draft.ports = (before ++ node :: after).map Node.port)
    (hinputs : node.inputs = node.kind.filled ranges)
    (hfeeds : node.kind.Feeds (ranges.length + references.length)) :
    resolveAll? draft.portOf? (.ofNodes name (before ++ node :: after))
        ((references.mapIdx fun position reference => ⟨line, ⟨before.length⟩,
          node.kind.slot (ranges.length + position), reference⟩) ++ rest) =
      match references.mapM (Draft.resolve draft.ports line) with
      | .error error => some (.error error)
      | .ok added => resolveAll? draft.portOf? (.ofNodes name (before ++
          { node with inputs := node.kind.filled (ranges ++ added) } :: after)) rest := by
  -- `ranges` are those of the references that have been resolved already
  induction references generalizing node ranges with
  | nil =>
    rw [List.mapM_nil, List.mapIdx_nil, List.nil_append]
    simp only [pure, Except.pure, List.append_nil, ← hinputs]
  | cons reference references ih =>
    have hslot : node.kind.slot ranges.length < node.kind.inputNames.length := by
      have hcount := hfeeds.2
      rw [List.length_cons] at hcount
      have hsome : node.kind.inputNames.length ≠ 0 := fun hnone => by
        have := hfeeds.1.mp (List.length_eq_zero_iff.mp hnone)
        rw [List.length_cons] at this
        omega
      rw [NodeKind.slot]
      split <;> omega
    rw [List.mapIdx_cons, List.cons_append, resolveAll?, resolve?_eq hports.symm, List.mapM_cons]
    cases hrange : Draft.resolve draft.ports line reference with
    | error error => rfl
    | ok range =>
      simp only [Nat.add_zero, append?_ofNodes hinputs hslot, Option.map_some]
      have hports' : draft.ports = (before ++
          { node with inputs := node.kind.filled (ranges ++ [range]) } :: after).map Node.port := by
        rw [hports]
        simp [Node.port]
      have hfeeds' : node.kind.Feeds ((ranges ++ [range]).length + references.length) := by
        rw [List.length_append, List.length_singleton, Nat.add_assoc, Nat.add_comm 1]
        exact hfeeds
      have hrest := ih hports' rfl hfeeds'
      simp only [List.length_append, List.length_singleton, Nat.add_assoc, Nat.add_comm 1,
        List.append_assoc, List.singleton_append] at hrest
      rw [hrest]
      cases references.mapM (Draft.resolve draft.ports line) <;> rfl

/-- Resolving all references in place is resolving the declarations one after another. -/
lemma resolveAll?_declarations {declarations : List Declaration} {model : Model}
    (hports : draft.ports = (model.nodes.toList ++ declarations.mapIdx fun i declaration =>
      declaration.bare (model.nodes.size + i)).map Node.port)
    (hfeeds : ∀ declaration ∈ declarations, declaration.kind.Feeds declaration.references.length) :
    resolveAll? draft.portOf? (.ofNodes model.name (model.nodes.toList ++
        declarations.mapIdx fun i declaration => declaration.bare (model.nodes.size + i)))
        (declarations.mapIdx fun i declaration =>
          declaration.waiting (model.nodes.size + i)).flatten =
      some ((declarations.foldlM (Draft.addDeclared draft.ports) model).map Model.tables) := by
  induction declarations generalizing model with
  | nil =>
    rw [List.mapIdx_nil, List.mapIdx_nil, List.append_nil]
    rfl
  | cons declaration declarations ih =>
    obtain ⟨hfirst, hothers⟩ := List.forall_mem_cons.mp hfeeds
    -- the nodes behind the first one are there from the start, and wait for their own references
    set after := declarations.mapIdx fun i declaration =>
      declaration.bare (model.nodes.size + (i + 1)) with hafter
    rw [List.mapIdx_cons, Nat.add_zero, ← hafter] at hports ⊢
    rw [List.mapIdx_cons, List.flatten_cons, Nat.add_zero, List.foldlM_cons, Draft.addDeclared]
    have hwaiting : declaration.waiting model.nodes.size =
        declaration.references.mapIdx fun position reference => ⟨declaration.line,
          ⟨model.nodes.toList.length⟩, (declaration.bare model.nodes.size).kind.slot
            (([] : List PortRange).length + position), reference⟩ := by
      simp [Declaration.waiting, Declaration.bare]
    rw [hwaiting, resolveAll?_node hports rfl (by simpa [Declaration.bare] using hfirst)]
    cases hranges : declaration.references.mapM (Draft.resolve draft.ports declaration.line) with
    | error error => rfl
    | ok ranges =>
      have hlength := (Except.mapM_eq_ok.mp hranges).length_eq
      have hfilled := NodeKind.filled_eq_inputPorts (hlength ▸ hfirst)
      set next := model.push declaration.name declaration.kind
        (Draft.inputPorts declaration.kind ranges) declaration.elementType declaration.size
        with hnext
      have hnodes : next.nodes.toList = model.nodes.toList ++
          [{ declaration.bare model.nodes.size with
            inputs := (declaration.bare model.nodes.size).kind.filled ([] ++ ranges) }] := by
        simp [hnext, Declaration.bare, hfilled, Model.nextNode]
      have hsize : ∀ i, next.nodes.size + i = model.nodes.size + (i + 1) := fun i => by
        rw [hnext, Model.nodes_push, Array.size_push]
        omega
      have hports' : draft.ports = (next.nodes.toList ++ declarations.mapIdx fun i declaration =>
          declaration.bare (next.nodes.size + i)).map Node.port := by
        simp only [hsize, ← hafter, hnodes, List.append_assoc, List.singleton_append]
        rw [hports]
        simp [Node.port]
      have hrest := ih hports' hothers
      simp only [hsize, ← hafter, hnodes, List.append_assoc, List.singleton_append] at hrest
      exact hrest

end Reading

/-- Whatever has been read, no access by position misses, and the outcome is that of the draft. -/
theorem Draft.Sound.resolved_reading {draft : Draft} (h : draft.Sound) :
    draft.reading.resolved? = some (draft.toModel.map Model.tables) := by
  rw [Draft.reading_eq h.distinct, Reading.resolved?, Draft.toModel]
  have hports : draft.ports = ((Model.empty draft.name).nodes.toList ++
      draft.declarations.mapIdx fun i declaration =>
        declaration.bare ((Model.empty draft.name).nodes.size + i)).map Node.port := by
    simpa [Model.empty] using draft.ports_eq_bare
  have hall := Reading.resolveAll?_declarations hports fun declaration hmem =>
    (h.declarations declaration hmem).feeds
  simpa [Model.empty] using hall

end Dataflow
