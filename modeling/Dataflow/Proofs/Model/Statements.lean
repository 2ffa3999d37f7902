import Dataflow.Model.Printer
import Dataflow.Proofs.Model.Readable

/-!
# Reading statements back

The statement of a node that can be written is read as the declaration of this node
(`Node.Readable.scanStatement_run`).  A reference to a range is written in one of three ways, and
each of them is read as a reference that stands for the same range (`Reference.scan_run`,
`PortRange.Readable.resolve_reference`).
-/

namespace Dataflow

open Scan

variable {model : Model} {line rest : List Char}

/-! ## References -/

namespace Reference

variable {reference : Reference}

/-- A reference as it is written. -/
def text (reference : Reference) : String :=
  match reference.window with
  | none => reference.name
  | some (start, stop) =>
    if stop = start + 1 then s!"{reference.name}[{start}]"
    else s!"{reference.name}[{start}..{stop}]"

lemma toList_text_window (name : String) (start stop : ℕ) :
    (text ⟨name, some (start, stop)⟩).toList = name.toList ++ '[' :: (start.repr.toList ++
      if stop = start + 1 then [']'] else '.' :: '.' :: (stop.repr.toList ++ [']'])) := by
  rw [text]
  dsimp only
  split <;> simp [toString]

lemma scan_blank (line : List Char) : scan (' ' :: line) = scan line := rfl

lemma scan_run (h : reference.Sound) (hname : IsName reference.name)
    (hrest : Stops (fun c => c != ',') rest) :
    scan (reference.text.toList ++ rest) = .ok (reference, rest) := by
  obtain ⟨name, window⟩ := reference
  cases window with
  | none =>
    have hstops : Stops continuesName rest := by
      intro c hc
      obtain rfl : c = ',' := by simpa using hrest c hc
      decide +kernel
    have haccept : accept '[' rest = .ok (false, rest) := by
      cases rest with
      | nil => exact accept_nil '['
      | cons c others =>
        obtain rfl : c = ',' := by simpa using hrest c rfl
        exact accept_other (by decide) (by decide) others
    rw [scan, text, bind_run (hname.name_run hstops), bind_run haccept]
    rfl
  | some window =>
    obtain ⟨start, stop⟩ := window
    obtain ⟨hlt, hle⟩ := h (start, stop) rfl
    dsimp only at hlt hle
    have hclose : (do
        Scan.expect ']'
        if stop ≤ start then throw (.emptyRange start stop name)
        return ⟨name, some (start, stop)⟩ : Scan Reference) (']' :: rest) =
        .ok (⟨name, some (start, stop)⟩, rest) := by
      rw [bind_run (expect_run (by decide) rest), if_neg (not_le.mpr hlt)]
      rfl
    have hbracket : Stops continuesName ('[' :: (start.repr.toList ++
        (if stop = start + 1 then [']'] else '.' :: '.' :: (stop.repr.toList ++ [']'])) ++ rest)) :=
      .cons (by decide +kernel) _
    rw [toList_text_window, List.append_assoc, List.cons_append, scan,
      bind_run (hname.name_run hbracket), bind_run (accept_run (by decide) _), if_pos rfl,
      List.append_assoc]
    split
    · next hsingle =>
      have hstart : start ≠ Word.top := by omega
      rw [List.singleton_append,
        bind_run (index_run (by omega) (.cons (by decide) _)), bind_run (acceptDots_bracket rest),
        if_neg Bool.false_ne_true, if_neg hstart, ← hsingle]
      exact hclose
    · rw [List.cons_append, List.cons_append, List.append_assoc, List.singleton_append,
        bind_run (index_run (by omega) (.cons (by decide) _)), bind_run (acceptDots_run _),
        if_pos rfl, bind_run (index_run hle (.cons (by decide) _))]
      exact hclose

/-- References are read back as the operands of a node, just if its kind takes so many of them. -/
lemma scanOperands_run {kind : NodeKind} {references : List Reference} (hne : references ≠ [])
    (h : ∀ reference ∈ references, reference.Sound ∧ IsName reference.name) :
    scanOperands kind (' ' :: listed (fun reference => reference.text.toList) references) =
      if 1 < kind.inputNames.length ∧ references.length ≠ kind.inputNames.length then
        .error (.operandCount kind.name kind.inputNames.length references.length)
      else .ok (references, []) := by
  have hlist : separated scan
      (' ' :: listed (fun reference => reference.text.toList) references) =
        .ok (references, []) :=
    separated_run scan_blank hne
      (fun reference hmem rest hrest => scan_run (h reference hmem).1 (h reference hmem).2 hrest)
      (.inr rfl)
  rw [scanOperands, bind_run hlist]
  dsimp only
  split <;> rfl

end Reference

/-- A model whose nodes have names that can stand in a text. -/
def Model.Named (model : Model) : Prop := ∀ node ∈ model.nodes.toList, IsName node.name

instance : Decidable model.Named :=
  inferInstanceAs (Decidable (∀ node ∈ model.nodes.toList, IsName node.name))

lemma Model.Readable.named (h : model.Readable) : model.Named :=
  fun node hnode => (h.nodes node hnode).name

/-- The reference that a range is written as. -/
def Model.reference (model : Model) (range : PortRange) : Reference :=
  match model.port? range.port with
  | none => ⟨range.port.text, none⟩
  | some port =>
    if range.start = 0 ∧ range.length = port.size then ⟨port.name, none⟩
    else ⟨port.name, some (range.start, range.start + range.length)⟩

namespace PortRange.Readable

variable {range : PortRange}

lemma text_reference (h : range.Readable model) :
    (model.reference range).text = model.rangeText range := by
  obtain ⟨node, -, hport⟩ := h.exists_node
  rw [Model.reference, Model.rangeText, hport]
  dsimp only
  split
  · rfl
  · rw [Reference.text, h.stop_eq]
    dsimp only
    simp only [Nat.add_left_cancel_iff]

lemma sound_reference (h : range.Readable model) : (model.reference range).Sound := by
  obtain ⟨node, -, hport⟩ := h.exists_node
  rw [Model.reference, hport]
  dsimp only
  split
  · exact fun _ hwindow => (nomatch hwindow)
  · rintro _ ⟨⟩
    exact ⟨Nat.lt_add_of_pos_right (Nat.pos_of_ne_zero h.nonempty), h.word⟩

lemma isName_reference (hmodel : model.Named) (h : range.Readable model) :
    IsName (model.reference range).name := by
  obtain ⟨node, hnode, hport⟩ := h.exists_node
  have hname := hmodel node (Model.mem_nodes hnode)
  rw [Model.reference, hport]
  dsimp only
  split
  · exact hname
  · exact hname

/-- The reference that a range is written as stands for this range. -/
lemma resolve_reference (hmodel : model.Readable) (h : range.Readable model) (line : ℕ) :
    Draft.resolve (model.nodes.toList.map Node.port) line (model.reference range) = .ok range := by
  obtain ⟨node, hnode, hport⟩ := h.exists_node
  have hdistinct : ((model.nodes.toList.map Node.port).map OutputPort.name).Nodup := by
    rw [List.map_map]
    exact hmodel.distinct
  have hid : node.port.id = range.port := by
    obtain ⟨found, hfound, heq⟩ := Option.map_eq_some_iff.mp hport
    rw [← heq, hmodel.numbered.port_id hfound]
  refine (Draft.resolve_eq_ok hdistinct).mpr ⟨_, List.mem_map_of_mem (Model.mem_nodes hnode), ?_⟩
  rw [Model.reference, hport, Reference.range]
  dsimp only
  split
  · next hwhole =>
    refine ⟨rfl, ?_⟩
    rw [PortRange.whole, hid, ← hwhole.1, ← hwhole.2]
  · refine ⟨rfl, ?_⟩
    dsimp only
    rw [hid, Nat.add_sub_cancel_left]

end PortRange.Readable

/-! ## References of a node -/

namespace Model

variable {node : Node}

lemma referencesText_eq_nil (h : node.ranges = []) : (model.referencesText node).toList = [] := by
  rw [referencesText, h]
  rfl

/-- What is written behind the operation of a node. -/
lemma toList_referencesText (hne : node.ranges ≠ []) : (model.referencesText node).toList =
    ' ' :: listed (fun range => (model.rangeText range).toList) node.ranges := by
  have htext : model.referencesText node =
      " " ++ String.intercalate ", " (node.ranges.map model.rangeText) := by
    rw [referencesText]
    split
    · next hnil => exact absurd hnil hne
    · rfl
  rw [htext, String.toList_append, String.toList_intercalate, List.map_map, listed]
  rfl

lemma toList_referencesText_references (h : ∀ range ∈ node.ranges, range.Readable model)
    (hne : node.ranges ≠ []) : (model.referencesText node).toList =
      ' ' :: listed (fun reference => reference.text.toList) (node.ranges.map model.reference) := by
  have htexts : node.ranges.map (fun range => (model.rangeText range).toList) =
      (node.ranges.map model.reference).map fun reference => reference.text.toList := by
    rw [List.map_map]
    exact List.map_congr_left fun range hrange =>
      congrArg String.toList (h range hrange).text_reference.symm
  rw [toList_referencesText hne, listed, htexts, listed]

/-- The references of a node are read back as its operands, just if its kind takes so many. -/
lemma Named.scanOperands_run (hmodel : model.Named)
    (h : ∀ range ∈ node.ranges, range.Readable model)
    (hne : node.ranges ≠ []) :
    Reference.scanOperands node.kind (model.referencesText node).toList =
      if 1 < node.kind.inputNames.length ∧ node.ranges.length ≠ node.kind.inputNames.length then
        .error (.operandCount node.kind.name node.kind.inputNames.length node.ranges.length)
      else .ok (node.ranges.map model.reference, []) := by
  rw [toList_referencesText_references h hne,
    Reference.scanOperands_run (List.map_eq_nil_iff.not.mpr hne), List.length_map]
  intro reference hmem
  obtain ⟨range, hrange, rfl⟩ := List.mem_map.mp hmem
  exact ⟨(h range hrange).sound_reference, (h range hrange).isName_reference hmodel⟩

end Model

/-! ## Nodes -/

/-- The declaration that the statement of a node is read as. -/
def Model.declaration (model : Model) (line : ℕ) (node : Node) : Declaration :=
  ⟨line, node.name, node.elementType, node.size, node.kind, node.ranges.map model.reference⟩

/-- The name and the shape of a node as they are written. -/
def Node.shapeText (node : Node) : List Char :=
  node.name.toList ++ ':' :: ' ' :: (node.elementType.name.toList ++
    '[' :: (node.size.repr.toList ++ [']']))

lemma NodeKind.ofOperator?_name {kind : NodeKind} (h : kind ∈ operators) :
    ofOperator? kind.name = some kind := by
  have hall : ∀ kind ∈ operators, ofOperator? kind.name = some kind := by decide
  exact hall kind h

lemma ElementType.isName_name (elementType : ElementType) : IsName elementType.name := by
  cases elementType <;> exact isName_of_isAlpha (by simp [name]) (by simp [name])

namespace Node.Readable

variable {node : Node} {draft : Draft} (h : node.Readable model)

include h

lemma scanShape_run (hnew : node.name ∉ draft.declarations.map Declaration.name)
    (rest : List Char) : draft.scanShape (' ' :: (node.shapeText ++ rest)) =
      .ok ((node.name, node.elementType, node.size), rest) := by
  have hdeclares : draft.declares node.name = false := by
    refine Bool.eq_false_iff.mpr fun hdeclares => hnew ?_
    obtain ⟨declaration, hmem, hname⟩ := List.any_eq_true.mp hdeclares
    exact List.mem_map.mpr ⟨declaration, hmem, beq_iff_eq.mp hname⟩
  have hsize : node.size ≤ Word.top := h.size_le.trans (by decide)
  rw [Draft.scanShape, Node.shapeText, List.append_assoc]
  simp only [List.cons_append, List.append_assoc, List.nil_append]
  rw [bind_run ((name_blank _).trans (h.name.name_run (.cons (by decide +kernel) _))), hdeclares,
    if_neg Bool.false_ne_true, bind_run (expect_run (by decide) _),
    bind_run ((name_blank _).trans
      (node.elementType.isName_name.name_run (.cons (by decide +kernel) _))),
    ElementType.ofName?_name]
  dsimp only
  rw [bind_run (expect_run (by decide) _), bind_run (index_run hsize (.cons (by decide) _)),
    bind_run (expect_run (by decide) _), if_neg h.nonempty, if_neg (not_lt.mpr h.size_le)]
  rfl

lemma ranges_ne_nil (hkind : node.kind.inputNames ≠ []) : node.ranges ≠ [] :=
  fun hnil => hkind (h.feeds.1.mpr (congrArg List.length hnil))

variable (hmodel : model.Readable)

include hmodel

lemma scanOperands_run (hne : node.ranges ≠ []) :
    Reference.scanOperands node.kind (model.referencesText node).toList =
      .ok (node.ranges.map model.reference, []) := by
  rw [hmodel.named.scanOperands_run h.ranges hne]
  exact if_neg fun hand => hand.2 (h.feeds.2 hand.1)

end Node.Readable

/-! ## Statements -/

lemma NodeKind.eq_or_mem_operators (kind : NodeKind) :
    kind = .input ∨ kind = .output ∨ (∃ values, kind = .constant values) ∨ kind ∈ operators := by
  cases kind with
  | input => exact .inl rfl
  | output => exact .inr (.inl rfl)
  | constant values => exact .inr (.inr (.inl ⟨values, rfl⟩))
  | binary op | unary op | reduce op =>
    refine .inr (.inr (.inr ?_))
    cases op <;> simp [operators, BinaryOp.all, UnaryOp.all, ReduceOp.all]
  | dot | concat | accumulator => exact .inr (.inr (.inr (by simp [operators])))

lemma NodeKind.isName_name (kind : NodeKind) : IsName kind.name := by
  cases kind with
  | binary op | unary op | reduce op =>
    cases op <;>
      exact isName_of_isAlpha (by simp [name, BinaryOp.name, UnaryOp.name, ReduceOp.name])
      (by simp [name, BinaryOp.name, UnaryOp.name, ReduceOp.name])
  | _ => exact isName_of_isAlpha (by simp [name]) (by simp [name])

lemma NodeKind.name_of_mem_operators {kind : NodeKind} (h : kind ∈ operators) :
    kind.name ≠ "const" ∧ kind.name ≠ "output" := by
  have hall : ∀ kind ∈ operators, kind.name ≠ "const" ∧ kind.name ≠ "output" := by decide
  exact hall kind h

lemma NodeKind.scanOperation_run {kind : NodeKind} (h : kind ∈ operators)
    {references : List Reference}
    (hrest : Reference.scanOperands kind rest = .ok (references, []))
    (hstops : Stops continuesName rest) :
    Draft.scanOperation (' ' :: (kind.name.toList ++ rest)) = .ok ((kind, references), []) := by
  rw [Draft.scanOperation,
    bind_run ((name_blank _).trans (kind.isName_name.name_run hstops)),
    if_neg (name_of_mem_operators h).1, ofOperator?_name h]
  exact bind_run hrest

lemma NodeKind.scanOperation_constant {values : List Float} (hne : values ≠ []) :
    Draft.scanOperation (' ' :: ("const".toList ++ ' ' ::
      listed (fun v => (Number.text v).toList) values)) = .ok ((.constant values, []), []) := by
  have hconst : IsName "const" := isName_of_isAlpha (by simp) (by simp)
  have hvalues : separated Scan.number
      (' ' :: listed (fun v => (Number.text v).toList) values) = .ok (values, []) := by
    refine separated_run number_blank hne (fun v _ rest hrest => number_run v ?_) (.inr rfl)
    intro c hc
    obtain rfl : c = ',' := by simpa using hrest c hc
    rfl
  rw [Draft.scanOperation,
    bind_run ((name_blank _).trans (hconst.name_run (.cons (by decide +kernel) _))), if_pos rfl]
  exact bind_run hvalues

namespace Model

variable {node : Node}

lemma toList_nodeText_input (h : node.kind = .input) :
    (model.nodeText node).toList = "input".toList ++ ' ' :: node.shapeText := by
  rw [nodeText, h, Node.shapeText]
  simp [toString]

lemma toList_nodeText_output (h : node.kind = .output) : (model.nodeText node).toList =
    "output".toList ++ ' ' :: (node.shapeText ++ ' ' :: '=' ::
      (model.referencesText node).toList) := by
  rw [nodeText, h, Node.shapeText]
  simp [toString]

lemma toList_nodeText_constant {values : List Float} (h : node.kind = .constant values) :
    (model.nodeText node).toList = "node".toList ++ ' ' :: (node.shapeText ++ ' ' :: '=' :: ' ' ::
      ("const".toList ++ ' ' :: listed (fun v => (Number.text v).toList) values)) := by
  rw [nodeText, h, Node.shapeText]
  simp [toString, Number.textList, listed, Function.comp_def]

lemma toList_nodeText_operator (h : node.kind ∈ NodeKind.operators) :
    (model.nodeText node).toList = "node".toList ++ ' ' :: (node.shapeText ++ ' ' :: '=' :: ' ' ::
      (node.kind.name.toList ++ (model.referencesText node).toList)) := by
  rw [nodeText, Node.shapeText]
  cases hkind : node.kind with
  | input | constant => exact absurd (hkind ▸ rfl) (NodeKind.inputNames_ne_nil h)
  | output => exact absurd (hkind ▸ rfl) (NodeKind.name_of_mem_operators h).2
  | _ => simp [toString]

end Model

namespace Node.Readable

variable {node : Node} {draft : Draft} (h : node.Readable model) (hmodel : model.Readable)

include h hmodel

/-- The statement of a node is read as the declaration of the node. -/
theorem scanStatement_run (hnew : node.name ∉ draft.declarations.map Declaration.name)
    (number : ℕ) : draft.scanStatement number (model.nodeText node).toList =
      .ok (draft.declare (model.declaration number node), []) := by
  have hword : ∀ {word : String} (rest : List Char), IsName word →
      Scan.name (word.toList ++ ' ' :: rest) = .ok (word, ' ' :: rest) :=
    fun rest hname => hname.name_run (.cons (by decide +kernel) rest)
  rcases node.kind.eq_or_mem_operators with hkind | hkind | ⟨values, hkind⟩ | hkind
  · have hranges : node.ranges = [] := List.length_eq_zero_iff.mp (h.feeds.1.mp (hkind ▸ rfl))
    have hshape := h.scanShape_run hnew []
    rw [List.append_nil] at hshape
    rw [Model.toList_nodeText_input hkind, Draft.scanStatement,
      bind_run (hword _ (isName_of_isAlpha (by simp) (by simp)))]
    refine (bind_run hshape).trans ?_
    rw [Model.declaration, hkind, hranges]
    rfl
  · have hoperands := h.scanOperands_run hmodel (h.ranges_ne_nil (by rw [hkind]; decide))
    rw [hkind] at hoperands
    rw [Model.toList_nodeText_output hkind, Draft.scanStatement,
      bind_run (hword _ (isName_of_isAlpha (by simp) (by simp)))]
    refine (bind_run (h.scanShape_run hnew _)).trans ?_
    refine (bind_run ((expect_blank _ _).trans (expect_run (by decide) _))).trans ?_
    refine (bind_run hoperands).trans ?_
    rw [Model.declaration, hkind]
    rfl
  · have hranges : node.ranges = [] := List.length_eq_zero_iff.mp (h.feeds.1.mp (hkind ▸ rfl))
    rw [Model.toList_nodeText_constant hkind, Draft.scanStatement,
      bind_run (hword _ (isName_of_isAlpha (by simp) (by simp)))]
    refine (bind_run (h.scanShape_run hnew _)).trans ?_
    refine (bind_run ((expect_blank _ _).trans (expect_run (by decide) _))).trans ?_
    refine (bind_run (NodeKind.scanOperation_constant (h.values values hkind))).trans ?_
    rw [Model.declaration, hkind, hranges]
    rfl
  · have hne := h.ranges_ne_nil (NodeKind.inputNames_ne_nil hkind)
    have hstops : Stops continuesName (model.referencesText node).toList := by
      rw [Model.toList_referencesText hne]
      exact .cons (by decide +kernel) _
    have hoperation := NodeKind.scanOperation_run hkind (h.scanOperands_run hmodel hne) hstops
    rw [Model.toList_nodeText_operator hkind, Draft.scanStatement,
      bind_run (hword _ (isName_of_isAlpha (by simp) (by simp)))]
    refine (bind_run (h.scanShape_run hnew _)).trans ?_
    refine (bind_run ((expect_blank _ _).trans (expect_run (by decide) _))).trans ?_
    exact bind_run hoperation

end Node.Readable
end Dataflow
