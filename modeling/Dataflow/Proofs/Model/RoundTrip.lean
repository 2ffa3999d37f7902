import Dataflow.Proofs.Model.Statements

/-!
# Models and their texts

The text of a model that has been read from a text is read as the same model
(`Model.parse_text_of_parse`).  Its lines are the statements of the nodes, each of which is read as
the declaration of its node (`Model.Readable.readLines_run`), and together the declarations describe
the model (`Model.Readable.describes`).
-/

namespace Dataflow

/-! ## Lines -/

namespace Text

/-- A piece of a line, without line ends. -/
def Plain (line : List Char) : Prop := ∀ c ∈ line, c ≠ '\n' ∧ c ≠ '\r'

lemma lines_cons {c : Char} {rest line : List Char} {others : List (List Char)} (hc : c ≠ '\n')
    (hc' : c ≠ '\r') (h : lines rest = line :: others) :
    lines (c :: rest) = (c :: line) :: others := by
  rw [lines, h]
  · exact hc
  · rintro _ rfl
    exact absurd rfl hc'

lemma lines_append {line : List Char} (h : Plain line) (rest : List Char) :
    lines (line ++ '\n' :: rest) = line :: lines rest := by
  induction line with
  | nil => exact lines_lineFeed rest
  | cons c line ih =>
    obtain ⟨⟨hc, hc'⟩, hline⟩ := List.forall_mem_cons.mp h
    exact lines_cons hc hc' (ih hline)

lemma lines_flatMap {α : Type} {line : α → List Char} {items : List α}
    (h : ∀ a ∈ items, Plain (line a)) :
    lines (items.flatMap fun a => line a ++ ['\n']) = items.map line := by
  induction items with
  | nil => exact lines_nil
  | cons a items ih =>
    obtain ⟨ha, hitems⟩ := List.forall_mem_cons.mp h
    rw [List.flatMap_cons, List.append_assoc, List.singleton_append, lines_append ha, ih hitems,
      List.map_cons]

lemma Plain.append {line rest : List Char} (hline : Plain line) (hrest : Plain rest) :
    Plain (line ++ rest) := List.forall_mem_append.mpr ⟨hline, hrest⟩

lemma Plain.nil : Plain [] := fun _ hc => absurd hc List.not_mem_nil

lemma Plain.cons {c : Char} {rest : List Char} (hc : c ≠ '\n' ∧ c ≠ '\r') (hrest : Plain rest) :
    Plain (c :: rest) := List.forall_mem_cons.mpr ⟨hc, hrest⟩

lemma plain_repr (n : ℕ) : Plain n.repr.toList := by
  intro c hc
  rw [Nat.toList_repr] at hc
  have hdigit : c.isDigit = true := Nat.isDigit_of_mem_toDigits (by decide) (by decide) hc
  constructor <;> (rintro rfl; cases hdigit)

lemma plain_text (v : Float) : Plain (Number.text v).toList := by
  intro c hc
  rcases Number.mem_text hc with halphanum | rfl | rfl
  · constructor <;> (rintro rfl; cases halphanum)
  · decide
  · decide

lemma Plain.listed {α : Type} {word : α → List Char} {items : List α}
    (h : ∀ a ∈ items, Plain (word a)) : Plain (Scan.listed word items) := by
  induction items with
  | nil => exact .nil
  | cons a others ih =>
    obtain ⟨ha, hothers⟩ := List.forall_mem_cons.mp h
    cases others with
    | nil => rwa [Scan.listed, List.map_singleton, List.intercalate_singleton]
    | cons b others =>
      rw [Scan.listed_cons_cons]
      exact ha.append (.cons (by decide) (.cons (by decide) (ih hothers)))

end Text

open Text (Plain)

lemma Scan.IsName.plain {name : String} (h : IsName name) : Plain name.toList := by
  have hfeed : continuesName '\n' = false := by decide +kernel
  have hreturn : continuesName '\r' = false := by decide +kernel
  intro c hc
  have hclass := h.all c hc
  constructor
  · rintro rfl
    exact absurd hclass (Bool.eq_false_iff.mp hfeed)
  · rintro rfl
    exact absurd hclass (Bool.eq_false_iff.mp hreturn)

lemma Scan.IsName.exists_cons {name : String} (h : IsName name) :
    ∃ c rest, name.toList = c :: rest ∧ startsName c = true := by
  have hfirst := h.first
  cases hname : name.toList with
  | nil =>
    rw [hname] at hfirst
    cases hfirst
  | cons c rest =>
    rw [hname] at hfirst
    exact ⟨c, rest, rfl, hfirst⟩

lemma Node.plain_shapeText {node : Node} (h : Scan.IsName node.name) : Plain node.shapeText := by
  have hbracket : Plain [']'] := .cons (by decide) .nil
  exact h.plain.append (.cons (by decide) (.cons (by decide)
    (node.elementType.isName_name.plain.append (.cons (by decide)
      ((Text.plain_repr _).append hbracket)))))

namespace Model.Named

variable {model : Model} {node : Node} (hmodel : model.Named)

include hmodel

/-- A range is written on one line, whatever it is. -/
lemma plain_rangeText (range : PortRange) : Plain (model.rangeText range).toList := by
  have hbracket : Plain [']'] := .cons (by decide) .nil
  rw [rangeText]
  cases hport : model.port? range.port with
  | none =>
    have htext : range.port.text.toList = 'p' :: range.port.index.repr.toList := by
      simp [PortId.text, toString]
    exact htext ▸ .cons (by decide) (Text.plain_repr _)
  | some port =>
    obtain ⟨node, hnode, rfl⟩ := Option.map_eq_some_iff.mp hport
    have hname : Plain node.port.name.toList := (hmodel node (mem_nodes hnode)).plain
    dsimp only
    split
    · exact hname
    · split
      · have htext : (s!"{node.port.name}[{range.start}]").toList =
            node.port.name.toList ++ '[' :: (range.start.repr.toList ++ [']']) := by
          simp [toString]
        exact htext ▸ hname.append (.cons (by decide) ((Text.plain_repr _).append hbracket))
      · have htext : (s!"{node.port.name}[{range.start}..{range.stop}]").toList =
            node.port.name.toList ++ '[' :: (range.start.repr.toList ++
              '.' :: '.' :: (range.stop.repr.toList ++ [']'])) := by
          simp [toString]
        exact htext ▸ hname.append (.cons (by decide) ((Text.plain_repr _).append
          (.cons (by decide) (.cons (by decide) ((Text.plain_repr _).append hbracket)))))

lemma plain_referencesText (node : Node) : Plain (model.referencesText node).toList := by
  by_cases hne : node.ranges = []
  · rw [referencesText_eq_nil hne]
    exact .nil
  · rw [toList_referencesText hne]
    exact .cons (by decide) (.listed fun range _ => hmodel.plain_rangeText range)

/-- The statement of a node stands on one line. -/
lemma plain_nodeText (hnode : node ∈ model.nodes.toList) : Plain (model.nodeText node).toList := by
  have hshape : Plain node.shapeText := Node.plain_shapeText (hmodel node hnode)
  have hreferences : Plain (model.referencesText node).toList := hmodel.plain_referencesText node
  have hword : ∀ {word : String} {rest : List Char}, Scan.IsName word → Plain rest →
      Plain (word.toList ++ ' ' :: rest) :=
    fun hname hrest => hname.plain.append (.cons (by decide) hrest)
  have hequals : ∀ {rest : List Char}, Plain rest → Plain (' ' :: '=' :: rest) :=
    fun hrest => .cons (by decide) (.cons (by decide) hrest)
  rcases node.kind.eq_or_mem_operators with hkind | hkind | ⟨values, hkind⟩ | hkind
  · rw [toList_nodeText_input hkind]
    exact hword (Scan.isName_of_isAlpha (by simp) (by simp)) hshape
  · rw [toList_nodeText_output hkind]
    exact hword (Scan.isName_of_isAlpha (by simp) (by simp)) (hshape.append (hequals hreferences))
  · rw [toList_nodeText_constant hkind]
    refine hword (Scan.isName_of_isAlpha (by simp) (by simp)) (hshape.append
      (hequals (.cons (by decide) (hword (Scan.isName_of_isAlpha (by simp) (by simp)) ?_))))
    exact .listed fun v _ => Text.plain_text v
  · rw [toList_nodeText_operator hkind]
    exact hword (Scan.isName_of_isAlpha (by simp) (by simp)) (hshape.append
      (hequals (.cons (by decide) (node.kind.isName_name.plain.append hreferences))))

end Model.Named

/-! ## Reading the lines -/

namespace Draft

variable {draft next : Draft}

/-- A line that begins with a name is read as a statement. -/
lemma readLine_word {number : ℕ} {word : String} (hword : Scan.IsName word) (rest : List Char) :
    draft.readLine number (word.toList ++ rest) = (do
      let (draft, rest) ← (draft.scanStatement number).run (word.toList ++ rest)
      let rest := rest.dropWhile Text.isBlank
      if Scan.atEnd rest then .ok draft else .error (.trailingInput (String.ofList rest))) := by
  obtain ⟨c, others, hcons, hstarts⟩ := hword.exists_cons
  have hblank : ¬ Text.isBlank c = true := by
    rw [Scan.isBlank_of_startsName hstarts]
    exact Bool.false_ne_true
  have hmark : (c == ';') = false := by
    rw [beq_eq_false_iff_ne]
    rintro rfl
    exact absurd hstarts (by decide +kernel)
  have hdrop : (word.toList ++ rest).dropWhile Text.isBlank = word.toList ++ rest := by
    rw [hcons, List.cons_append, List.dropWhile_cons_of_neg hblank]
  have hend : Scan.atEnd (word.toList ++ rest) = false := by
    rw [hcons]
    exact hmark
  rw [readLine, hdrop, hend, if_neg Bool.false_ne_true]

lemma readLine_run {number : ℕ} {word : String} (hword : Scan.IsName word) {rest : List Char}
    (h : draft.scanStatement number (word.toList ++ rest) = .ok (next, [])) :
    draft.readLine number (word.toList ++ rest) = .ok next := by
  rw [readLine_word hword]
  exact Except.bind_eq_ok.mpr ⟨_, h, rfl⟩

/-- The first line of the text of a model. -/
lemma readLine_model {name : String} (hname : Scan.IsName name) :
    Draft.empty.readLine 1 ("model".toList ++ ' ' :: name.toList) = .ok ⟨name, true, []⟩ := by
  have hword : Scan.IsName "model" := Scan.isName_of_isAlpha (by simp) (by simp)
  have hrun : Scan.name (name.toList ++ []) = .ok (name, []) := hname.name_run (.nil _)
  rw [List.append_nil] at hrun
  refine readLine_run hword ?_
  rw [scanStatement, Scan.bind_run (hword.name_run (.cons (by decide +kernel) _))]
  exact Scan.bind_run ((Scan.name_blank _).trans hrun)

end Draft

namespace Model

variable {model : Model}

lemma exists_nodeText (node : Node) :
    ∃ word rest, Scan.IsName word ∧ (model.nodeText node).toList = word.toList ++ rest := by
  rcases node.kind.eq_or_mem_operators with hkind | hkind | ⟨values, hkind⟩ | hkind
  · exact ⟨_, _, Scan.isName_of_isAlpha (by simp) (by simp), toList_nodeText_input hkind⟩
  · exact ⟨_, _, Scan.isName_of_isAlpha (by simp) (by simp), toList_nodeText_output hkind⟩
  · exact ⟨_, _, Scan.isName_of_isAlpha (by simp) (by simp), toList_nodeText_constant hkind⟩
  · exact ⟨_, _, Scan.isName_of_isAlpha (by simp) (by simp), toList_nodeText_operator hkind⟩

lemma toList_text (model : Model) : model.text.toList =
    ("model".toList ++ ' ' :: model.name.toList) ++ '\n' ::
      model.nodes.toList.flatMap fun node => (model.nodeText node).toList ++ ['\n'] := by
  rw [text, String.toList_append]
  simp [toString, List.flatMap_map]

/-- The text of a model has a line for its name and one for each node. -/
lemma lines_text (hname : Scan.IsName model.name) (hmodel : model.Named) :
    Text.lines model.text.toList = ("model".toList ++ ' ' :: model.name.toList) ::
      model.nodes.toList.map fun node => (model.nodeText node).toList := by
  have hplain : Plain ("model".toList ++ ' ' :: model.name.toList) :=
    (Scan.isName_of_isAlpha (by simp) (by simp) : Scan.IsName "model").plain.append
      (.cons (by decide) hname.plain)
  rw [toList_text, Text.lines_append hplain, Text.lines_flatMap]
  exact fun node hnode => hmodel.plain_nodeText hnode

/-- The declarations that the statements of nodes are read as, if the first of them stands on a
given line. -/
def declarations (model : Model) : ℕ → List Node → List Declaration
  | _, [] => []
  | number, node :: rest => model.declaration number node :: model.declarations (number + 1) rest

variable (hmodel : model.Readable)

include hmodel

/-- The statements of nodes are read one after another. -/
lemma Readable.readLines_run {nodes : List Node}
    (hnodes : ∀ node ∈ nodes, node ∈ model.nodes.toList)
    {draft : Draft} (hdistinct : ((draft.declarations.map Declaration.name) ++
      nodes.map Node.name).Nodup) (number : ℕ) :
    draft.readLines number (nodes.map fun node => (model.nodeText node).toList) =
      .ok { draft with declarations := draft.declarations ++ model.declarations number nodes } := by
  induction nodes generalizing draft number with
  | nil =>
    rw [declarations, List.append_nil]
    rfl
  | cons node rest ih =>
    obtain ⟨hnode, hrest⟩ := List.forall_mem_cons.mp hnodes
    obtain ⟨-, hafter, hapart⟩ := List.nodup_append.mp hdistinct
    have hnew : node.name ∉ draft.declarations.map Declaration.name :=
      fun hold => hapart _ hold _ List.mem_cons_self rfl
    have hstatement := (hmodel.nodes node hnode).scanStatement_run hmodel hnew number
    obtain ⟨word, others, hword, htext⟩ := model.exists_nodeText node
    have hline : draft.readLine number (model.nodeText node).toList =
        .ok (draft.declare (model.declaration number node)) := by
      rw [htext] at hstatement ⊢
      exact Draft.readLine_run hword hstatement
    have hdistinct' : (((draft.declare (model.declaration number node)).declarations.map
        Declaration.name) ++ rest.map Node.name).Nodup := by
      rw [Draft.declare, List.map_append, List.append_assoc]
      exact hdistinct
    rw [List.map_cons, Draft.readLines, hline]
    refine (ih hrest hdistinct' (number + 1)).trans ?_
    rw [Draft.declare, List.append_assoc, List.singleton_append]
    rfl

/-- The declarations of the nodes describe them. -/
lemma Readable.describes {nodes : List Node} (hnodes : ∀ node ∈ nodes, node ∈ model.nodes.toList)
    (number : ℕ) : List.Forall₂ (Declaration.Describes (model.nodes.toList.map Node.port))
      (model.declarations number nodes) nodes := by
  induction nodes generalizing number with
  | nil => exact .nil
  | cons node rest ih =>
    obtain ⟨hnode, hrest⟩ := List.forall_mem_cons.mp hnodes
    have hreadable := hmodel.nodes node hnode
    refine .cons ⟨rfl, rfl, rfl, rfl, node.ranges, ?_, hreadable.inputs⟩ (ih hrest (number + 1))
    rw [declaration, List.forall₂_map_left_iff, List.forall₂_same]
    exact fun range hrange => (hreadable.ranges range hrange).resolve_reference hmodel number

/-- A model that can be written as a text is what its text is read as. -/
theorem Readable.parse_text : parse model.text = .ok model := by
  have hnodes : Draft.readLines ⟨model.name, true, []⟩ 2
      (model.nodes.toList.map fun node => (model.nodeText node).toList) =
      .ok ⟨model.name, true, model.declarations 2 model.nodes.toList⟩ := by
    refine hmodel.readLines_run (fun _ hnode => hnode) ?_ 2
    exact hmodel.distinct
  refine Except.bind_eq_ok.mpr ⟨⟨model.name, true, model.declarations 2 model.nodes.toList⟩, ?_, ?_⟩
  · rw [lines_text hmodel.name hmodel.named, Draft.readLines, Draft.readLine_model hmodel.name]
    exact hnodes
  · have hdescribes : List.Forall₂ _ (model.declarations 2 model.nodes.toList)
        model.nodes.toList := hmodel.describes (fun _ hnode => hnode) 2
    refine Draft.toModel_eq_ok.mpr ⟨hmodel.numbered, rfl, ?_⟩
    rwa [Draft.ports_eq hmodel.numbered hdescribes]

end Model

namespace Model

/-- **Texts of models are read back.**  The text of a model that has been read from any text is read
as the same model, so writing what has been read from a written text gives the same text again. -/
theorem parse_text_of_parse {model : Model} {text : String} (h : parse text = .ok model) :
    parse model.text = .ok model ∧ (parse model.text).map Model.text = .ok model.text := by
  have hread := (readable_of_parse h).parse_text
  exact ⟨hread, by rw [hread]; rfl⟩

/-- A text with a forward reference, a range that ends at the largest word, a constant that is no
number and names that are keywords. -/
def sampleText : String :=
  "input x: real[2] ; two\n\n" ++
    " node model: int[1] = sum output, x [18446744073709551613..18446744073709551615]\r\n" ++
    "node input :bool[2]=const NaN,-0.10\noutput output: real[3] = x, model[0]"

theorem parse_text_of_parse_sampleText : ∃ model, parse sampleText = .ok model ∧
    parse model.text = .ok model ∧ (parse model.text).map Model.text = .ok model.text := by
  have hread : (parse sampleText).isOk = true := by decide +kernel
  cases hparse : parse sampleText with
  | error fault =>
    rw [hparse] at hread
    cases hread
  | ok model => exact ⟨model, rfl, parse_text_of_parse hparse⟩

end Model
end Dataflow
