import Dataflow.Proofs.Model.RoundTrip

/-!
# Statements that are accepted

The statement of a node, however it was made, is refused unless its port has elements and not too
many of them, and unless its references can be distributed over its input ports
(`Model.Named.accepted`).  A text is refused with a line and a fault (`Model.parse_eq_error`).
-/

namespace Dataflow

open Scan

variable {model : Model} {node : Node} {draft next : Draft} {line rest mid : List Char} {number : ℕ}

/-! ## Statements -/

/-- Nothing can be read of the shape of a node unless its size is that of a port. -/
lemma Node.size_of_scanShape (hname : IsName node.name) {shape : String × ElementType × ℕ}
    (h : draft.scanShape (' ' :: (node.shapeText ++ rest)) = .ok (shape, mid)) :
    node.size ≠ 0 ∧ node.size ≤ maxPortSize ∧ mid = rest := by
  rw [Draft.scanShape, Node.shapeText, List.append_assoc] at h
  simp only [List.cons_append, List.append_assoc, List.nil_append] at h
  rw [bind_run ((name_blank _).trans (hname.name_run (.cons (by decide +kernel) _)))] at h
  split at h
  · cases h
  rw [bind_run (expect_run (by decide) _), bind_run ((name_blank _).trans
      (node.elementType.isName_name.name_run (.cons (by decide +kernel) _))),
    ElementType.ofName?_name] at h
  dsimp only at h
  rw [bind_run (expect_run (by decide) _)] at h
  obtain ⟨count, mid', hindex, h⟩ := bind_eq_ok.mp h
  rw [index_eq _ (.cons (by decide) _)] at hindex
  split at hindex
  · cases hindex
    rw [bind_run (expect_run (by decide) _)] at h
    split at h
    · cases h
    · next hnonempty =>
      split at h
      · cases h
      · next hsize =>
        cases h
        exact ⟨hnonempty, not_lt.mp hsize, rfl⟩
  · cases hindex

/-- What comes after the shape of a node is read only if its size is that of a port. -/
lemma Node.shape_then (hname : IsName node.name) {α : Type} {answer : α × List Char}
    {next : String × ElementType × ℕ → Scan α}
    (h : (draft.scanShape >>= next) (' ' :: (node.shapeText ++ rest)) = .ok answer) :
    node.size ≠ 0 ∧ node.size ≤ maxPortSize ∧ ∃ shape, next shape rest = .ok answer := by
  obtain ⟨shape, mid, hshape, hnext⟩ := bind_eq_ok.mp h
  obtain ⟨hnonempty, hsize, rfl⟩ := Node.size_of_scanShape hname hshape
  exact ⟨hnonempty, hsize, shape, hnext⟩

/-- What has been found out when the statement of a node is accepted: its size is that of a port,
and if it has input ports, its references have been read. -/
lemma Node.accepted_of_scanStatement (hname : IsName node.name)
    (h : draft.scanStatement number (model.nodeText node).toList = .ok (next, rest)) :
    node.size ≠ 0 ∧ node.size ≤ maxPortSize ∧ (node.kind.inputNames ≠ [] → ∃ references mid,
      Reference.scanOperands node.kind (model.referencesText node).toList =
        .ok (references, mid)) := by
  have hword : ∀ {word : String} (rest : List Char), IsName word →
      Scan.name (word.toList ++ ' ' :: rest) = .ok (word, ' ' :: rest) :=
    fun rest hname => hname.name_run (.cons (by decide +kernel) rest)
  have hequals : ∀ rest, Scan.expect '=' (' ' :: '=' :: rest) = .ok ((), rest) :=
    fun rest => (expect_blank _ _).trans (expect_run (by decide) _)
  rcases node.kind.eq_or_mem_operators with hkind | hkind | ⟨values, hkind⟩ | hkind
  · rw [Model.toList_nodeText_input hkind, Draft.scanStatement,
      bind_run (hword _ (isName_of_isAlpha (by simp) (by simp))),
      ← List.append_nil node.shapeText] at h
    obtain ⟨hnonempty, hsize, -⟩ := Node.shape_then hname h
    exact ⟨hnonempty, hsize, fun hne => absurd (hkind ▸ rfl) hne⟩
  · rw [Model.toList_nodeText_output hkind, Draft.scanStatement,
      bind_run (hword _ (isName_of_isAlpha (by simp) (by simp)))] at h
    obtain ⟨hnonempty, hsize, shape, hrest⟩ := Node.shape_then hname h
    dsimp only at hrest
    rw [bind_run (hequals _)] at hrest
    obtain ⟨references, mid, hoperands, -⟩ := bind_eq_ok.mp hrest
    rw [hkind]
    exact ⟨hnonempty, hsize, fun _ => ⟨references, mid, hoperands⟩⟩
  · rw [Model.toList_nodeText_constant hkind, Draft.scanStatement,
      bind_run (hword _ (isName_of_isAlpha (by simp) (by simp)))] at h
    obtain ⟨hnonempty, hsize, -⟩ := Node.shape_then hname h
    exact ⟨hnonempty, hsize, fun hne => absurd (hkind ▸ rfl) hne⟩
  · rw [Model.toList_nodeText_operator hkind, Draft.scanStatement,
      bind_run (hword _ (isName_of_isAlpha (by simp) (by simp)))] at h
    obtain ⟨hnonempty, hsize, shape, hrest⟩ := Node.shape_then hname h
    dsimp only at hrest
    rw [bind_run (hequals _)] at hrest
    obtain ⟨operation, mid, hoperation, -⟩ := bind_eq_ok.mp hrest
    -- the name of the operator ends before its references, or with the line if there are none
    have hstops : Stops continuesName (model.referencesText node).toList := by
      by_cases hne : node.ranges = []
      · rw [Model.referencesText_eq_nil hne]
        exact .nil _
      · rw [Model.toList_referencesText hne]
        exact .cons (by decide +kernel) _
    rw [Draft.scanOperation,
      bind_run ((name_blank _).trans (node.kind.isName_name.name_run hstops)),
      if_neg (NodeKind.name_of_mem_operators hkind).1, NodeKind.ofOperator?_name hkind]
      at hoperation
    obtain ⟨references, mid, hoperands, -⟩ := bind_eq_ok.mp hoperation
    exact ⟨hnonempty, hsize, fun _ => ⟨references, mid, hoperands⟩⟩

/-! ## Texts -/

/-- Every line of a text that is accepted has been accepted. -/
lemma Draft.exists_readLine {lines : List (List Char)}
    (h : draft.readLines number lines = .ok next) (hline : line ∈ lines) :
    ∃ (draft : Draft) (number : ℕ) (next : Draft), draft.readLine number line = .ok next := by
  induction lines generalizing draft number with
  | nil => exact absurd hline List.not_mem_nil
  | cons first others ih =>
    obtain ⟨found, hfirst, hrest⟩ := Except.bind_eq_ok.mp h
    rcases List.mem_cons.mp hline with rfl | hmem
    · exact ⟨draft, number, found, Except.mapError_eq_ok.mp hfirst⟩
    · exact ih hrest hmem

namespace Model

/-- What the statements of a model tell when its text is accepted. -/
lemma Named.accepted (hmodel : model.Named) (hname : IsName model.name) {read : Model}
    (h : parse model.text = .ok read) (hnode : node ∈ model.nodes.toList) :
    node.size ≠ 0 ∧ node.size ≤ maxPortSize ∧ (node.kind.inputNames ≠ [] → ∃ references mid,
      Reference.scanOperands node.kind (model.referencesText node).toList =
        .ok (references, mid)) := by
  obtain ⟨draft, hlines, -⟩ := Except.bind_eq_ok.mp h
  rw [lines_text hname hmodel] at hlines
  have hline : (model.nodeText node).toList ∈ ("model".toList ++ ' ' :: model.name.toList) ::
      model.nodes.toList.map fun node => (model.nodeText node).toList :=
    List.mem_cons_of_mem _ (List.mem_map_of_mem hnode)
  obtain ⟨before, number, after, hread⟩ := Draft.exists_readLine hlines hline
  obtain ⟨word, others, hword, htext⟩ := model.exists_nodeText node
  rw [htext, Draft.readLine_word hword, ← htext] at hread
  obtain ⟨⟨found, rest⟩, hstatement, -⟩ := Except.bind_eq_ok.mp hread
  exact Node.accepted_of_scanStatement (hmodel node hnode) hstatement

end Model

/-! ## Errors -/

/-- The error of a text names a line and a fault. -/
def ModelError.InText (e : ModelError) : Prop := ∃ line fault, e = .parse line fault

lemma Draft.readLines_eq_error {lines : List (List Char)} {e : ModelError}
    (h : draft.readLines number lines = .error e) : e.InText := by
  induction lines generalizing draft number with
  | nil => cases h
  | cons first others ih =>
    rcases Except.bind_eq_error.mp h with hfirst | ⟨found, -, hrest⟩
    · obtain ⟨fault, -, rfl⟩ := Except.mapError_eq_error.mp hfirst
      exact ⟨number, fault, rfl⟩
    · exact ih hrest

lemma Draft.resolve_eq_error {ports : List OutputPort} {number : ℕ} {reference : Reference}
    {e : ModelError} (h : resolve ports number reference = .error e) : e.InText := by
  rw [resolve] at h
  split at h
  · cases h
  · exact ⟨number, _, (Except.error.inj h).symm⟩

lemma Draft.addDeclared_eq_error {ports : List OutputPort} {declaration : Declaration}
    {e : ModelError} (h : addDeclared ports model declaration = .error e) : e.InText := by
  rcases Except.bind_eq_error.mp h with hranges | ⟨ranges, -, hpush⟩
  · obtain ⟨reference, -, hreference⟩ := Except.exists_of_mapM_eq_error hranges
    exact resolve_eq_error hreference
  · cases hpush

lemma Draft.toModel_eq_error {e : ModelError} (h : draft.toModel = .error e) : e.InText := by
  have hfold : ∀ (declarations : List Declaration) (model : Model),
      declarations.foldlM (addDeclared draft.ports) model = .error e → e.InText := by
    intro declarations
    induction declarations with
    | nil => exact fun _ h => (nomatch h)
    | cons declaration rest ih =>
      intro model h
      rw [List.foldlM_cons] at h
      rcases Except.bind_eq_error.mp h with hfirst | ⟨next, -, hrest⟩
      · exact addDeclared_eq_error hfirst
      · exact ih next hrest
  exact hfold _ _ h

lemma Model.parse_eq_error {text : String} {e : ModelError} (h : parse text = .error e) :
    e.InText := by
  rcases Except.bind_eq_error.mp h with hlines | ⟨draft, -, hmodel⟩
  · exact Draft.readLines_eq_error hlines
  · exact Draft.toModel_eq_error hmodel

end Dataflow
