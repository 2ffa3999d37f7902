import Dataflow.Proofs.Model.Endings

/-!
# Comments and blank lines

A text is dressed by writing blank lines and lines with a comment between its lines, blanks around
them and comments behind them (`Text.Dresses`).  Dressing a text does not change the model that is
read of it, and an error moves along with the line it is reported for (`Model.parse_dressed`).

The two texts are read side by side.  Their drafts differ in nothing but the lines on which the
declarations stand (`Draft.Moved`), which matters for an error that is found when the references are
resolved.  What a text is divided into at the line feeds are not quite its lines: a carriage return
before a line feed is dropped, and so is what follows the last line feed if it is empty.  That too
makes no difference to what is read (`Text.Breaks`).
-/

namespace Dataflow

open Scan

/-! ## Dressed texts -/

namespace Text

/-- The second line is the first one with blanks around it and a comment behind it.  A carriage
return that ends the line may stay at the end. -/
def Dressed (line line' : List Char) : Prop :=
  ∃ content lineEnd before after comment : List Char,
    line = content ++ lineEnd ∧ line' = before ++ content ++ after ++ comment ++ lineEnd ∧
      (lineEnd = [] ∨ lineEnd = ['\r']) ∧ (∀ c ∈ before, isBlank c = true) ∧
      (∀ c ∈ after, isBlank c = true) ∧ (comment = [] ∨ ∃ rest, comment = ';' :: rest)

/-- The second list of lines is the first one, each of its lines dressed, with empty lines in
between, dressed as well.  The number is that of the first line of the second list, and the third
list says which lines of the second list, by their numbers, the lines of the first one have
become. -/
inductive Dresses : ℕ → List (List Char) → List (List Char) → List ℕ → Prop
  /-- Nothing. -/
  | nil (number : ℕ) : Dresses number [] [] []
  /-- A line is inserted. -/
  | insert {number : ℕ} {line' : List Char} {lines lines' : List (List Char)} {places : List ℕ} :
      Dressed [] line' → Dresses (number + 1) lines lines' places →
        Dresses number lines (line' :: lines') places
  /-- A line is dressed. -/
  | line {number : ℕ} {line line' : List Char} {lines lines' : List (List Char)}
      {places : List ℕ} :
      Dressed line line' → Dresses (number + 1) lines lines' places →
        Dresses number (line :: lines) (line' :: lines') (number :: places)

/-- Lines that are read alike. -/
def Same (line line' : List Char) : Prop :=
  Alike (line.dropWhile isBlank) (line'.dropWhile isBlank)

variable {line line' : List Char} {lines lines' : List (List Char)} {number number' : ℕ}
  {R : ℕ → ℕ → Prop}

lemma Dressed.same (h : Dressed line line') : Same line line' := by
  obtain ⟨content, lineEnd, before, after, comment, rfl, rfl, hend, hbefore, hafter, hcomment⟩ := h
  -- behind the content both lines are inert
  have hinert : Inert lineEnd := by
    rcases hend with rfl | rfl
    · exact .nil
    · decide
  have hinert' : Inert (after ++ (comment ++ lineEnd)) := by
    rw [inert_append_blanks hafter]
    rcases hcomment with rfl | ⟨rest, rfl⟩
    · exact hinert
    · exact .comment _
  rw [Same, List.append_assoc, List.append_assoc, List.append_assoc,
    List.dropWhile_append_of_pos hbefore]
  exact (Alike.append hinert hinert' content).dropWhile

lemma Dressed.inert (h : Dressed [] line') : Inert line' := by
  have hend := h.same.atEnd_eq
  simp only [List.dropWhile_idempotent] at hend
  exact hend.symm

/-- The second list of lines is the first one, with inert lines in between and other lines that are
read alike.  The numbers are those of the first lines, and the relation holds between the number of
a line and the number of the line that has taken its place. -/
inductive Spreads (R : ℕ → ℕ → Prop) :
    ℕ → ℕ → List (List Char) → List (List Char) → Prop
  /-- Nothing. -/
  | nil (number number' : ℕ) : Spreads R number number' [] []
  /-- A line is inserted. -/
  | insert {number number' : ℕ} {line' : List Char} {lines lines' : List (List Char)} :
      Inert line' → Spreads R number (number' + 1) lines lines' →
        Spreads R number number' lines (line' :: lines')
  /-- A line takes the place of another one. -/
  | line {number number' : ℕ} {line line' : List Char} {lines lines' : List (List Char)} :
      Same line line' → R number number' → Spreads R (number + 1) (number' + 1) lines lines' →
        Spreads R number number' (line :: lines) (line' :: lines')

lemma Dresses.spreads {places : List ℕ} (h : Dresses number' lines lines' places)
    (hplaces : ∀ i place, places[i]? = some place → R (number + i) place) :
    Spreads R number number' lines lines' := by
  induction h generalizing number with
  | nil => exact .nil _ _
  | insert hline _ ih => exact .insert hline.inert (ih hplaces)
  | line hline _ ih =>
    refine .line hline.same (hplaces 0 _ rfl) (ih fun i place hi => ?_)
    rw [Nat.add_assoc, Nat.add_comm 1 i]
    exact hplaces (i + 1) place hi

/-! ## Line ends -/

/-- The lines of a text and the pieces between its line feeds. -/
inductive Breaks : List (List Char) → List (List Char) → Prop
  /-- What follows the last line feed is empty. -/
  | none : Breaks [] [[]]
  /-- What follows the last line feed is a line. -/
  | last (line : List Char) : Breaks [line] [line]
  /-- A line that ends with a line feed. -/
  | cons {line piece : List Char} {lines pieces : List (List Char)} :
      Alike line piece → Breaks lines pieces → Breaks (line :: lines) (piece :: pieces)

lemma splitOn_lineFeed (rest : List Char) :
    ('\n' :: rest).splitOn '\n' = [] :: rest.splitOn '\n' := by
  rw [List.splitOn_cons_eq_if_modifyHead, beq_self_eq_true, if_pos rfl]

lemma splitOn_cons {c : Char} {rest piece : List Char} {pieces : List (List Char)} (hc : c ≠ '\n')
    (h : rest.splitOn '\n' = piece :: pieces) :
    (c :: rest).splitOn '\n' = (c :: piece) :: pieces := by
  rw [List.splitOn_cons_eq_if_modifyHead, beq_false_of_ne hc, if_neg Bool.false_ne_true, h,
    List.modifyHead_cons]

lemma breaks_lines (text : List Char) : Breaks (Text.lines text) (text.splitOn '\n') := by
  fun_induction Text.lines text with
  | case1 => exact .none
  | case2 rest ih =>
    rw [splitOn_lineFeed]
    exact .cons (.refl []) ih
  | case3 rest ih =>
    rw [splitOn_cons (by decide) (splitOn_lineFeed rest)]
    exact .cons (.inert .nil rfl) ih
  | case4 c rest hc _ hnil _ =>
    obtain rfl : rest = [] := by_contra fun hne => lines_ne_nil hne hnil
    rw [splitOn_cons hc (List.splitOn_nil '\n')]
    exact .last [c]
  | case5 c rest hc _ line others hlines ih =>
    -- the character goes in front of the first line and of the first piece
    rw [hlines] at ih
    generalize hpieces : rest.splitOn '\n' = pieces at ih
    cases ih with
    | last =>
      rw [splitOn_cons hc hpieces]
      exact .last (c :: line)
    | cons hline hothers =>
      rw [splitOn_cons hc hpieces]
      exact .cons (.cons c hline) hothers

lemma Breaks.spreads {pieces : List (List Char)} (h : Breaks lines pieces) (number : ℕ) :
    Spreads Eq number number lines pieces := by
  induction h generalizing number with
  | none => exact .insert .nil (.nil _ _)
  | last line => exact .line (.refl _) rfl (.nil _ _)
  | cons hline _ ih => exact .line hline.dropWhile rfl (ih (number + 1))

end Text

/-! ## Drafts -/

variable {R : ℕ → ℕ → Prop} {draft draft' : Draft} {number number' : ℕ} {line line' : List Char}
  {lines lines' : List (List Char)}

/-- Two declarations that say the same, on lines that belong together. -/
structure Declaration.Moved (R : ℕ → ℕ → Prop) (declaration declaration' : Declaration) : Prop where
  line : R declaration.line declaration'.line
  same : declaration' = { declaration with line := declaration'.line }

/-- Two drafts that differ in the lines of their declarations only. -/
structure Draft.Moved (R : ℕ → ℕ → Prop) (draft draft' : Draft) : Prop where
  name : draft'.name = draft.name
  named : draft'.named = draft.named
  declarations : List.Forall₂ (Declaration.Moved R) draft.declarations draft'.declarations

/-- Two errors in a text, on lines that belong together. -/
def ModelError.Moved (R : ℕ → ℕ → Prop) (e e' : ModelError) : Prop :=
  ∃ number fault number' fault', e = .parse number fault ∧ e' = .parse number' fault' ∧
    R number number'

namespace Draft.Moved

lemma declares (h : draft.Moved R draft') : draft'.declares = draft.declares := by
  funext name
  rw [Draft.declares, Draft.declares]
  have hdeclarations := h.declarations
  generalize draft.declarations = declarations at hdeclarations
  generalize draft'.declarations = declarations' at hdeclarations
  induction hdeclarations with
  | nil => rfl
  | cons hdeclaration _ ih => rw [List.any_cons, List.any_cons, hdeclaration.same, ih]

lemma isEmpty_eq (h : draft.Moved R draft') :
    draft'.declarations.isEmpty = draft.declarations.isEmpty := by
  rw [Bool.eq_iff_iff, List.isEmpty_iff_length_eq_zero, List.isEmpty_iff_length_eq_zero,
    h.declarations.length_eq]

lemma scanShape (h : draft.Moved R draft') : draft'.scanShape = draft.scanShape := by
  rw [Draft.scanShape, Draft.scanShape, h.declares]

lemma declare (h : draft.Moved R draft') {declaration declaration' : Declaration}
    (hdeclaration : declaration.Moved R declaration') :
    (draft.declare declaration).Moved R (draft'.declare declaration') where
  name := h.name
  named := h.named
  declarations := List.rel_append h.declarations (.cons hdeclaration .nil)

lemma scanStatement (h : draft.Moved R draft') (hnumber : R number number') :
    Blind (Draft.Moved R) (draft.scanStatement number) (draft'.scanStatement number') := by
  refine name_blind.andThen fun word => ?_
  rw [h.scanShape]
  split
  · rw [h.named, h.isEmpty_eq]
    refine .ite .rfl (.throw_bind _ _) (name_blind.andThen fun name => .pure ?_)
    exact ⟨rfl, rfl, h.declarations⟩
  · exact (scanShape_blind draft).andThen fun shape => .pure (h.declare ⟨hnumber, rfl⟩)
  · exact (scanShape_blind draft).andThen fun shape => (expect_blind (by decide)).andThen fun _ =>
      scanOperation_blind.andThen fun operation => .pure (h.declare ⟨hnumber, rfl⟩)
  · exact (scanShape_blind draft).andThen fun shape => (expect_blind (by decide)).andThen fun _ =>
      (Reference.scanOperands_blind .output).andThen fun references =>
        .pure (h.declare ⟨hnumber, rfl⟩)
  · exact .throw _ _

/-- Lines that are read alike move the drafts on in the same way. -/
lemma readLine (h : draft.Moved R draft') (hnumber : R number number')
    (hline : Text.Same line line') : Except.Agree (fun _ _ => True) (Draft.Moved R)
      (draft.readLine number line) (draft'.readLine number' line') := by
  have hend := hline.atEnd_eq
  rw [List.dropWhile_idempotent, List.dropWhile_idempotent] at hend
  rw [Draft.readLine, Draft.readLine]
  dsimp only
  -- either line may hold nothing but a comment, in front of the statement and behind it
  rw [hend]
  split
  · exact .ok h
  · refine (h.scanStatement hnumber _ _ hline).bind fun read read' hread => ?_
    have hend := hread.rests.atEnd_eq
    obtain ⟨next, rest⟩ := read
    obtain ⟨next', rest'⟩ := read'
    dsimp only at hend ⊢
    rw [hend]
    split
    · exact .ok hread.result
    · exact .error trivial

lemma readLines (h : draft.Moved R draft') (hlines : Text.Spreads R number number' lines lines') :
    Except.Agree (ModelError.Moved R) (Draft.Moved R) (draft.readLines number lines)
      (draft'.readLines number' lines') := by
  induction hlines generalizing draft draft' with
  | nil => exact .ok h
  | @insert number number' line' lines lines' hinert _ ih =>
    have hskip : draft'.readLine number' line' = .ok draft' := if_pos hinert
    rw [Draft.readLines, hskip]
    exact ih h
  | line hline hnumber _ ih =>
    refine ((h.readLine hnumber hline).mapError fun fault fault' _ => ?_).bind
      fun next next' hnext => ih hnext
    exact ⟨_, fault, _, fault', rfl, rfl, hnumber⟩

/-! ## References -/

lemma ports (h : draft.Moved R draft') : draft'.ports = draft.ports := by
  rw [Draft.ports, Draft.ports]
  refine List.ext_getElem (by simp [h.declarations.length_eq]) fun i hi hi' => ?_
  rw [List.length_mapIdx] at hi hi'
  have hdeclaration := (h.declarations.get hi' hi).same
  rw [List.get_eq_getElem, List.get_eq_getElem] at hdeclaration
  rw [List.getElem_mapIdx, List.getElem_mapIdx, hdeclaration]

lemma addDeclared {ports : List OutputPort} {model : Model} {declaration declaration' : Declaration}
    (h : declaration.Moved R declaration') : Except.Agree (ModelError.Moved R) Eq
      (Draft.addDeclared ports model declaration) (Draft.addDeclared ports model declaration') := by
  rw [h.same]
  refine Except.Agree.bind (R := Eq) (.mapM fun reference _ => ?_) fun ranges _ hranges => ?_
  · rw [Draft.resolve, Draft.resolve]
    split
    · exact .ok rfl
    · exact .error ⟨_, _, _, _, rfl, rfl, h.line⟩
  · exact hranges ▸ .ok rfl

lemma toModel (h : draft.Moved R draft') :
    Except.Agree (ModelError.Moved R) Eq draft.toModel draft'.toModel := by
  rw [Draft.toModel, Draft.toModel, h.ports, h.name]
  exact .foldlM h.declarations
    (fun _ _ _ _ hmodel hdeclaration => hmodel ▸ addDeclared hdeclaration) rfl

end Draft.Moved

/-! ## Models -/

/-- Reading moves along with the lines. -/
lemma Text.Spreads.toModel (h : Spreads R 1 1 lines lines') :
    Except.Agree (ModelError.Moved R) Eq (Draft.empty.readLines 1 lines >>= Draft.toModel)
      (Draft.empty.readLines 1 lines' >>= Draft.toModel) :=
  (Draft.Moved.readLines ⟨rfl, rfl, .nil⟩ h).bind fun _ _ hdraft => hdraft.toModel

/-- **Comments and blank lines are invisible.**  Let the pieces of the second text between its line
feeds be those of the first text, dressed with blanks around them and comments behind them, with
blank lines and lines with a comment in between.  Then the same models are read of both texts.  An
error in the first text is one in a line, and an error is found in the second text as well, in the
line that the line has become. -/
theorem Model.parse_dressed {text dressed : String} {places : List ℕ}
    (h : Text.Dresses 1 (text.toList.splitOn '\n') (dressed.toList.splitOn '\n') places) :
    (∀ model, parse dressed = .ok model ↔ parse text = .ok model) ∧
    ∀ e, parse text = .error e → ∃ i place fault fault', e = .parse (i + 1) fault ∧
      places[i]? = some place ∧ parse dressed = .error (.parse place fault') := by
  have hplain := ((Text.breaks_lines text.toList).spreads 1).toModel
  have hdressed := ((Text.breaks_lines dressed.toList).spreads 1).toModel
  have hspreads : Text.Spreads (fun number place => ∃ i, number = i + 1 ∧ places[i]? = some place)
      1 1 _ _ := h.spreads fun i place hi => ⟨i, Nat.add_comm 1 i, hi⟩
  -- from the lines to the pieces, from those to the dressed pieces, and back to lines
  have hagree : Except.Agree _ _ (parse text) (parse dressed) :=
    (hplain.trans hspreads.toModel).trans hdressed.symm
  generalize parse text = result at hagree
  generalize parse dressed = result' at hagree
  cases hagree with
  | ok hmodel =>
    obtain ⟨_, ⟨_, rfl, rfl⟩, rfl⟩ := hmodel
    exact ⟨fun _ => Iff.rfl, fun _ h => (nomatch h)⟩
  | error herror =>
    refine ⟨fun _ => ⟨fun h => (nomatch h), fun h => (nomatch h)⟩, ?_⟩
    rintro _ ⟨⟩
    obtain ⟨_, ⟨_, ⟨_, fault, _, _, rfl, rfl, rfl⟩, _, _, place, _, hfirst, rfl, i, rfl, hplace⟩,
      _, fault', _, _, rfl, hlast, rfl⟩ := herror
    cases hfirst
    cases hlast
    exact ⟨i, place, fault, fault', rfl, hplace, rfl⟩

/-- A reference to a node that is not declared, in a text and in the same text with a heading, an
empty line and comments. -/
theorem Model.parse_dressed_undeclared :
    let text := "input a: int[2]\nnode b: int[2] = add a, x\n"
    let dressed := "; heading\n\tinput a: int[2];=\n\nnode b: int[2] = add a, x ; two\r\n"
    Text.Dresses 1 (text.toList.splitOn '\n') (dressed.toList.splitOn '\n') [2, 4, 5] ∧
      parse text = .error (.parse 2 (.undeclaredNode "x")) ∧
      ∃ fault, parse dressed = .error (.parse 4 fault) := by
  intro text dressed
  have hdresses :
      Text.Dresses 1 (text.toList.splitOn '\n') (dressed.toList.splitOn '\n') [2, 4, 5] := by
    have htext : text.toList.splitOn '\n' =
        ["input a: int[2]".toList, "node b: int[2] = add a, x".toList, []] := by decide +kernel
    have hdressed : dressed.toList.splitOn '\n' = ["; heading".toList,
        "\tinput a: int[2];=".toList, [], "node b: int[2] = add a, x ; two\r".toList, []] := by
      decide +kernel
    have hheading : Text.Dressed [] "; heading".toList :=
      ⟨[], [], [], [], ';' :: " heading".toList, rfl, by decide +kernel, .inl rfl, by simp, by simp,
        .inr ⟨_, rfl⟩⟩
    have hinput : Text.Dressed "input a: int[2]".toList "\tinput a: int[2];=".toList :=
      ⟨"input a: int[2]".toList, [], ['\t'], [], ';' :: "=".toList, by decide +kernel,
        by decide +kernel, .inl rfl, List.forall_mem_singleton.mpr rfl, by simp, .inr ⟨_, rfl⟩⟩
    have hempty : Text.Dressed [] [] :=
      ⟨[], [], [], [], [], rfl, rfl, .inl rfl, by simp, by simp, .inl rfl⟩
    have hnode : Text.Dressed "node b: int[2] = add a, x".toList
        "node b: int[2] = add a, x ; two\r".toList :=
      ⟨"node b: int[2] = add a, x".toList, [], [], [' '], ';' :: " two\r".toList, by decide +kernel,
        by decide +kernel, .inl rfl, by simp, List.forall_mem_singleton.mpr rfl, .inr ⟨_, rfl⟩⟩
    rw [htext, hdressed]
    exact .insert hheading (.line hinput (.insert hempty (.line hnode (.line hempty (.nil 6)))))
  have hparse : parse text = .error (.parse 2 (.undeclaredNode "x")) := by decide +kernel
  obtain ⟨i, place, _, fault, herror, hplace, hdressed⟩ := (parse_dressed hdresses).2 _ hparse
  cases herror
  cases hplace
  exact ⟨hdresses, hparse, fault, hdressed⟩

end Dataflow
