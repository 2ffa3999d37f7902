import Dataflow.Model.Parser
import Dataflow.Proofs.Model.Words

/-!
# Readers and the ends of lines

A line is inert if it holds nothing but blanks and a comment.  Two lines are alike if they have a
common beginning and go on with something inert each (`Scan.Alike`).  A reader is blind for such
ends if it cannot tell two lines that are alike (`Scan.Blind`): it gives the same result for both
and leaves rests that are alike, or it fails on both.

Only the beginning of a statement and its end are ever tested for a comment.  Every other reader
stops for reasons of its own, so blindness is a property of each of them: no class of characters
holds a blank or a semicolon, and no mark is one.
-/

namespace Dataflow
namespace Scan

/-! ## Lines -/

/-- A line holds nothing but blanks and a comment. -/
def Inert (line : List Char) : Prop := atEnd (line.dropWhile Text.isBlank) = true

instance (line : List Char) : Decidable (Inert line) := inferInstanceAs (Decidable (_ = true))

/-- Two lines have a common beginning, and nothing but blanks and a comment each behind it. -/
inductive Alike : List Char → List Char → Prop
  /-- The beginning ends here. -/
  | inert {line line' : List Char} : Inert line → Inert line' → Alike line line'
  /-- A common character. -/
  | cons (c : Char) {line line' : List Char} : Alike line line' → Alike (c :: line) (c :: line')

variable {line line' : List Char}

lemma Inert.nil : Inert [] := rfl

lemma Inert.comment (rest : List Char) : Inert (';' :: rest) := rfl

lemma inert_append_blanks {blanks : List Char} (h : ∀ c ∈ blanks, Text.isBlank c = true) :
    Inert (blanks ++ line) ↔ Inert line := by
  rw [Inert, Inert, List.dropWhile_append_of_pos h]

lemma Inert.dropWhile (h : Inert line) : Inert (line.dropWhile Text.isBlank) := by
  rw [Inert, List.dropWhile_idempotent]
  exact h

/-- What is inert begins with a blank or a semicolon, if with anything. -/
lemma Inert.stops (h : Inert line) {inClass : Char → Bool}
    (hblank : ∀ c, inClass c = true → Text.isBlank c = false) (hcomment : inClass ';' = false) :
    Stops inClass line := by
  cases line with
  | nil => exact .nil inClass
  | cons c rest =>
    refine .cons (Bool.eq_false_of_not_eq_true fun hc => ?_) rest
    rw [Inert, List.dropWhile_cons_of_neg (by rw [hblank c hc]; exact Bool.false_ne_true)] at h
    obtain rfl : c = ';' := beq_iff_eq.mp h
    exact Bool.false_ne_true (hcomment.symm.trans hc)

namespace Alike

lemma refl (line : List Char) : Alike line line := by
  induction line with
  | nil => exact .inert .nil .nil
  | cons c rest ih => exact .cons c ih

lemma symm (h : Alike line line') : Alike line' line := by
  induction h with
  | inert h h' => exact .inert h' h
  | cons c _ ih => exact .cons c ih

lemma append {tail tail' : List Char} (h : Inert tail) (h' : Inert tail') (line : List Char) :
    Alike (line ++ tail) (line ++ tail') := by
  induction line with
  | nil => exact .inert h h'
  | cons c rest ih => exact .cons c ih

lemma dropWhile (h : Alike line line') :
    Alike (line.dropWhile Text.isBlank) (line'.dropWhile Text.isBlank) := by
  induction h with
  | inert h h' => exact .inert h.dropWhile h'.dropWhile
  | @cons c line line' h ih =>
    rw [List.dropWhile_cons, List.dropWhile_cons]
    split
    · exact ih
    · exact .cons c h

/-- Behind the blanks both lines are at their end, or they go on with the same character. -/
lemma next (h : Alike line line') :
    (atEnd (line.dropWhile Text.isBlank) = true ∧ atEnd (line'.dropWhile Text.isBlank) = true) ∨
      ∃ c rest rest', line.dropWhile Text.isBlank = c :: rest ∧
        line'.dropWhile Text.isBlank = c :: rest' ∧ Alike rest rest' := by
  induction h with
  | inert h h' => exact .inl ⟨h, h'⟩
  | @cons c line line' h ih =>
    rw [List.dropWhile_cons, List.dropWhile_cons]
    split
    · exact ih
    · exact .inr ⟨c, line, line', rfl, rfl, h⟩

lemma atEnd_eq (h : Alike line line') :
    atEnd (line.dropWhile Text.isBlank) = atEnd (line'.dropWhile Text.isBlank) := by
  rcases h.next with ⟨hend, hend'⟩ | ⟨c, rest, rest', hline, hline', -⟩
  · rw [hend, hend']
  · rw [hline, hline']
    rfl

/-- The longest run of characters of a class without blanks and semicolons does not depend on the
ends. -/
lemma takeWhile (h : Alike line line') {inClass : Char → Bool}
    (hblank : ∀ c, inClass c = true → Text.isBlank c = false) (hcomment : inClass ';' = false) :
    line.takeWhile inClass = line'.takeWhile inClass ∧
      Alike (line.dropWhile inClass) (line'.dropWhile inClass) := by
  induction h with
  | inert h h' =>
    have hstops := h.stops hblank hcomment
    have hstops' := h'.stops hblank hcomment
    rw [hstops.takeWhile_eq, hstops'.takeWhile_eq, hstops.dropWhile_eq, hstops'.dropWhile_eq]
    exact ⟨rfl, .inert h h'⟩
  | @cons c line line' h ih =>
    rw [List.takeWhile_cons, List.takeWhile_cons, List.dropWhile_cons, List.dropWhile_cons]
    split
    · exact ⟨congrArg (c :: ·) ih.1, ih.2⟩
    · exact ⟨rfl, .cons c h⟩

/-- Whether a line begins with a character of such a class does not depend on the end either. -/
lemma any_head? (h : Alike line line') {inClass : Char → Bool}
    (hblank : ∀ c, inClass c = true → Text.isBlank c = false) (hcomment : inClass ';' = false) :
    line.head?.any inClass = line'.head?.any inClass := by
  have hany : ∀ {line : List Char}, Stops inClass line → line.head?.any inClass = false :=
    fun {line} hstops => by
      cases line with
      | nil => rfl
      | cons c rest => exact hstops c rfl
  cases h with
  | inert h h' => rw [hany (h.stops hblank hcomment), hany (h'.stops hblank hcomment)]
  | cons c _ => rfl

end Alike

/-! ## Blindness -/

/-- What two readers have made of two lines: results that belong together and rests that are alike,
neither of them longer than the line. -/
structure Outcome {α β : Type} (R : α → β → Prop) (line line' : List Char) (read : α × List Char)
    (read' : β × List Char) : Prop where
  result : R read.1 read'.1
  rests : Alike read.2 read'.2
  le : read.2.length ≤ line.length
  le' : read'.2.length ≤ line'.length

lemma Outcome.dropWhile {α : Type} {line line' : List Char} (a : α)
    {inClass : Char → Bool} (hrests : Alike (line.dropWhile inClass) (line'.dropWhile inClass)) :
    Outcome Eq line line' (a, line.dropWhile inClass) (a, line'.dropWhile inClass) :=
  ⟨rfl, hrests, (List.dropWhile_sublist _).length_le, (List.dropWhile_sublist _).length_le⟩

/-- On lines that are alike both readers succeed, with results that belong together and rests that
are alike, or both fail. -/
def Blind {α β : Type} (R : α → β → Prop) (x : Scan α) (y : Scan β) : Prop :=
  ∀ line line', Alike line line' →
    Except.Agree (fun _ _ => True) (Outcome R line line') (x line) (y line')

variable {α β γ δ : Type} {R : α → β → Prop} {Q : γ → δ → Prop} {x : Scan α} {y : Scan β}

namespace Blind

lemma pure {a : α} {b : β} (h : R a b) : Blind R (Pure.pure a) (Pure.pure b) :=
  fun _ _ hlines => .ok ⟨h, hlines, le_rfl, le_rfl⟩

lemma fails (hx : ∀ line, ∃ fault, x line = .error fault)
    (hy : ∀ line, ∃ fault, y line = .error fault) : Blind R x y := by
  intro line line' _
  obtain ⟨fault, hline⟩ := hx line
  obtain ⟨fault', hline'⟩ := hy line'
  rw [hline, hline']
  exact .error trivial

lemma throw (fault fault' : SyntaxFault) :
    Blind R (MonadExcept.throw fault) (MonadExcept.throw fault') :=
  fails (fun _ => ⟨fault, rfl⟩) fun _ => ⟨fault', rfl⟩

lemma bind {f : α → Scan γ} {g : β → Scan δ} (hx : Blind R x y)
    (hnext : ∀ a b, R a b → Blind Q (f a) (g b)) : Blind Q (x >>= f) (y >>= g) := by
  intro line line' hlines
  refine (hx line line' hlines).bind fun read read' hread => ?_
  have hagree := hnext _ _ hread.result _ _ hread.rests
  show Except.Agree _ _ (f read.1 read.2) (g read'.1 read'.2)
  generalize f read.1 read.2 = result at hagree ⊢
  generalize g read'.1 read'.2 = result' at hagree ⊢
  cases hagree with
  | ok h => exact .ok ⟨h.result, h.rests, h.le.trans hread.le, h.le'.trans hread.le'⟩
  | error h => exact .error h

/-- What is left of lines that are alike is alike. -/
lemma get : Blind Alike MonadState.get MonadState.get :=
  fun _ _ hlines => .ok ⟨hlines, hlines, le_rfl, le_rfl⟩

/-- A reader that fails does not go on. -/
lemma throw_bind {f : γ → Scan α} {g : δ → Scan β} (fault fault' : SyntaxFault) :
    Blind R (MonadExcept.throw fault >>= f) (MonadExcept.throw fault' >>= g) :=
  fails (fun _ => ⟨fault, rfl⟩) fun _ => ⟨fault', rfl⟩

lemma ite {p p' : Prop} [Decidable p] [Decidable p'] {u : Scan α} {v : Scan β} (h : p ↔ p')
    (hx : Blind R x y) (hu : Blind R u v) : Blind R (if p then x else u) (if p' then y else v) := by
  by_cases hp : p
  · rw [if_pos hp, if_pos (h.mp hp)]
    exact hx
  · rw [if_neg hp, if_neg (mt h.mpr hp)]
    exact hu

/-- A reader that is blind goes on from one result. -/
lemma andThen {x : Scan α} {f g : α → Scan γ} {Q : γ → γ → Prop} (hx : Blind Eq x x)
    (hnext : ∀ a, Blind Q (f a) (g a)) : Blind Q (x >>= f) (x >>= g) :=
  hx.bind fun a _ h => h ▸ hnext a

end Blind

/-! ## Words and marks -/

lemma skipBlanks_blind : Blind Eq skipBlanks skipBlanks := fun _ _ h =>
  .ok (.dropWhile () h.dropWhile)

lemma takeRun_blind {inClass : Char → Bool}
    (hblank : ∀ c, inClass c = true → Text.isBlank c = false) (hcomment : inClass ';' = false) :
    Blind Eq (takeRun inClass) (takeRun inClass) := by
  intro line line' h
  obtain ⟨hword, hrests⟩ := h.takeWhile hblank hcomment
  show Except.Agree _ _ (.ok (line.takeWhile inClass, _)) (.ok (line'.takeWhile inClass, _))
  rw [hword]
  exact .ok (.dropWhile _ hrests)

lemma skipBlanks_eq (line : List Char) :
    skipBlanks line = .ok ((), line.dropWhile Text.isBlank) := rfl

lemma get_eq (line : List Char) : (MonadState.get : Scan (List Char)) line = .ok (line, line) := rfl

/-- The marks of statements are not found at the end of a line. -/
lemma accept_of_atEnd {c : Char} (hc : c ≠ ';')
    (h : atEnd (line.dropWhile Text.isBlank) = true) :
    accept c line = .ok (false, line.dropWhile Text.isBlank) := by
  rw [accept, bind_run (skipBlanks_eq line)]
  generalize line.dropWhile Text.isBlank = rest at h
  cases rest with
  | nil => rfl
  | cons next rest =>
    obtain rfl : next = ';' := beq_iff_eq.mp h
    show (if ';' = c then _ else _ : Scan Bool) (';' :: rest) = _
    rw [if_neg hc.symm]
    rfl

lemma accept_of_cons {c next : Char} {rest : List Char}
    (h : line.dropWhile Text.isBlank = next :: rest) :
    accept c line = .ok (if next = c then (true, rest) else (false, next :: rest)) := by
  rw [accept, bind_run (skipBlanks_eq line), h]
  show (if next = c then _ else _ : Scan Bool) (next :: rest) = _
  split <;> rfl

lemma length_of_dropWhile {p : Char → Bool} {next : Char} {rest : List Char}
    (h : line.dropWhile p = next :: rest) : rest.length < line.length := by
  have hle := (List.dropWhile_sublist (l := line) p).length_le
  rw [h, List.length_cons] at hle
  exact hle

lemma accept_blind {c : Char} (hc : c ≠ ';') : Blind Eq (accept c) (accept c) := by
  intro line line' h
  rcases h.next with ⟨hend, hend'⟩ | ⟨next, rest, rest', hline, hline', hrests⟩
  · rw [accept_of_atEnd hc hend, accept_of_atEnd hc hend']
    exact .ok (.dropWhile _ h.dropWhile)
  · have hlt := length_of_dropWhile hline
    have hlt' := length_of_dropWhile hline'
    rw [accept_of_cons hline, accept_of_cons hline']
    split
    · exact .ok ⟨rfl, hrests, hlt.le, hlt'.le⟩
    · exact .ok ⟨rfl, .cons next hrests, hlt, hlt'⟩

lemma expect_blind {c : Char} (hc : c ≠ ';') : Blind Eq (expect c) (expect c) := by
  refine (accept_blind hc).andThen fun found => ?_
  cases found with
  | true => exact .pure rfl
  | false => exact .fails (fun _ => ⟨_, rfl⟩) fun _ => ⟨_, rfl⟩

lemma acceptDots_of_dots {rest : List Char}
    (h : line.dropWhile Text.isBlank = '.' :: '.' :: rest) :
    acceptDots line = .ok (true, rest) := by
  rw [acceptDots, bind_run (skipBlanks_eq line), h]
  rfl

lemma acceptDots_of_not (h : ∀ rest, line.dropWhile Text.isBlank ≠ '.' :: '.' :: rest) :
    acceptDots line = .ok (false, line.dropWhile Text.isBlank) := by
  rw [acceptDots, bind_run (skipBlanks_eq line)]
  generalize line.dropWhile Text.isBlank = next at h
  rw [bind_run (get_eq next)]
  split
  · exact absurd rfl (h _)
  · rfl

/-- Two points stand in front of both lines or of neither. -/
lemma Alike.dots {rest : List Char} (h : Alike ('.' :: '.' :: rest) line') :
    ∃ rest', line' = '.' :: '.' :: rest' ∧ Alike rest rest' := by
  cases h with
  | inert h => cases h
  | cons _ h =>
    cases h with
    | inert h => cases h
    | cons _ h => exact ⟨_, rfl, h⟩

lemma acceptDots_blind : Blind Eq acceptDots acceptDots := by
  intro line line' h
  by_cases hdots : ∃ rest, line.dropWhile Text.isBlank = '.' :: '.' :: rest
  · obtain ⟨rest, hline⟩ := hdots
    have hnext := h.dropWhile
    rw [hline] at hnext
    obtain ⟨rest', hline', hrests⟩ := hnext.dots
    rw [acceptDots_of_dots hline, acceptDots_of_dots hline']
    exact .ok ⟨rfl, hrests, (Nat.le_succ _).trans (length_of_dropWhile hline).le,
      (Nat.le_succ _).trans (length_of_dropWhile hline').le⟩
  · have hdots' : ¬ ∃ rest, line'.dropWhile Text.isBlank = '.' :: '.' :: rest := by
      rintro ⟨rest, hline'⟩
      have hnext := h.dropWhile.symm
      rw [hline'] at hnext
      obtain ⟨rest', hline, -⟩ := hnext.dots
      exact hdots ⟨rest', hline⟩
    rw [acceptDots_of_not (not_exists.mp hdots), acceptDots_of_not (not_exists.mp hdots')]
    exact .ok (.dropWhile _ h.dropWhile)

/-- No character of a name is a blank. -/
lemma isBlank_of_continuesName {c : Char} (h : continuesName c = true) :
    Text.isBlank c = false := by
  rw [continuesName, Bool.or_right_comm, Bool.or_eq_true] at h
  rcases h with hstart | hnumeral
  · exact isBlank_of_startsName hstart
  · rcases Bool.or_eq_true_iff.mp hnumeral with hdigit | hother
    · exact Text.isBlank_of_isDigit hdigit
    · exact Text.isBlank_eq_false Text.numeralRanges (by decide +kernel) hother

lemma name_blind : Blind Eq name name := by
  -- the characters in front may differ, but either both begin a name or neither does
  refine skipBlanks_blind.andThen fun _ => Blind.get.bind fun line line' h => ?_
  have hstart := h.any_head? (fun _ => isBlank_of_startsName) (by decide +kernel)
  dsimp only
  refine .ite (by rw [hstart]) ?_ ?_
  · exact (takeRun_blind (fun _ => isBlank_of_continuesName) (by decide +kernel)).andThen
      fun word => .pure rfl
  · exact .throw_bind _ _

lemma index_blind : Blind Eq index index := by
  refine skipBlanks_blind.andThen fun _ =>
    (takeRun_blind (fun _ => Text.isBlank_of_isDigit) (by decide)).andThen fun digits => ?_
  cases Word.ofDigits? digits with
  | some value => exact .pure rfl
  | none => exact .fails (fun _ => ⟨_, rfl⟩) fun _ => ⟨_, rfl⟩

lemma number_blind : Blind Eq number number := by
  refine skipBlanks_blind.andThen fun _ =>
    (takeRun_blind (fun _ => isBlank_of_inNumber) (by decide)).andThen fun literal => ?_
  cases Number.read? literal with
  | some value => exact .pure rfl
  | none => exact .throw _ _

/-! ## Lists -/

lemma accept_lt {c : Char} {rest : List Char} (h : accept c line = .ok (true, rest)) :
    rest.length < line.length := by
  cases hdrop : line.dropWhile Text.isBlank with
  | nil =>
    rw [accept, bind_run (skipBlanks_eq line), hdrop] at h
    cases h
  | cons next others =>
    rw [accept_of_cons hdrop] at h
    split at h
    · cases h
      exact length_of_dropWhile hdrop
    · cases h

lemma separated_eq (item : Scan α) (line : List Char) : separated item line = (do
    let (first, rest) ← item line
    let (comma, rest) ← accept ',' rest
    if comma = true ∧ rest.length < line.length then
      let (others, rest) ← separated item rest
      return (first :: others, rest)
    else return ([first], rest)) := by
  rw [separated]
  cases item line with
  | error => rfl
  | ok read =>
    obtain ⟨first, mid⟩ := read
    dsimp only
    show _ = (accept ',' mid >>= fun found => _)
    cases accept ',' mid with
    | error => rfl
    | ok found =>
      obtain ⟨comma, rest⟩ := found
      cases comma with
      | false => rfl
      | true =>
        show (if rest.length < line.length then _ else _) = if true = true ∧ _ then _ else _
        by_cases hlt : rest.length < line.length
        · rw [if_pos hlt, if_pos ⟨rfl, hlt⟩]
          cases separated item rest <;> rfl
        · rw [if_neg hlt, if_neg fun h => hlt h.2]
          rfl

/-- A list goes on behind a comma, with less of the line left than before. -/
lemma separated_blind {item : Scan α} (hitem : Blind Eq item item) :
    Blind Eq (separated item) (separated item) := by
  intro line line' h
  induction hlength : line.length using Nat.strong_induction_on generalizing line line' with
  | _ length ih =>
    subst hlength
    rw [separated_eq, separated_eq]
    refine (hitem line line' h).bind fun read read' hread =>
      (accept_blind (by decide) _ _ hread.rests).bind_of
        fun found found' hfound hfound' hcomma => ?_
    obtain ⟨comma, rest⟩ := found
    obtain ⟨_, rest'⟩ := found'
    obtain ⟨rfl, hrests, hle, hle'⟩ := hcomma
    have hmid : rest.length ≤ line.length := hle.trans hread.le
    have hmid' : rest'.length ≤ line'.length := hle'.trans hread.le'
    dsimp only
    cases comma with
    | false =>
      rw [if_neg fun h => Bool.false_ne_true h.1, if_neg fun h => Bool.false_ne_true h.1]
      exact .ok ⟨congrArg (fun a => [a]) hread.result, hrests, hmid, hmid'⟩
    | true =>
      have hlt := (accept_lt hfound).trans_le hread.le
      have hlt' := (accept_lt hfound').trans_le hread.le'
      rw [if_pos ⟨rfl, hlt⟩, if_pos ⟨rfl, hlt'⟩]
      refine (ih _ hlt rest rest' hrests rfl).bind fun others others' hothers => .ok ?_
      exact ⟨congrArg₂ List.cons hread.result hothers.result, hothers.rests,
        hothers.le.trans hmid, hothers.le'.trans hmid'⟩

end Scan

/-! ## Statements -/

open Scan

namespace Reference

lemma scan_blind : Blind Eq scan scan := by
  refine name_blind.andThen fun name => (accept_blind (by decide)).andThen fun bracket =>
    .ite .rfl ?_ (.pure rfl)
  have hclose : ∀ start stop : ℕ, Blind Eq
      (do
        Scan.expect ']'
        if stop ≤ start then throw (.emptyRange start stop name)
        return ⟨name, some (start, stop)⟩ : Scan Reference)
      (do
        Scan.expect ']'
        if stop ≤ start then throw (.emptyRange start stop name)
        return ⟨name, some (start, stop)⟩ : Scan Reference) := fun start stop =>
    (expect_blind (by decide)).andThen fun _ => .ite .rfl (.throw_bind _ _) (.pure rfl)
  refine index_blind.andThen fun start => acceptDots_blind.andThen fun dots => .ite .rfl ?_ ?_
  · exact index_blind.andThen fun stop => hclose start stop
  · exact .ite .rfl (.throw_bind _ _) (hclose start (start + 1))

lemma scanOperands_blind (kind : NodeKind) : Blind Eq (scanOperands kind) (scanOperands kind) :=
  (separated_blind scan_blind).andThen fun _ => .ite .rfl (.throw_bind _ _) (.pure rfl)

end Reference

namespace Draft

lemma scanOperation_blind : Blind Eq scanOperation scanOperation := by
  refine name_blind.andThen fun operation => .ite .rfl ?_ ?_
  · exact (separated_blind number_blind).andThen fun values => .pure rfl
  · cases NodeKind.ofOperator? operation with
    | none => exact .throw _ _
    | some kind =>
      exact (Reference.scanOperands_blind kind).andThen fun references => .pure rfl

lemma scanShape_blind (draft : Draft) : Blind Eq draft.scanShape draft.scanShape := by
  refine name_blind.andThen fun name => .ite .rfl (.throw_bind _ _) ?_
  refine (expect_blind (by decide)).andThen fun _ => name_blind.andThen fun typeName => ?_
  cases ElementType.ofName? typeName with
  | none => exact .throw _ _
  | some elementType =>
    refine (expect_blind (by decide)).andThen fun _ => index_blind.andThen fun size => ?_
    refine (expect_blind (by decide)).andThen fun _ => .ite .rfl (.throw_bind _ _) ?_
    exact .ite .rfl (.throw_bind _ _) (.pure rfl)

end Draft
end Dataflow
