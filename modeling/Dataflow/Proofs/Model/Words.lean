import Dataflow.Model.Token
import Dataflow.Proofs.Except
import Dataflow.Proofs.Number.Text

/-!
# Reading words back

A reader that takes a word off the front of a line gives back what the word was written for, as long
as what follows cannot belong to the word any more (`Scan.Stops`).  Here this is said for names,
indices, numbers, marks and lists of items separated by commas.  A reader that succeeds has found a
word of its kind (`Scan.name_eq_ok`, `Scan.index_le`).
-/

namespace Dataflow

/-! ## Blanks -/

namespace Text

/-- Whether no character lies in both sets. -/
def Ranges.disjoint (ranges others : Ranges) : Bool :=
  ranges.all fun range => others.all fun other => range.2 < other.1 || other.2 < range.1

lemma Ranges.contains_cons (range : ℕ × ℕ) (ranges : Ranges) (c : Char) :
    contains (range :: ranges) c =
      (decide (range.1 ≤ c.toNat) && decide (c.toNat ≤ range.2) || ranges.contains c) := rfl

lemma Ranges.contains_eq_false {ranges others : Ranges} (h : ranges.disjoint others = true)
    {c : Char} (hc : ranges.contains c = true) : others.contains c = false := by
  obtain ⟨range, hrange, hlow, hhigh⟩ := contains_iff.mp hc
  refine Bool.eq_false_iff.mpr fun hother => ?_
  obtain ⟨other, hother, hlow', hhigh'⟩ := contains_iff.mp hother
  have hapart := List.all_eq_true.mp (List.all_eq_true.mp h range hrange) other hother
  simp only [Bool.or_eq_true, decide_eq_true_eq] at hapart
  omega

/-- No character of a set without blanks is a blank. -/
lemma isBlank_eq_false (ranges : Ranges)
    (h : ranges.disjoint ((9, 13) :: (32, 32) :: blankRanges) = true) {c : Char}
    (hc : ranges.contains c = true) : isBlank c = false := by
  have hspace : (c == ' ') = (decide (32 ≤ c.toNat) && decide (c.toNat ≤ 32)) := by
    rw [Bool.eq_iff_iff, beq_iff_eq, Bool.and_eq_true, decide_eq_true_eq, decide_eq_true_eq]
    exact ⟨fun heq => by rw [heq]; decide, fun heq => Char.toNat_inj.mp (le_antisymm heq.2 heq.1)⟩
  have hblank : isBlank c = Ranges.contains ((9, 13) :: (32, 32) :: blankRanges) c := by
    rw [isBlank, hspace, Bool.or_assoc]
    rfl
  rw [hblank]
  exact Ranges.contains_eq_false h hc

lemma isBlank_of_isDigit {c : Char} (h : c.isDigit = true) : isBlank c = false := by
  refine isBlank_eq_false [(48, 57)] (by decide) ?_
  simp only [Char.isDigit, Bool.and_eq_true, decide_eq_true_eq, ge_iff_le,
    UInt32.le_iff_toNat_le] at h
  simp only [Ranges.contains_cons, Bool.or_eq_true, Bool.and_eq_true, decide_eq_true_eq]
  exact .inl h

end Text

namespace Scan

/-- No character that begins a name is a blank. -/
lemma isBlank_of_startsName {c : Char} (h : startsName c = true) : Text.isBlank c = false := by
  refine Text.isBlank_eq_false ((65, 90) :: (97, 122) :: (95, 95) :: Text.letterRanges)
    (by decide +kernel) ?_
  simp only [startsName, Text.isLetter, Char.isAlpha, Char.isUpper, Char.isLower, Bool.or_eq_true,
    Bool.and_eq_true, decide_eq_true_eq, beq_iff_eq, ge_iff_le, UInt32.le_iff_toNat_le] at h
  simp only [Text.Ranges.contains_cons, Bool.or_eq_true, Bool.and_eq_true, decide_eq_true_eq]
  rcases h with ((h | h) | h) | rfl
  · exact .inl h
  · exact .inr (.inl h)
  · exact .inr (.inr (.inr h))
  · exact .inr (.inr (.inl (by decide)))

/-- No character of a number literal is a blank. -/
lemma isBlank_of_inNumber {c : Char} (h : inNumber c = true) : Text.isBlank c = false := by
  refine Text.isBlank_eq_false
    [(65, 90), (97, 122), (48, 57), (46, 46), (45, 45), (43, 43)] (by decide) ?_
  simp only [inNumber, Char.isAlphanum, Char.isAlpha, Char.isUpper, Char.isLower, Char.isDigit,
    Bool.or_eq_true, Bool.and_eq_true, decide_eq_true_eq, beq_iff_eq, ge_iff_le,
    UInt32.le_iff_toNat_le] at h
  simp only [Text.Ranges.contains_cons, Bool.or_eq_true, Bool.and_eq_true, decide_eq_true_eq]
  rcases h with ((((h | h) | h) | rfl) | rfl) | rfl
  · exact .inl h
  · exact .inr (.inl h)
  · exact .inr (.inr (.inl h))
  · exact .inr (.inr (.inr (.inl (by decide))))
  · exact .inr (.inr (.inr (.inr (.inl (by decide)))))
  · exact .inr (.inr (.inr (.inr (.inr (.inl (by decide))))))

lemma continuesName_of_startsName {c : Char} (h : startsName c = true) :
    continuesName c = true := by
  simp only [startsName, continuesName, Bool.or_eq_true] at h ⊢
  exact h.imp_left .inl

/-! ## Readers -/

variable {α β : Type} {first : Scan α} {next : α → Scan β} {line mid rest : List Char} {a : α}

lemma bind_run (h : first line = .ok (a, mid)) : (first >>= next) line = next a mid := by
  show (first line >>= fun read => next read.1 read.2) = _
  rw [h]
  rfl

lemma bind_eq_ok {b : β} : (first >>= next) line = .ok (b, rest) ↔
    ∃ a mid, first line = .ok (a, mid) ∧ next a mid = .ok (b, rest) := by
  show (first line >>= fun read => next read.1 read.2) = _ ↔ _
  rw [Except.bind_eq_ok, Prod.exists]

/-- What follows a word does not go on with characters of its class. -/
def Stops (inClass : Char → Bool) (rest : List Char) : Prop :=
  ∀ c ∈ rest.head?, inClass c = false

lemma Stops.nil (inClass : Char → Bool) : Stops inClass [] := fun _ h => (nomatch h)

lemma Stops.cons {inClass : Char → Bool} {c : Char} (h : inClass c = false) (rest : List Char) :
    Stops inClass (c :: rest) := by
  rintro _ ⟨⟩
  exact h

/-- A word without characters of the class stops before its first one. -/
lemma Stops.append {inClass : Char → Bool} {word : List Char} (hne : word ≠ [])
    (hword : ∀ c ∈ word, inClass c = false) : Stops inClass (word ++ rest) := by
  obtain ⟨c, others, rfl⟩ := List.exists_cons_of_ne_nil hne
  exact .cons (hword c List.mem_cons_self) _

lemma Stops.takeWhile_eq {inClass : Char → Bool} (h : Stops inClass rest) :
    rest.takeWhile inClass = [] := by
  cases rest with
  | nil => rfl
  | cons c rest => rw [List.takeWhile_cons_of_neg (by rw [h c rfl]; exact Bool.false_ne_true)]

lemma Stops.dropWhile_eq {inClass : Char → Bool} (h : Stops inClass rest) :
    rest.dropWhile inClass = rest := by
  cases rest with
  | nil => rfl
  | cons c rest => rw [List.dropWhile_cons_of_neg (by rw [h c rfl]; exact Bool.false_ne_true)]

lemma takeRun_run {inClass : Char → Bool} {word : List Char}
    (hword : ∀ c ∈ word, inClass c = true) (hrest : Stops inClass rest) :
    takeRun inClass (word ++ rest) = .ok (word, rest) := by
  have htake : (word ++ rest).takeWhile inClass = word := by
    rw [List.takeWhile_append_of_pos hword, hrest.takeWhile_eq, List.append_nil]
  have hdrop : (word ++ rest).dropWhile inClass = rest := by
    rw [List.dropWhile_append_of_pos hword, hrest.dropWhile_eq]
  show Except.ok ((word ++ rest).takeWhile inClass, (word ++ rest).dropWhile inClass) = _
  rw [htake, hdrop]

lemma skipBlanks_run (h : Stops Text.isBlank line) : skipBlanks line = .ok ((), line) := by
  show Except.ok ((), line.dropWhile Text.isBlank) = _
  rw [h.dropWhile_eq]

/-! ## Names -/

/-- A word that can be a name. -/
structure IsName (name : String) : Prop where
  first : name.toList.head?.any startsName = true
  all : ∀ c ∈ name.toList, continuesName c = true

instance (name : String) : Decidable (IsName name) :=
  decidable_of_iff
      ((name.toList.head?.any startsName && name.toList.all continuesName) = true) <| by
    rw [Bool.and_eq_true, List.all_eq_true]
    exact ⟨fun ⟨hfirst, hall⟩ => ⟨hfirst, hall⟩, fun ⟨hfirst, hall⟩ => ⟨hfirst, hall⟩⟩

/-- Keywords can be names. -/
lemma isName_of_isAlpha {word : String} (hne : word.toList ≠ [])
    (h : ∀ c ∈ word.toList, (c.isAlpha || c == '_') = true) : IsName word := by
  have hstart : ∀ c ∈ word.toList, startsName c = true := by
    intro c hc
    rcases Bool.or_eq_true_iff.mp (h c hc) with halpha | hmark
    · rw [startsName, Text.isLetter_of_isAlpha halpha, Bool.true_or]
    · rw [startsName, hmark, Bool.or_true]
  refine ⟨?_, fun c hc => continuesName_of_startsName (hstart c hc)⟩
  obtain ⟨c, others, hword⟩ := List.exists_cons_of_ne_nil hne
  rw [hword]
  exact hstart c (hword ▸ List.mem_cons_self)

lemma name_blank (line : List Char) : name (' ' :: line) = name line := rfl

lemma IsName.name_run {word : String} (h : IsName word) (hrest : Stops continuesName rest) :
    name (word.toList ++ rest) = .ok (word, rest) := by
  have hhead : (word.toList ++ rest).head? = word.toList.head? := by
    cases hword : word.toList with
    | nil =>
      have hfirst := h.first
      rw [hword] at hfirst
      cases hfirst
    | cons c others => rfl
  have hblank : Stops Text.isBlank (word.toList ++ rest) := by
    intro c hc
    rw [hhead] at hc
    have hfirst := h.first
    rw [hc, Option.any_some] at hfirst
    exact isBlank_of_startsName hfirst
  rw [name, bind_run (skipBlanks_run hblank)]
  show (do
    unless (word.toList ++ rest).head?.any startsName do throw _
    return String.ofList (← takeRun continuesName) : Scan String) (word.toList ++ rest) = _
  rw [hhead, h.first]
  refine (bind_run (takeRun_run h.all hrest)).trans ?_
  rw [String.ofList_toList]
  rfl

/-- Only names are read as names. -/
lemma name_eq_ok {word : String} (h : name line = .ok (word, rest)) : IsName word := by
  obtain ⟨_, mid, -, h⟩ := bind_eq_ok.mp h
  obtain ⟨_, mid', hget, h⟩ := bind_eq_ok.mp h
  cases hget
  split at h
  · next hfirst =>
    obtain ⟨run, _, hrun, h⟩ := bind_eq_ok.mp h
    cases h
    obtain rfl : mid.takeWhile continuesName = run := by
      cases hrun
      rfl
    refine ⟨?_, ?_⟩
    · rw [String.toList_ofList]
      cases mid with
      | nil => cases hfirst
      | cons c others =>
        have hstart : startsName c = true := hfirst
        rw [List.takeWhile_cons_of_pos (continuesName_of_startsName hstart)]
        exact hfirst
    · rw [String.toList_ofList]
      exact fun c hc => (List.mem_takeWhile_imp hc)
  · cases h

/-! ## Indices, numbers and marks -/

/-- A number that is written is read back, just if it is a word. -/
lemma index_eq (n : ℕ) (hrest : Stops Char.isDigit rest) :
    index (n.repr.toList ++ rest) =
      if n ≤ Word.top then .ok (n, rest) else .error (.expectedIndex (String.ofList rest)) := by
  have hdigit : ∀ c ∈ Nat.toDigits 10 n, c.isDigit = true :=
    fun c hc => Nat.isDigit_of_mem_toDigits (by decide) (by decide) hc
  have hblank : Stops Text.isBlank (Nat.toDigits 10 n ++ rest) :=
    .append (by simp) fun c hc => Text.isBlank_of_isDigit (hdigit c hc)
  have hvalue : Text.digitsValue (Nat.toDigits 10 n) = n := Nat.ofDigitChars_ten_toDigits
  have hword : Word.ofDigits? (Nat.toDigits 10 n) = if n ≤ Word.top then some n else none := by
    have hrow : Text.isNumeralRow (Nat.toDigits 10 n) = true := by
      rw [Text.isNumeralRow, Bool.and_eq_true, List.all_eq_true]
      exact ⟨by simp, hdigit⟩
    rw [Word.ofDigits?, hrow, hvalue, Bool.true_and]
    simp only [decide_eq_true_eq]
  rw [Nat.toList_repr, index, bind_run (skipBlanks_run hblank), bind_run (takeRun_run hdigit hrest),
    hword]
  split <;> rfl

lemma index_run {n : ℕ} (hn : n ≤ Word.top) (hrest : Stops Char.isDigit rest) :
    index (n.repr.toList ++ rest) = .ok (n, rest) := by
  rw [index_eq n hrest, if_pos hn]

lemma index_le {n : ℕ} (h : index line = .ok (n, rest)) : n ≤ Word.top := by
  obtain ⟨_, mid, -, h⟩ := bind_eq_ok.mp h
  obtain ⟨digits, mid', -, h⟩ := bind_eq_ok.mp h
  cases hword : Word.ofDigits? digits with
  | none =>
    rw [hword] at h
    cases h
  | some value =>
    rw [hword] at h
    cases h
    exact Word.ofDigits?_le hword

lemma number_blank (line : List Char) : number (' ' :: line) = number line := rfl

lemma number_run (v : Float) (hrest : Stops inNumber rest) :
    number ((Number.text v).toList ++ rest) = .ok (v, rest) := by
  have hclass : ∀ c ∈ (Number.text v).toList, inNumber c = true := by
    intro c hc
    rw [inNumber]
    rcases Number.mem_text hc with halphanum | rfl | rfl
    · rw [halphanum, Bool.true_or, Bool.true_or, Bool.true_or]
    · rfl
    · rfl
  have hblank : Stops Text.isBlank ((Number.text v).toList ++ rest) :=
    .append (Number.text_ne_nil v) fun c hc => isBlank_of_inNumber (hclass c hc)
  rw [number, bind_run (skipBlanks_run hblank), bind_run (takeRun_run hclass hrest),
    Number.read?_text]
  rfl

lemma accept_run {c : Char} (h : Text.isBlank c = false) (rest : List Char) :
    accept c (c :: rest) = .ok (true, rest) := by
  rw [accept, bind_run (skipBlanks_run (.cons h rest))]
  show (if c = c then _ else _ : Scan Bool) (c :: rest) = _
  rw [if_pos rfl]
  rfl

lemma accept_other {c other : Char} (h : Text.isBlank other = false) (hne : other ≠ c)
    (rest : List Char) : accept c (other :: rest) = .ok (false, other :: rest) := by
  rw [accept, bind_run (skipBlanks_run (.cons h rest))]
  show (if other = c then _ else _ : Scan Bool) (other :: rest) = _
  rw [if_neg hne]
  rfl

lemma accept_nil (c : Char) : accept c [] = .ok (false, []) := rfl

lemma expect_run {c : Char} (h : Text.isBlank c = false) (rest : List Char) :
    expect c (c :: rest) = .ok ((), rest) := by
  rw [expect, bind_run (accept_run h rest)]
  rfl

lemma expect_blank (c : Char) (line : List Char) : expect c (' ' :: line) = expect c line := rfl

lemma acceptDots_run (rest : List Char) : acceptDots ('.' :: '.' :: rest) = .ok (true, rest) := rfl

lemma acceptDots_bracket (rest : List Char) :
    acceptDots (']' :: rest) = .ok (false, ']' :: rest) := rfl

/-! ## Lists -/

/-- Items as they are written one after another. -/
def listed (word : α → List Char) (items : List α) : List Char :=
  [',', ' '].intercalate (items.map word)

lemma listed_cons_cons (word : α → List Char) (a b : α) (others : List α) :
    listed word (a :: b :: others) = word a ++ ',' :: ' ' :: listed word (b :: others) := by
  rw [listed, List.map_cons, List.map_cons, List.intercalate_cons_cons, listed, List.map_cons]
  simp

/-- Items that are read back one by one, each of them up to a comma or the end of the line, are read
back as a list.  There may be a blank in front of the first one, as there is in front of all
others. -/
lemma separated_run {item : Scan α} {word : α → List Char}
    (hblank : ∀ line, item (' ' :: line) = item line) {items : List α} (hne : items ≠ [])
    (hitem : ∀ a ∈ items, ∀ rest, Stops (fun c => c != ',') rest →
      item (word a ++ rest) = .ok (a, rest)) {lead : List Char} (hlead : lead = [] ∨ lead = [' ']) :
    separated item (lead ++ listed word items) = .ok (items, []) := by
  induction items generalizing lead with
  | nil => exact absurd rfl hne
  | cons a others ih =>
    obtain ⟨hfirst, hrest⟩ := List.forall_mem_cons.mp hitem
    have hskip : ∀ line, item (lead ++ line) = item line := by
      rcases hlead with rfl | rfl
      · exact fun line => rfl
      · exact hblank
    cases others with
    | nil =>
      have hword : item (lead ++ word a) = .ok (a, []) := by
        rw [hskip, ← List.append_nil (word a)]
        exact hfirst [] (.nil _)
      rw [listed, List.map_singleton, List.intercalate_singleton, separated, hword]
      rfl
    | cons b others =>
      have hword : item (lead ++ (word a ++ ',' :: ' ' :: listed word (b :: others))) =
          .ok (a, ',' :: ' ' :: listed word (b :: others)) := by
        rw [hskip]
        exact hfirst _ (.cons (by decide) _)
      have hothers : separated item (' ' :: listed word (b :: others)) =
          .ok (b :: others, []) := ih (List.cons_ne_nil _ _) hrest (.inr rfl)
      rw [listed_cons_cons, separated, hword]
      simp only [accept_run (show Text.isBlank ',' = false by decide)]
      rw [if_pos (by simp only [List.length_append, List.length_cons]; omega), hothers]

/-- Every item of a list has been read as such. -/
lemma separated_eq_ok {item : Scan α} {P : α → Prop}
    (hitem : ∀ line a rest, item line = .ok (a, rest) → P a) {items : List α}
    (h : separated item line = .ok (items, rest)) : items ≠ [] ∧ ∀ a ∈ items, P a := by
  fun_induction separated item line generalizing items rest with
  | case1 | case2 | case4 => cases h
  | case3 line a mid hfirst | case6 line a mid hfirst =>
    cases h
    exact ⟨List.cons_ne_nil _ _, List.forall_mem_singleton.mpr (hitem _ _ _ hfirst)⟩
  | case5 line a mid hfirst mid' haccept hlt others last hothers ih =>
    cases h
    exact ⟨List.cons_ne_nil _ _, List.forall_mem_cons.mpr ⟨hitem _ _ _ hfirst, (ih hothers).2⟩⟩

end Scan
end Dataflow
