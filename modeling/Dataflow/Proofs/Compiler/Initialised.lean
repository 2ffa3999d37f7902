import Dataflow.Proofs.Compiler.Soundness

/-!
# Initialised code

What it means that code, read from its first instruction to the last, relies on nothing that it has
not written itself or been given (`Initialised`), that it fills a variable with copies of slices
that follow one another (`Filled`), and that it fills a variable, reads it once and leaves it alone
otherwise (`UsedOnce`).  Code that does not touch a variable may stand before or behind.
-/

namespace Dataflow

/-- The slice has an element of a variable. -/
def Slice.Covers (slice : Slice) (id : VarId) (i : ℕ) : Prop :=
  slice.var = id ∧ slice.offset ≤ i ∧ i < slice.offset + slice.length

instance {slice : Slice} {id : VarId} {i : ℕ} : Decidable (slice.Covers id i) :=
  inferInstanceAs (Decidable (_ ∧ _ ∧ _))

/-- The slices that an instruction reads: its sources and, for a reduction, the element with the
running value. -/
def Instruction.reads : Instruction → List Slice
  | reduce _ dst src => [dst, src]
  | instruction => instruction.sources

lemma Instruction.mem_slices_of_reads {instruction : Instruction} {slice : Slice}
    (h : slice ∈ instruction.reads) : slice ∈ instruction.slices := by
  cases instruction with
  | reduce op dst src => exact h
  | _ => exact List.mem_cons_of_mem _ h

lemma Instruction.mem_reads_of_sources {instruction : Instruction} {slice : Slice}
    (h : slice ∈ instruction.sources) : slice ∈ instruction.reads := by
  cases instruction with
  | reduce op dst src => exact List.mem_cons_of_mem _ h
  | _ => exact h

/-! ## Reading -/

/-- The code has written an element. -/
def Wrote (code : List Instruction) (id : VarId) (i : ℕ) : Prop :=
  ∃ instruction ∈ code, instruction.dst.Covers id i

/-- All elements of a slice are given, or some code has written them. -/
def Slice.Ready (slice : Slice) (given : VarId → Prop) (done : List Instruction) : Prop :=
  ∀ i, slice.Covers slice.var i → given slice.var ∨ Wrote done slice.var i

/-- Every element that the code reads is given, or was written by the instructions that are done
already or precede in the code.  What a running sum updates in place is excepted. -/
def Initialised (given : VarId → Prop) : List Instruction → List Instruction → Prop
  | _, [] => True
  | done, instruction :: rest =>
    (∀ slice ∈ instruction.reads, slice.Ready given done ∨
      ∃ src, instruction = .accumulate slice src) ∧
    Initialised given (done ++ [instruction]) rest

section

variable {given : VarId → Prop} {done code code' : List Instruction} {id : VarId} {i : ℕ}

lemma Wrote.mono (h : Wrote code id i) (hsub : ∀ instruction ∈ code, instruction ∈ code') :
    Wrote code' id i := by
  obtain ⟨instruction, hmem, hcovers⟩ := h
  exact ⟨instruction, hsub instruction hmem, hcovers⟩

lemma Slice.Ready.append {slice : Slice} (h : slice.Ready given done) (code : List Instruction) :
    slice.Ready given (done ++ code) := fun i hi =>
  (h i hi).imp_right fun hwrote => hwrote.mono fun _ => List.mem_append_left code

namespace Initialised

lemma append (h : Initialised given done code) (h' : Initialised given (done ++ code) code') :
    Initialised given done (code ++ code') := by
  induction code generalizing done with
  | nil => rwa [List.append_nil] at h'
  | cons instruction rest ih =>
    refine ⟨h.1, ih h.2 ?_⟩
    rwa [List.append_assoc]

/-- Code whose reads are ready from the start. -/
lemma of_ready (h : ∀ instruction ∈ code, ∀ slice ∈ instruction.reads, slice.Ready given done) :
    Initialised given done code := by
  induction code generalizing done with
  | nil => trivial
  | cons instruction rest ih =>
    obtain ⟨hfirst, hrest⟩ := List.forall_mem_cons.mp h
    exact ⟨fun slice hslice => .inl (hfirst slice hslice),
      ih fun other hother slice hslice => (hrest other hother slice hslice).append _⟩

lemma single {instruction : Instruction} (h : ∀ slice ∈ instruction.reads,
    slice.Ready given done ∨ ∃ src, instruction = .accumulate slice src) :
    Initialised given done [instruction] :=
  ⟨h, trivial⟩

end Initialised
end

/-! ## Filling -/

/-- The slices cover a variable from an element to another one, each where the one before ends. -/
inductive Tiles (id : VarId) : ℕ → List Slice → ℕ → Prop
  | nil {start : ℕ} : Tiles id start [] start
  | cons {start length stop : ℕ} {rest : List Slice} : Tiles id (start + length) rest stop →
    Tiles id start (⟨id, start, length⟩ :: rest) stop

/-- The instructions that write to a variable. -/
def writes (code : List Instruction) (id : VarId) : List Instruction :=
  code.filter fun instruction => instruction.dst.var = id

/-- The code fills a variable: all that it writes there are copies, from the first element to the
last and without gaps. -/
structure Filled (code : List Instruction) (id : VarId) (size : ℕ) : Prop where
  copies : ∀ instruction ∈ writes code id, ∃ dst src, instruction = .copy dst src
  tiles : Tiles id 0 ((writes code id).map Instruction.dst) size

/-- Exactly one instruction writes an element. -/
def WroteOnce (code : List Instruction) (id : VarId) (i : ℕ) : Prop :=
  code.countP (fun instruction => instruction.dst.Covers id i) = 1

/-- The code fills a variable, reads it once and as a whole, and leaves it alone otherwise. -/
def UsedOnce (code : List Instruction) (id : VarId) (size : ℕ) : Prop :=
  ∃ before use after, code = before ++ use :: after ∧ Filled before id size ∧
    use.reads.filter (fun slice => slice.var = id) = [⟨id, 0, size⟩] ∧ use.dst.var ≠ id ∧
    (∀ instruction ∈ before, ∀ slice ∈ instruction.reads, slice.var ≠ id) ∧
    ∀ instruction ∈ after, ∀ slice ∈ instruction.slices, slice.var ≠ id

section

variable {code other : List Instruction} {id : VarId} {size : ℕ}

lemma writes_append (code code' : List Instruction) (id : VarId) :
    writes (code ++ code') id = writes code id ++ writes code' id := List.filter_append ..

lemma mem_writes {instruction : Instruction} :
    instruction ∈ writes code id ↔ instruction ∈ code ∧ instruction.dst.var = id := by
  rw [writes, List.mem_filter, decide_eq_true_iff]

lemma writes_eq_nil (h : ∀ instruction ∈ code, instruction.dst.var ≠ id) : writes code id = [] :=
  List.filter_eq_nil_iff.mpr fun instruction hmem => by simpa using h instruction hmem

lemma writes_eq_self (h : ∀ instruction ∈ code, instruction.dst.var = id) : writes code id = code :=
  List.filter_eq_self.mpr fun instruction hmem => by simpa using h instruction hmem

/-- What is in front does not write to the variable. -/
lemma writes_append_left (h : ∀ instruction ∈ other, instruction.dst.var ≠ id) :
    writes (other ++ code) id = writes code id := by
  rw [writes_append, writes_eq_nil h, List.nil_append]

/-- What is behind does not write to the variable. -/
lemma writes_append_right (h : ∀ instruction ∈ other, instruction.dst.var ≠ id) :
    writes (code ++ other) id = writes code id := by
  rw [writes_append, writes_eq_nil h, List.append_nil]

namespace Tiles

variable {start stop i : ℕ} {slices : List Slice}

lemma countP_eq_zero (h : Tiles id start slices stop) (hi : i < start) :
    slices.countP (fun slice => slice.Covers id i) = 0 := by
  induction h with
  | nil => rfl
  | cons _ ih =>
    rw [List.countP_cons_of_neg, ih (by omega)]
    simp [Slice.Covers]
    omega

/-- Every element between the ends belongs to one of the slices. -/
lemma countP_eq_one (h : Tiles id start slices stop) (hstart : start ≤ i) (hstop : i < stop) :
    slices.countP (fun slice => slice.Covers id i) = 1 := by
  induction h with
  | nil => omega
  | @cons start length stop rest hrest ih =>
    by_cases hi : i < start + length
    · rw [List.countP_cons_of_pos, hrest.countP_eq_zero hi]
      simpa [Slice.Covers] using ⟨hstart, hi⟩
    · rw [List.countP_cons_of_neg, ih (by omega) hstop]
      simp [Slice.Covers]
      omega

end Tiles

namespace Filled

lemma congr {code' : List Instruction} (h : Filled code id size)
    (hwrites : writes code' id = writes code id) : Filled code' id size :=
  ⟨hwrites ▸ h.copies, hwrites ▸ h.tiles⟩

lemma wroteOnce (h : Filled code id size) {i : ℕ} (hi : i < size) : WroteOnce code id i := by
  have hone := h.tiles.countP_eq_one (Nat.zero_le i) hi
  rw [List.countP_map, writes, List.countP_filter] at hone
  rw [WroteOnce, ← hone]
  refine List.countP_congr fun instruction _ => ?_
  simp only [Function.comp_apply, Bool.and_eq_true, decide_eq_true_eq]
  exact ⟨fun h => ⟨h, h.1⟩, fun h => h.1⟩

lemma wrote (h : Filled code id size) {i : ℕ} (hi : i < size) : Wrote code id i := by
  have hpos : 0 < code.countP fun instruction => instruction.dst.Covers id i := by
    rw [h.wroteOnce hi]
    exact Nat.one_pos
  obtain ⟨instruction, hmem, hcovers⟩ := List.countP_pos_iff.mp hpos
  exact ⟨instruction, hmem, of_decide_eq_true hcovers⟩

end Filled

namespace UsedOnce

/-- The last instruction is the one that uses the variable. -/
lemma last {use : Instruction} (hfilled : Filled code id size)
    (huse : use.reads.filter (fun slice => slice.var = id) = [⟨id, 0, size⟩])
    (hdst : use.dst.var ≠ id)
    (hcode : ∀ instruction ∈ code, ∀ slice ∈ instruction.reads, slice.var ≠ id) :
    UsedOnce (code ++ [use]) id size :=
  ⟨code, use, [], rfl, hfilled, huse, hdst, hcode, fun _ hmem => absurd hmem List.not_mem_nil⟩

lemma append_left (h : UsedOnce code id size)
    (hother : ∀ instruction ∈ other, ∀ slice ∈ instruction.slices, slice.var ≠ id) :
    UsedOnce (other ++ code) id size := by
  obtain ⟨before, use, after, rfl, hfilled, huse, hdst, hbefore, hafter⟩ := h
  refine ⟨other ++ before, use, after, (List.append_assoc ..).symm, hfilled.congr ?_, huse, hdst,
    List.forall_mem_append.mpr ⟨fun instruction hmem slice hslice => ?_, hbefore⟩, hafter⟩
  · exact writes_append_left fun instruction hmem => hother instruction hmem _ List.mem_cons_self
  · exact hother instruction hmem slice (Instruction.mem_slices_of_reads hslice)

lemma append_right (h : UsedOnce code id size)
    (hother : ∀ instruction ∈ other, ∀ slice ∈ instruction.slices, slice.var ≠ id) :
    UsedOnce (code ++ other) id size := by
  obtain ⟨before, use, after, rfl, hfilled, huse, hdst, hbefore, hafter⟩ := h
  exact ⟨before, use, after ++ other, by simp, hfilled, huse, hdst, hbefore,
    List.forall_mem_append.mpr ⟨hafter, hother⟩⟩

lemma wroteOnce (h : UsedOnce code id size) {i : ℕ} (hi : i < size) : WroteOnce code id i := by
  obtain ⟨before, use, after, rfl, hfilled, -, hdst, -, hafter⟩ := h
  have hbehind : writes (use :: after) id = [] := writes_eq_nil <|
    List.forall_mem_cons.mpr ⟨hdst, fun instruction hmem => hafter instruction hmem _
      List.mem_cons_self⟩
  exact (hfilled.congr (by rw [writes_append, hbehind, List.append_nil])).wroteOnce hi

end UsedOnce
end

/-! ## Copies -/

section

variable {id : VarId} {slices : List Slice} {size : ℕ}

lemma copy_of_mem_copies {dst : Slice} {offset : ℕ} :
    ∀ instruction ∈ copies dst offset slices, ∃ dst', ∃ src ∈ slices,
      instruction = .copy dst' src := by
  induction slices generalizing offset with
  | nil => exact fun _ hmem => absurd hmem List.not_mem_nil
  | cons src rest ih =>
    refine List.forall_mem_cons.mpr ⟨⟨_, src, List.mem_cons_self, rfl⟩, fun instruction hmem => ?_⟩
    obtain ⟨dst', src', hsrc, rfl⟩ := ih instruction hmem
    exact ⟨dst', src', List.mem_cons_of_mem _ hsrc, rfl⟩

lemma tiles_copies (offset : ℕ) :
    Tiles id offset ((copies ⟨id, 0, size⟩ offset slices).map Instruction.dst)
      (offset + (slices.map Slice.length).sum) := by
  induction slices generalizing offset with
  | nil => exact .nil
  | cons src rest ih =>
    rw [copies, List.map_cons, List.map_cons, List.sum_cons, ← Nat.add_assoc, Instruction.dst,
      Slice.sub, Nat.zero_add]
    exact .cons (ih (offset + src.length))

/-- Copies one after another fill a variable as far as they go. -/
lemma filled_copies (id : VarId) (size : ℕ) (slices : List Slice) :
    Filled (copies ⟨id, 0, size⟩ 0 slices) id (slices.map Slice.length).sum := by
  have hwrites : writes (copies ⟨id, 0, size⟩ 0 slices) id = copies ⟨id, 0, size⟩ 0 slices :=
    writes_eq_self fun instruction hmem => dst_copies instruction hmem
  refine ⟨fun instruction hmem => ?_, ?_⟩
  · obtain ⟨dst, src, -, rfl⟩ := copy_of_mem_copies instruction (mem_writes.mp hmem).1
    exact ⟨dst, src, rfl⟩
  · rw [hwrites]
    simpa only [Nat.zero_add] using tiles_copies 0

end

end Dataflow
