import Dataflow.Proofs.Backend.Operations
import Dataflow.Proofs.Storage.Table

/-!
# Admissible instructions

What an assembler has checked of an instruction by the time it takes it: every slice lies inside an
allocated variable, nothing is written to an input, and the lengths fit.
Checks stay true when variables are added behind the others (`VariableTable.Prefix`).
-/

namespace Dataflow

/-- A table that another one goes on from. -/
def VariableTable.Prefix (table table' : VariableTable) : Prop := table.toList <+: table'.toList

namespace VariableTable.Prefix

variable {table table' table'' : VariableTable}

lemma refl (table : VariableTable) : table.Prefix table := List.prefix_refl _

lemma trans (h : table.Prefix table') (h' : table'.Prefix table'') : table.Prefix table'' :=
  List.IsPrefix.trans h h'

lemma get? (h : table.Prefix table') {id : VarId} {var : Variable}
    (hvar : table.get? id = some var) : table'.get? id = some var := by
  rw [get?_eq] at hvar ⊢
  obtain ⟨more, hmore⟩ := h
  rw [← hmore, List.getElem?_append_left (List.getElem?_eq_some_iff.mp hvar).1, hvar]

lemma size_le (h : table.Prefix table') : table.size ≤ table'.size := by
  have := List.IsPrefix.length_le h
  rwa [length_toList, length_toList] at this

/-- A table goes on from its own beginning. -/
lemma truncate (table : VariableTable) (count : ℕ) : (table.truncate count).Prefix table := by
  rw [Prefix, toList_truncate]
  exact List.take_prefix count table.toList

lemma to_truncate (h : table.Prefix table') : table.Prefix (table'.truncate table.size) := by
  rw [Prefix, toList_truncate, ← length_toList, ← List.prefix_iff_eq_take.mp h]

end VariableTable.Prefix

/-- A slice that lies inside an allocated variable, one that may be written if the flag is set. -/
def Slice.Inside (slice : Slice) (vars : VariableTable) (written : Bool) : Prop :=
  ∃ var, vars.get? slice.var = some var ∧ var.allocated = true ∧ slice.stop ≤ Word.top ∧
    slice.length ≠ 0 ∧ slice.stop ≤ var.size ∧ ¬ (written = true ∧ var.storage = .input)

/-- An instruction that an assembler with the given variables takes. -/
structure Instruction.Admissible (vars : VariableTable) (instruction : Instruction) : Prop where
  dst : instruction.dst.Inside vars true
  sources : ∀ slice ∈ instruction.sources, slice.Inside vars false
  lengths : instruction.lengthsFit = true

lemma Slice.Inside.mono {slice : Slice} {vars vars' : VariableTable} {written : Bool}
    (h : slice.Inside vars written) (htable : vars.Prefix vars') : slice.Inside vars' written := by
  obtain ⟨var, hvar, hrest⟩ := h
  exact ⟨var, htable.get? hvar, hrest⟩

lemma Instruction.Admissible.mono {instruction : Instruction} {vars vars' : VariableTable}
    (h : instruction.Admissible vars) (htable : vars.Prefix vars') :
    instruction.Admissible vars' :=
  ⟨h.dst.mono htable, fun slice hslice => (h.sources slice hslice).mono htable, h.lengths⟩

namespace Assembler

variable {a : Assembler}

lemma checkSlice_eq_ok {slice : Slice} {written : Bool} :
    a.checkSlice slice written = .ok () ↔ slice.Inside a.vars written := by
  rw [checkSlice, Slice.Inside]
  cases a.vars.get? slice.var with
  | none => simp [Except.throw_ne_ok]
  | some var =>
    simp only [Except.guard_eq_ok, Option.some.injEq, exists_eq_left', Bool.not_eq_true',
      Bool.not_eq_false]
    refine and_congr_right fun _ => ?_
    rcases slice.stop?_cases with ⟨hword, hstop⟩ | ⟨hword, hstop⟩ <;> rw [hstop]
    · simp only [Except.guard_eq_ok, Except.unless_eq_ok, not_or, not_lt, ne_eq, and_assoc, hword,
        true_and]
    · simp only [Except.throw_ne_ok, hword.not_ge, false_and]

lemma checkInstruction_eq_ok {instruction : Instruction} :
    a.checkInstruction instruction = .ok () ↔ instruction.Admissible a.vars := by
  rw [checkInstruction]
  simp only [Except.bind_eq_ok, Except.unless_eq_ok, Unique.exists_iff]
  constructor
  · rintro ⟨hdst, hsources, hlengths⟩
    exact ⟨checkSlice_eq_ok.mp hdst,
      fun slice hslice => checkSlice_eq_ok.mp (Except.forM_eq_ok.mp hsources slice hslice),
      by simpa using hlengths⟩
  · rintro ⟨hdst, hsources, hlengths⟩
    exact ⟨checkSlice_eq_ok.mpr hdst,
      Except.forM_eq_ok.mpr fun slice hslice => checkSlice_eq_ok.mpr (hsources slice hslice),
      by simpa using hlengths⟩

end Assembler
end Dataflow
