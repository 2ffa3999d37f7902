import Mathlib
import Dataflow.Machine.Call
import Dataflow.Proofs.Except
import Dataflow.Proofs.Storage.Table

/-!
# Reading and writing memory

A memory fits a table of variables if it holds a row of the right length for each of them
(`Memory.Fits`).  A slice that lies inside its variable is read and written as one expects, as long
as its end is a word.
-/

namespace Dataflow

/-- A memory that has the right number of values for every variable. -/
structure Memory.Fits (memory : Memory) (vars : VariableTable) : Prop where
  size : memory.cells.size = vars.size
  holds : ∀ id var, vars.get? id = some var →
    ∃ values, memory.get? id = some values ∧ values.length = var.size

namespace Memory

variable {memory memory' : Memory} {vars : VariableTable} {slice : Slice} {values : List Float}

lemma holder_eq_ok : memory.holder slice = .ok values ↔ memory.get? slice.var = some values ∧
    slice.stop ≤ Word.top ∧ slice.stop ≤ values.length := by
  rw [holder]
  cases memory.get? slice.var with
  | none => simp [Except.throw_ne_ok]
  | some row =>
    rcases slice.stop?_cases with ⟨hword, hstop⟩ | ⟨hword, hstop⟩ <;> simp only [hstop]
    · rw [Except.guard_eq_ok, Except.pure_eq_ok, Option.some.injEq, not_lt]
      constructor
      · rintro ⟨hinside, rfl⟩
        exact ⟨rfl, hword, hinside⟩
      · rintro ⟨rfl, -, hinside⟩
        exact ⟨hinside, rfl⟩
    · simp only [Except.throw_ne_ok, hword.not_ge, false_and, and_false]

lemma read_of_holder (h : memory.holder slice = .ok values) :
    memory.read slice = .ok ((values.drop slice.offset).take slice.length) := by
  rw [read, h]
  rfl

lemma write_of_holder (h : memory.holder slice = .ok values) (replacement : List Float) :
    memory.write slice replacement = .ok (memory.set slice.var
      (overwrite slice.offset (replacement.take slice.length) values)) := by
  rw [write, h]
  rfl

lemma write_eq_ok {replacement : List Float} (h : memory.write slice replacement = .ok memory') :
    ∃ values, memory.holder slice = .ok values ∧ memory' = memory.set slice.var
      (overwrite slice.offset (replacement.take slice.length) values) := by
  obtain ⟨values, hvalues, hset⟩ := Except.bind_eq_ok.mp h
  exact ⟨values, hvalues, (Except.pure_eq_ok.mp hset).symm⟩

lemma read_eq (h : memory.get? slice.var = some values)
    (hstop : slice.offset + slice.length ≤ values.length) (hword : values.length < Word.count) :
    memory.read slice = .ok ((values.drop slice.offset).take slice.length) :=
  read_of_holder (holder_eq_ok.mpr ⟨h, Nat.le_of_lt_succ (hstop.trans_lt hword), hstop⟩)

/-- Reading all of a variable. -/
lemma read_whole {id : VarId} {size : ℕ} (h : memory.get? id = some values)
    (hsize : values.length = size) (hword : size < Word.count) :
    memory.read ⟨id, 0, size⟩ = .ok values := by
  have hread : memory.read ⟨id, 0, size⟩ = .ok ((values.drop 0).take size) :=
    read_eq h (by simp only; omega) (by omega)
  rw [hread, List.drop_zero, List.take_of_length_le hsize.le]

lemma read_congr (h : memory'.get? slice.var = memory.get? slice.var) :
    memory'.read slice = memory.read slice := by
  rw [read, read, holder, holder, h]

lemma write_eq (h : memory.get? slice.var = some values)
    (hstop : slice.offset + slice.length ≤ values.length) (hword : values.length < Word.count)
    (replacement : List Float) :
    memory.write slice replacement = .ok (memory.set slice.var
      (overwrite slice.offset (replacement.take slice.length) values)) :=
  write_of_holder (holder_eq_ok.mpr ⟨h, Nat.le_of_lt_succ (hstop.trans_lt hword), hstop⟩)
    replacement

/-- Overwriting everything leaves nothing of what was there. -/
lemma overwrite_whole {replacement : List Float} (h : replacement.length = values.length) :
    overwrite 0 replacement values = replacement := by
  rw [overwrite, List.take_zero, List.nil_append, Nat.zero_add, h, List.drop_length,
    List.append_nil]

/-- Overwriting two adjacent parts is overwriting both at once. -/
lemma overwrite_overwrite {offset : ℕ} (first second values : List Float)
    (h : offset + first.length ≤ values.length) :
    overwrite (offset + first.length) second (overwrite offset first values) =
      overwrite offset (first ++ second) values := by
  have htake : (values.take offset).length = offset := by
    rw [List.length_take]
    omega
  have hfirst : (values.take offset ++ first).length = offset + first.length := by
    rw [List.length_append, htake]
  unfold overwrite
  rw [List.take_left' hfirst, List.drop_append, hfirst,
    List.drop_eq_nil_of_le (by omega), List.nil_append, List.drop_drop, List.length_append,
    List.append_assoc, Nat.add_sub_cancel_left, Nat.add_assoc]
  simp only [List.append_assoc]

namespace Fits

variable {id : VarId} {var : Variable}

lemma set (h : memory.Fits vars) (hvar : vars.get? id = some var)
    (hlength : values.length = var.size) : (memory.set id values).Fits vars := by
  have hlt : id.index < memory.cells.size := by
    rw [h.size]
    exact vars.lt_size_of_get? hvar
  refine ⟨(size_set _ _ _).trans h.size, fun other var' hvar' => ?_⟩
  by_cases heq : id = other
  · subst heq
    rw [hvar] at hvar'
    cases hvar'
    exact ⟨values, get?_set_self memory hlt values, hlength⟩
  · rw [get?_set_of_ne memory heq]
    exact h.holds other var' hvar'

/-- A row that is stored for no variable is not stored at all. -/
lemma replace (h : memory.Fits vars)
    (hlength : ∀ var, vars.get? id = some var → values.length = var.size) :
    (memory.set id values).Fits vars := by
  cases hvar : vars.get? id with
  | some var => exact h.set hvar (hlength var hvar)
  | none =>
    have hbeyond : memory.cells.size ≤ id.index := by
      by_contra hlt
      obtain ⟨var, hsome⟩ := vars.exists_get? (h.size ▸ not_le.mp hlt)
      cases hvar.symm.trans hsome
    rwa [Memory.set, Array.setIfInBounds_eq_of_size_le hbeyond]

lemma get?_set (h : memory.Fits vars) (hvar : vars.get? id = some var) :
    (memory.set id values).get? id = some values := by
  refine get?_set_self memory ?_ values
  rw [h.size]
  exact vars.lt_size_of_get? hvar

end Fits

end Memory

namespace Program

variable {program : Program}

lemma get?_initialMemory {id : VarId} {var : Variable} (h : program.vars.get? id = some var) :
    program.initialMemory.get? id = some var.initialContents := by
  rw [Memory.get?, initialMemory, Array.getElem?_map]
  exact congrArg (Option.map Variable.initialContents) h

lemma initialMemory_fits (program : Program) : program.initialMemory.Fits program.vars :=
  ⟨Array.size_map .., fun _ var hvar => ⟨_, get?_initialMemory hvar, var.length_initialContents⟩⟩

end Program
end Dataflow
