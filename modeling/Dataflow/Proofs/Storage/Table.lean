import Mathlib
import Dataflow.Storage.Table

/-!
# Lookups in variable tables

A table is the list of its variables.  A declared variable comes last, cutting a table back undoes
declarations, and reserving storage changes nothing but a flag.
-/

namespace Dataflow

/-- A variable with or without storage. -/
def Variable.withAllocated (var : Variable) (allocated : Bool) : Variable := { var with allocated }

/-- The variable that a specification describes, before storage is reserved for it. -/
def VariableSpec.variable (spec : VariableSpec) (id : VarId) : Variable :=
  { id
    name := spec.name.getD (spec.storage.letter ++ "_" ++ toString id.index)
    storage := spec.storage
    elementType := spec.elementType
    size := spec.size
    initializer := spec.initializer
    allocated := false }

lemma Variable.initialContents_data {var : Variable} {values : List Float}
    (h : var.initializer = .data values) (hlength : values.length = var.size) :
    var.initialContents = values.map var.elementType.coerce := by
  rw [initialContents, h]
  simp only
  rw [hlength, Nat.sub_self, List.take_of_length_le hlength.le, List.replicate_zero,
    List.append_nil]

lemma Variable.initialContents_zero {var : Variable} (h : var.initializer = .zero) :
    var.initialContents = List.replicate var.size (var.elementType.coerce 0) := by
  rw [initialContents, h]

namespace VariableTable

variable (table : VariableTable)

lemma toList_injective {table table' : VariableTable} (h : table.toList = table'.toList) :
    table = table' := by
  obtain ⟨entries⟩ := table
  obtain ⟨entries'⟩ := table'
  exact congrArg mk (Array.toList_inj.mp h)

@[simp] lemma length_toList : table.toList.length = table.size := Array.length_toList

lemma get?_eq (id : VarId) : table.get? id = table.toList[id.index]? := by
  simp [get?, toList]

lemma get?_eq_none {id : VarId} (h : table.size ≤ id.index) : table.get? id = none := by
  rw [get?_eq, List.getElem?_eq_none (by rwa [length_toList])]

lemma lt_size_of_get? {id : VarId} {var : Variable} (h : table.get? id = some var) :
    id.index < table.size := by
  by_contra hge
  rw [get?_eq_none table (not_lt.mp hge)] at h
  cases h

lemma exists_get? {id : VarId} (h : id.index < table.size) : ∃ var, table.get? id = some var :=
  ⟨_, Array.getElem?_eq_getElem h⟩

/-- Two variables count towards the sum over the table. -/
lemma add_le_sum (f : Variable → ℕ) {id other : VarId} {var var' : Variable} (h : id ≠ other)
    (hvar : table.get? id = some var) (hvar' : table.get? other = some var') :
    f var + f var' ≤ (table.toList.map f).sum := by
  have hle : ∀ {i j : ℕ} {u v : Variable}, i < j → table.toList[i]? = some u →
      table.toList[j]? = some v → f u + f v ≤ (table.toList.map f).sum := by
    intro i j u v hij hu hv
    have hbefore : u ∈ table.toList.take j :=
      List.mem_of_getElem? ((List.getElem?_take_of_lt hij).trans hu)
    have hbehind : v ∈ table.toList.drop j :=
      List.mem_of_getElem? (i := 0) (by rw [List.getElem?_drop, Nat.add_zero, hv])
    rw [← List.take_append_drop j table.toList, List.map_append, List.sum_append]
    exact Nat.add_le_add (List.le_sum_of_mem (List.mem_map_of_mem hbefore))
      (List.le_sum_of_mem (List.mem_map_of_mem hbehind))
  rw [get?_eq] at hvar hvar'
  have hne : id.index ≠ other.index := fun heq => h (congrArg VarId.mk heq)
  rcases Nat.lt_or_gt_of_ne hne with hlt | hgt
  · exact hle hlt hvar hvar'
  · exact (Nat.add_comm _ _).trans_le (hle hgt hvar' hvar)

/-! ## Declaring -/

lemma toList_declare_variable (spec : VariableSpec) :
    (table.declare spec).toList = table.toList ++ [spec.variable table.next] := by
  rw [toList_declare]
  rfl

lemma get?_next {table table' : VariableTable} {var : Variable}
    (h : table'.toList = table.toList ++ [var]) : table'.get? table.next = some var := by
  rw [get?_eq, h, next, ← length_toList, List.getElem?_concat_length]

/-- What a table holds after one variable has been added. -/
lemma get?_of_concat {table table' : VariableTable} {id : VarId} {var new : Variable}
    (h : table'.toList = table.toList ++ [new]) (hvar : table'.get? id = some var) :
    table.get? id = some var ∨ id = table.next ∧ var = new := by
  rw [get?_eq, h] at hvar
  rcases Nat.lt_or_ge id.index table.toList.length with hold | hnew
  · left
    rwa [List.getElem?_append_left hold, ← get?_eq] at hvar
  · right
    rw [List.getElem?_append_right hnew, List.getElem?_singleton] at hvar
    split at hvar
    · next hfirst =>
      have hindex : id.index = table.size := by
        rw [length_toList] at hfirst hnew
        omega
      exact ⟨congrArg VarId.mk hindex, (Option.some.inj hvar).symm⟩
    · cases hvar

/-- A table that is numbered by position stays so if the number of a new variable is the next. -/
lemma numbered_concat {table table' : VariableTable} {new : Variable}
    (h : ∀ id var, table.get? id = some var → var.id = id)
    (hlist : table'.toList = table.toList ++ [new]) (hnew : new.id = table.next) :
    ∀ id var, table'.get? id = some var → var.id = id := by
  intro id var hvar
  obtain hold | ⟨rfl, rfl⟩ := get?_of_concat hlist hvar
  · exact h id var hold
  · exact hnew

lemma get?_declare_next (spec : VariableSpec) :
    (table.declare spec).get? table.next = some (spec.variable table.next) :=
  get?_next (table.toList_declare_variable spec)

/-! ## Reserving storage -/

lemma toList_setAllocated (id : VarId) (allocated : Bool) :
    (table.setAllocated id allocated).toList =
      table.toList.modify id.index fun var => var.withAllocated allocated := by
  rw [setAllocated]
  apply List.ext_getElem?
  intro index
  cases hvar : table.get? id with
  | none =>
    rw [get?_eq] at hvar
    rw [List.getElem?_modify]
    split_ifs with h
    · rw [← h, hvar]
      rfl
    · simp
  | some var =>
    rw [get?_eq] at hvar
    have hlt := (List.getElem?_eq_some_iff.mp hvar).1
    simp only [toList, Array.toList_setIfInBounds, List.getElem?_set, List.getElem?_modify]
    split_ifs with h1 h2
    · rw [← h1]
      rw [toList] at hvar
      rw [hvar]
      rfl
    · exact absurd hlt h2
    · simp

lemma get?_setAllocated (id other : VarId) (allocated : Bool) :
    (table.setAllocated id allocated).get? other =
      if other = id then (table.get? other).map fun var => var.withAllocated allocated
      else table.get? other := by
  rw [get?_eq, get?_eq, toList_setAllocated, List.getElem?_modify]
  split_ifs with h1 h2 h3
  · rfl
  · exact absurd (congrArg VarId.mk h1.symm) h2
  · exact absurd (congrArg VarId.index h3.symm) h1
  · simp

/-! ## Cutting back -/

lemma toList_truncate (count : ℕ) : (table.truncate count).toList = table.toList.take count := by
  simp [truncate, toList]

lemma get?_truncate_eq_some {count : ℕ} {id : VarId} {var : Variable} :
    (table.truncate count).get? id = some var ↔
      id.index < count ∧ table.get? id = some var := by
  rw [get?_eq, get?_eq, toList_truncate, List.getElem?_take]
  split_ifs with hlt
  · exact (and_iff_right hlt).symm
  · exact iff_of_false (fun h => (nomatch h)) fun h => hlt h.1

lemma truncate_size : table.truncate table.size = table := by
  apply toList_injective
  rw [toList_truncate, List.take_of_length_le (by simp)]

lemma truncate_declare (spec : VariableSpec) {count : ℕ} (h : count ≤ table.size) :
    (table.declare spec).truncate count = table.truncate count := by
  apply toList_injective
  rw [toList_truncate, toList_truncate, toList_declare_variable,
    List.take_append_of_le_length (by rwa [length_toList])]

lemma truncate_setAllocated {id : VarId} (allocated : Bool) {count : ℕ} (h : count ≤ id.index) :
    (table.setAllocated id allocated).truncate count = table.truncate count := by
  apply toList_injective
  rw [toList_truncate, toList_truncate, toList_setAllocated]
  apply List.ext_getElem?
  intro index
  rw [List.getElem?_take, List.getElem?_take, List.getElem?_modify]
  split_ifs with h1 h2
  · omega
  · simp
  · rfl

end VariableTable
end Dataflow
