import Dataflow.Proofs.Storage.Table

/-!
# The storage of a table

How many elements of storage are reserved for the variables of a table (`VariableTable.reserved`),
and how many those variables would take for which none is reserved.  Reserving storage for a
variable adds its size, also to every part of the table that it lies in.
-/

namespace Dataflow
namespace VariableTable

/-- The elements of the variables that have storage. -/
def reserved (table : VariableTable) : ℕ :=
  ((table.toList.filter fun var => var.allocated).map Variable.size).sum

/-- The elements of the variables that have none. -/
def unreserved (table : VariableTable) : ℕ :=
  ((table.toList.filter fun var => !var.allocated).map Variable.size).sum

variable (table : VariableTable)

/-- Every variable either has storage or has none. -/
lemma reserved_add_unreserved :
    table.reserved + table.unreserved = (table.toList.map Variable.size).sum := by
  rw [reserved, unreserved, ← List.sum_append, ← List.map_append]
  exact ((List.filter_append_perm _ _).map _).sum_eq

/-- A declared variable has no storage yet. -/
lemma reserved_declare (spec : VariableSpec) : (table.declare spec).reserved = table.reserved := by
  rw [reserved, toList_declare_variable, List.filter_append]
  exact congrArg (fun vars => (vars.map Variable.size).sum) (List.append_nil _)

lemma unreserved_declare (spec : VariableSpec) :
    (table.declare spec).unreserved = table.unreserved + spec.size := by
  rw [unreserved, toList_declare_variable, List.filter_append, List.map_append, List.sum_append]
  rfl

variable {table} {id : VarId} {var : Variable}

/-- A variable that comes with its storage. -/
lemma unreserved_push {table' : VariableTable} (h : table'.toList = table.toList ++ [var])
    (hvar : var.allocated = true) : table'.unreserved = table.unreserved := by
  have hnone : [var].filter (fun var => !var.allocated) = [] := by
    rw [List.filter_singleton, hvar]
    rfl
  rw [unreserved, h, List.filter_append, hnone, List.append_nil, unreserved]

lemma reserved_setAllocated (hvar : table.get? id = some var) (hfree : var.allocated = false) :
    (table.setAllocated id true).reserved = table.reserved + var.size := by
  rw [get?_eq] at hvar
  obtain ⟨hlt, hat⟩ := List.getElem?_eq_some_iff.mp hvar
  have hbefore : table.toList =
      table.toList.take id.index ++ var :: table.toList.drop (id.index + 1) := by
    rw [← hat, List.getElem_cons_drop, List.take_append_drop]
  have hafter : (table.setAllocated id true).toList =
      table.toList.take id.index ++ var.withAllocated true :: table.toList.drop (id.index + 1) := by
    rw [toList_setAllocated, List.modify_eq_take_cons_drop hlt, hat]
  rw [reserved, reserved, hafter]
  conv_rhs => rw [hbefore]
  simp [hfree, Variable.withAllocated]
  omega

/-- Reserving storage and cutting a table back may change places. -/
lemma truncate_setAllocated_comm (count : ℕ) :
    (table.setAllocated id true).truncate count = (table.truncate count).setAllocated id true := by
  apply toList_injective
  simp only [toList_truncate, toList_setAllocated, List.take_modify]

/-- Cutting a table back twice is cutting it back once. -/
lemma truncate_truncate (count : ℕ) :
    (table.truncate count).truncate count = table.truncate count := by
  apply toList_injective
  rw [toList_truncate, toList_truncate, List.take_take, min_self]

end VariableTable
end Dataflow
