import Dataflow.Storage.Variable

/-!
# Variable tables

A table numbers its variables in the order of their declaration.  It only grows, except that it can
be cut back to an earlier length, which takes back everything that was declared since.
-/

namespace Dataflow

/-- A table of variables. -/
structure VariableTable where
  /-- The variables, each at the position of its number. -/
  entries : Array Variable
deriving DecidableEq, Repr

namespace VariableTable

/-- The table without variables. -/
def empty : VariableTable := ⟨#[]⟩

/-- The number of variables. -/
def size (table : VariableTable) : Nat := table.entries.size

/-- The number that the next variable will have. -/
def next (table : VariableTable) : VarId := ⟨table.size⟩

/-- The variable with a given number. -/
def get? (table : VariableTable) (id : VarId) : Option Variable := table.entries[id.index]?

/-- The variables in the order of their numbers. -/
def toList (table : VariableTable) : List Variable := table.entries.toList

/-- The table with one variable more.  No storage is reserved for it yet. -/
def declare (table : VariableTable) (spec : VariableSpec) : VariableTable :=
  { entries := table.entries.push
      { id := table.next,
        name := spec.name.getD (spec.storage.letter ++ "_" ++ toString table.size),
        storage := spec.storage, elementType := spec.elementType, size := spec.size,
        initializer := spec.initializer, allocated := false } }

/-- Notes whether storage is reserved for a variable. -/
def setAllocated (table : VariableTable) (id : VarId) (allocated : Bool) : VariableTable :=
  match table.get? id with
  | some var => ⟨table.entries.setIfInBounds id.index { var with allocated }⟩
  | none => table

/-- The table cut back to its first `count` variables. -/
def truncate (table : VariableTable) (count : Nat) : VariableTable :=
  ⟨table.entries.take count⟩

@[simp] theorem size_empty : empty.size = 0 := rfl

@[simp] theorem size_declare (table : VariableTable) (spec : VariableSpec) :
    (table.declare spec).size = table.size + 1 := by
  simp [declare, size]

@[simp] theorem size_setAllocated (table : VariableTable) (id : VarId) (allocated : Bool) :
    (table.setAllocated id allocated).size = table.size := by
  unfold setAllocated
  split <;> simp [size]

@[simp] theorem size_truncate (table : VariableTable) (count : Nat) :
    (table.truncate count).size = min count table.size := by
  simp [truncate, size]

@[simp] theorem toList_declare (table : VariableTable) (spec : VariableSpec) :
    (table.declare spec).toList = table.toList ++
      [{ id := table.next,
         name := spec.name.getD (spec.storage.letter ++ "_" ++ toString table.size),
         storage := spec.storage, elementType := spec.elementType, size := spec.size,
         initializer := spec.initializer, allocated := false }] := by
  simp [declare, toList]

end VariableTable
end Dataflow
