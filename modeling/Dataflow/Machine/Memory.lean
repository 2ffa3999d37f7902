import Dataflow.Machine.Error

/-!
# Memory

The memory of a machine holds the values of every variable.  Slices are read and written as a whole:
a slice that reaches outside its variable is an error, and nothing is written then.
-/

namespace Dataflow

/-- The values of each variable, at the position of its number. -/
structure Memory where
  /-- The values. -/
  cells : Array (List Float)
deriving DecidableEq, Repr

namespace Memory

/-- The values of a variable. -/
def get? (memory : Memory) (var : VarId) : Option (List Float) := memory.cells[var.index]?

/-- The memory with other values for a variable. -/
def set (memory : Memory) (var : VarId) (values : List Float) : Memory :=
  ⟨memory.cells.setIfInBounds var.index values⟩

/-- The values of the variable of a slice, if the slice lies inside it. -/
def holder (memory : Memory) (slice : Slice) : Except CallError (List Float) := do
  let some values := memory.get? slice.var | throw (.invalidSlice slice)
  let some stop := slice.stop? | throw .overflow
  if values.length < stop then throw (.invalidSlice slice)
  return values

/-- The values of a slice. -/
def read (memory : Memory) (slice : Slice) : Except CallError (List Float) := do
  let values ← memory.holder slice
  return (values.drop slice.offset).take slice.length

/-- A list with some of its elements, from an offset on, replaced by others. -/
def overwrite (offset : Nat) (replacement values : List Float) : List Float :=
  values.take offset ++ replacement ++ values.drop (offset + replacement.length)

/-- The memory with other values at the beginning of a slice. -/
def write (memory : Memory) (slice : Slice) (replacement : List Float) :
    Except CallError Memory := do
  let values ← memory.holder slice
  return memory.set slice.var (overwrite slice.offset (replacement.take slice.length) values)

theorem length_overwrite (offset : Nat) (replacement values : List Float)
    (h : offset + replacement.length ≤ values.length) :
    (overwrite offset replacement values).length = values.length := by
  simp [overwrite]
  omega

@[simp] theorem size_set (memory : Memory) (var : VarId) (values : List Float) :
    (memory.set var values).cells.size = memory.cells.size := by
  simp [set]

theorem get?_set_self (memory : Memory) {var : VarId} (h : var.index < memory.cells.size)
    (values : List Float) : (memory.set var values).get? var = some values := by
  simp [get?, set, h]

theorem get?_set_of_ne (memory : Memory) {var other : VarId} (h : var ≠ other)
    (values : List Float) : (memory.set var values).get? other = memory.get? other := by
  have hindex : var.index ≠ other.index := fun heq => h (by cases var; cases other; simp_all)
  simp [get?, set, Array.getElem?_setIfInBounds_ne hindex]

end Memory
end Dataflow
