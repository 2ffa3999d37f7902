import Dataflow.Number.Binary64

/-!
# Element types

Every port carries elements of one type.  All arithmetic is done on doubles; the type of a storage
slot decides what is left of a value when it is stored there.
-/

namespace Dataflow

/-- The type of the elements of a port. -/
inductive ElementType where
  /-- A double, stored as it is. -/
  | real
  /-- A single-precision number. -/
  | float
  /-- A 32-bit integer. -/
  | int
  /-- A truth value, stored as one or zero. -/
  | bool
deriving DecidableEq, Repr

namespace ElementType

/-- The name of a type in model texts and listings. -/
def name : ElementType → String
  | real => "real"
  | float => "float"
  | int => "int"
  | bool => "bool"

/-- The type with a given name. -/
def ofName? : String → Option ElementType
  | "real" => some real
  | "float" => some float
  | "int" => some int
  | "bool" => some bool
  | _ => none

/-- The bytes that one element takes on the target. -/
def sizeBytes : ElementType → Nat
  | real => 8
  | float => 4
  | int => 4
  | bool => 1

/-- What a slot of the type keeps of a value: a single-precision slot rounds, an integer slot drops
the fraction and stops at the ends of its range, and a truth value is one unless the value is zero.
A value that is no number is zero as an integer and one as a truth value. -/
def coerce : ElementType → Float → Float
  | real, v => v
  | float, v => Number.roundSingle v
  | int, v => Number.ofInt (Number.truncate v)
  | bool, v => if v == 0 then 0 else 1

@[simp] theorem ofName?_name (t : ElementType) : ofName? t.name = some t := by
  cases t <;> rfl

@[simp] theorem coerce_real (v : Float) : real.coerce v = v := rfl

end ElementType
end Dataflow
