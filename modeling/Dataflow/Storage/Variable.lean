import Dataflow.ElementType
import Dataflow.Number.Decimal
import Dataflow.Word

/-!
# Variables

A variable describes a vector of storage: who may see it and for how long, its element type and
length, and what it holds at first.
-/

namespace Dataflow

/-- The number of a variable. -/
structure VarId where
  /-- The position in the variable table. -/
  index : Nat
deriving DecidableEq, Repr

/-- A variable number as it is shown. -/
def VarId.text (id : VarId) : String := "v" ++ toString id.index

/-- Who sees a variable and how long its contents last. -/
inductive StorageClass where
  /-- Storage of the whole program, kept from call to call. -/
  | global
  /-- Storage of one call. -/
  | scratch
  /-- A parameter that the function reads. -/
  | input
  /-- A parameter that the function writes. -/
  | output
deriving DecidableEq, Repr

namespace StorageClass

/-- The name of a storage class in listings. -/
def name : StorageClass → String
  | global => "global"
  | scratch => "local"
  | input => "input"
  | output => "output"

/-- What the generated names of variables of a class begin with. -/
def letter : StorageClass → String
  | global => "g"
  | scratch => "t"
  | input => "in"
  | output => "out"

/-- Whether variables of a class are parameters. -/
def isParameter : StorageClass → Bool
  | global => false
  | scratch => false
  | input => true
  | output => true

end StorageClass

/-- What a variable holds at first. -/
inductive Initializer where
  /-- Zeros. -/
  | zero
  /-- One value in every element. -/
  | fill (value : Float)
  /-- The given values. -/
  | data (values : List Float)
deriving DecidableEq, Repr

namespace Initializer

/-- One value in every element, where zeros of either sign count as no value. -/
def ofFill (value : Float) : Initializer := if value == 0 then .zero else .fill value

/-- The value of one element. -/
def valueAt : Initializer → Nat → Float
  | zero, _ => 0
  | fill value, _ => value
  | data values, index => values[index]?.getD 0

/-- How an initializer is written in a listing. -/
def text : Initializer → String
  | zero => ""
  | fill value => " = fill " ++ Number.text value
  | data values => " = [" ++ Number.textList values ++ "]"

end Initializer

/-- The name and type of a function parameter. -/
structure Parameter where
  /-- The name of the parameter. -/
  name : String
  /-- Whether the function reads or writes it. -/
  storage : StorageClass
  /-- The type of the elements. -/
  elementType : ElementType
  /-- The number of elements. -/
  size : Nat
deriving DecidableEq, Repr

/-- A parameter as it is written in a signature. -/
def Parameter.text (parameter : Parameter) : String :=
  let role := if parameter.storage = .output then "out " else ""
  s!"{role}{parameter.name}: {parameter.elementType.name}[{parameter.size}]"

/-- A variable before it has a number.  A variable without a name of its own gets one made of its
storage class and its number. -/
structure VariableSpec where
  /-- The name, if the variable has one of its own. -/
  name : Option String
  /-- The storage class. -/
  storage : StorageClass
  /-- The type of the elements. -/
  elementType : ElementType
  /-- The number of elements. -/
  size : Nat
  /-- What the variable holds at first. -/
  initializer : Initializer
deriving DecidableEq, Repr

/-- A variable. -/
structure Variable where
  /-- The number of the variable. -/
  id : VarId
  /-- The name of the variable. -/
  name : String
  /-- The storage class. -/
  storage : StorageClass
  /-- The type of the elements. -/
  elementType : ElementType
  /-- The number of elements. -/
  size : Nat
  /-- What the variable holds at first. -/
  initializer : Initializer
  /-- Whether storage has been reserved for the variable. -/
  allocated : Bool
deriving DecidableEq, Repr

namespace Variable

/-- The bytes that the variable takes on the target, unless their number is no word. -/
def sizeBytes? (var : Variable) : Option Nat :=
  Word.ofNat? (var.size * var.elementType.sizeBytes)

/-- The variable seen as a parameter. -/
def toParameter (var : Variable) : Parameter :=
  ⟨var.name, var.storage, var.elementType, var.size⟩

/-- What the storage of the variable holds at first: the values of the initializer, coerced to the
element type, and zeros where the initializer has too few values. -/
def initialContents (var : Variable) : List Float :=
  let coerce := var.elementType.coerce
  match var.initializer with
  | .zero => List.replicate var.size (coerce 0)
  | .fill value => List.replicate var.size (coerce value)
  | .data values =>
    (values.take var.size).map coerce ++ List.replicate (var.size - values.length) (coerce 0)

@[simp] theorem length_initialContents (var : Variable) :
    var.initialContents.length = var.size := by
  unfold initialContents
  cases var.initializer <;> simp; omega

theorem getElem?_initialContents (var : Variable) {index : Nat} (h : index < var.size) :
    var.initialContents[index]? =
      some (var.elementType.coerce (var.initializer.valueAt index)) := by
  unfold initialContents
  cases var.initializer with
  | zero => simp [Initializer.valueAt, h]
  | fill value => simp [Initializer.valueAt, h]
  | data values =>
    simp only [Initializer.valueAt]
    by_cases hlt : index < values.length
    · rw [List.getElem?_append_left (by simp; omega)]
      simp [h, hlt]
    · have hge : values.length ≤ index := by omega
      have hle : values.length ≤ var.size := by omega
      rw [List.getElem?_append_right (by simp; omega)]
      simp only [List.length_map, List.length_take, Nat.min_eq_right hle,
        List.getElem?_eq_none hge, Option.getD_none, List.getElem?_replicate]
      rw [if_pos (by omega)]

end Variable
end Dataflow
