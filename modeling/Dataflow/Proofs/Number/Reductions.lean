import Dataflow.Proofs.Number.Coercion

/-!
# Reductions

A reduction folds values into a slot that it has filled with its identity, and the slot stores the
total each time that a part of the values has been folded into it (`ReduceOp.parted`).
-/

namespace Dataflow
namespace ReduceOp

open Number

variable {op : ReduceOp} {elementType : ElementType} {a b value : Float} {values : List Float}
variable {parts : List (List Float)}

/-- The larger or the smaller of two values. -/
def IsExtreme (op : ReduceOp) : Prop := op = max ∨ op = min

instance : Decidable op.IsExtreme := inferInstanceAs (Decidable (_ ∨ _))

/-- What a slot holds after parts of a row have been folded into it, one after another. -/
def parted (op : ReduceOp) (elementType : ElementType) (parts : List (List Float)) : Float :=
  parts.foldl (fun total part => elementType.coerce (part.foldl op.combine total))
    (elementType.coerce op.identity)

/-! ## The larger and the smaller of two values -/

lemma isNaN_combine (hop : op.IsExtreme) (ha : a.isNaN = false) :
    (op.combine a value).isNaN = false := by
  cases hvalue : value.isNaN with
  | true =>
    rcases hop with rfl | rfl
    · rwa [combine, larger_of_isNaN hvalue]
    · rwa [combine, smaller_of_isNaN hvalue]
  | false =>
    rcases hop with rfl | rfl
    · rw [combine, larger_eq ha hvalue]
      split_ifs <;> assumption
    · rw [combine, smaller_eq ha hvalue]
      split_ifs <;> assumption

/-- Two totals that are numbers and are stored at the same place of the order. -/
structure Close (elementType : ElementType) (a b : Float) : Prop where
  left : a.isNaN = false
  right : b.isNaN = false
  key_eq : key (elementType.coerce a) = key (elementType.coerce b)

/-- What is stored of the larger or the smaller of two values depends on what is stored of each. -/
lemma Close.combine (hop : op.IsExtreme) (htype : elementType ≠ .bool)
    (h : Close elementType a b) (value : Float) :
    Close elementType (op.combine a value) (op.combine b value) := by
  obtain ⟨ha, hb, hkey⟩ := h
  refine ⟨isNaN_combine hop ha, isNaN_combine hop hb, ?_⟩
  cases hvalue : value.isNaN with
  | true =>
    rcases hop with rfl | rfl
    · rwa [combine, combine, larger_of_isNaN hvalue, larger_of_isNaN hvalue]
    · rwa [combine, combine, smaller_of_isNaN hvalue, smaller_of_isNaN hvalue]
  | false =>
    -- if the value replaces one total only, then it is stored at the place of both
    have hmono := fun {x y : Float} => ElementType.key_coerce_mono htype (a := x) (b := y)
    rcases hop with rfl | rfl
    · rw [combine, combine, larger_eq ha hvalue, larger_eq hb hvalue]
      split_ifs with hlt hlt' hlt'
      · rfl
      · have := hmono ha hvalue hlt.le
        have := hmono hvalue hb (not_lt.mp hlt')
        omega
      · have := hmono hb hvalue hlt'.le
        have := hmono hvalue ha (not_lt.mp hlt)
        omega
      · exact hkey
    · rw [combine, combine, smaller_eq ha hvalue, smaller_eq hb hvalue]
      split_ifs with hlt hlt' hlt'
      · rfl
      · have := hmono hvalue ha hlt.le
        have := hmono hb hvalue (not_lt.mp hlt')
        omega
      · have := hmono hvalue hb hlt'.le
        have := hmono ha hvalue (not_lt.mp hlt)
        omega
      · exact hkey

lemma Close.foldl (hop : op.IsExtreme) (htype : elementType ≠ .bool) (h : Close elementType a b)
    (values : List Float) :
    Close elementType (values.foldl op.combine a) (values.foldl op.combine b) :=
  List.foldl_rel h fun value _ _ _ hclose => hclose.combine hop htype value

/-- One of two totals may be stored on the way. -/
lemma Close.store (h : Close elementType a b) : Close elementType (elementType.coerce a) b :=
  ⟨ElementType.isNaN_coerce h.left, h.right, by rw [ElementType.coerce_coerce, h.key_eq]⟩

lemma close_identity (hop : op.IsExtreme) (elementType : ElementType) :
    Close elementType op.identity op.identity := by
  have hnumber : op.identity.isNaN = false := by rcases hop with rfl | rfl <;> decide +kernel
  exact ⟨hnumber, hnumber, rfl⟩

/-! ## The identity -/

/-- As a truth value the largest value is always true: the identity is stored as true. -/
lemma parted_max_bool (parts : List (List Float)) : max.parted .bool parts = 1 := by
  have hone : (1 : Float).isNaN = false := by decide +kernel
  have hzero : (0 : Float).isNaN = false := by decide +kernel
  -- totals are not less than one
  have hcombine : ∀ {a value : Float}, a.isNaN = false ∧ key 1 ≤ key a →
      (max.combine a value).isNaN = false ∧ key 1 ≤ key (max.combine a value) := by
    rintro a value ⟨ha, hkey⟩
    refine ⟨isNaN_combine (.inl rfl) ha, ?_⟩
    cases hvalue : value.isNaN with
    | true => rwa [combine, larger_of_isNaN hvalue]
    | false =>
      rw [combine, larger_eq ha hvalue]
      split_ifs with hlt
      · exact hkey.trans hlt.le
      · exact hkey
  rw [parted]
  refine List.foldlRecOn (motive := (· = 1)) parts _ (by decide +kernel) ?_
  rintro _ rfl part -
  obtain ⟨ha, hkey⟩ := List.foldlRecOn (motive := fun a => a.isNaN = false ∧ key 1 ≤ key a) part
    max.combine ⟨hone, le_refl _⟩ fun _ h _ _ => hcombine h
  rw [ElementType.coerce, if_neg]
  rw [beq_iff_key ha hzero]
  have hlt : key 0 < key 1 := by decide +kernel
  omega

/-- The smallest of some truth values -/
lemma parted_min_bool (values : List Float) : min.parted .bool [values] =
    ElementType.bool.coerce (values.foldl min.combine min.identity) := by
  have hone : (1 : Float).isNaN = false := by decide +kernel
  have hzero : (0 : Float).isNaN = false := by decide +kernel
  have hlt : key 0 < key 1 := by decide +kernel
  have hstored : ElementType.bool.coerce min.identity = 1 := by decide +kernel
  rw [parted, List.foldl_cons, List.foldl_nil, hstored]
  -- the totals are the same as soon as one of them is less than one
  have hrel : values.foldl min.combine 1 = values.foldl min.combine min.identity ∨
      values.foldl min.combine 1 = 1 ∧ (values.foldl min.combine min.identity).isNaN = false ∧
        key 1 ≤ key (values.foldl min.combine min.identity) := by
    refine List.foldl_rel (r := fun a b => a = b ∨ a = 1 ∧ b.isNaN = false ∧ key 1 ≤ key b)
      (.inr ⟨rfl, (close_identity (.inr rfl) .bool).left, by decide +kernel⟩)
      fun value _ a b h => ?_
    rcases h with rfl | ⟨rfl, hb, hkey⟩
    · exact .inl rfl
    · cases hvalue : value.isNaN with
      | true =>
        rw [combine, combine, smaller_of_isNaN hvalue, smaller_of_isNaN hvalue]
        exact .inr ⟨rfl, hb, hkey⟩
      | false =>
        rw [combine, combine, smaller_eq hone hvalue, smaller_eq hb hvalue]
        split_ifs with hless hless'
        · exact .inl rfl
        · omega
        · exact .inr ⟨rfl, hvalue, not_lt.mp hless⟩
        · exact .inr ⟨rfl, hb, hkey⟩
  rcases hrel with heq | ⟨heq, hb, hkey⟩
  · rw [heq]
  · rw [heq, ElementType.coerce, ElementType.coerce, if_neg, if_neg]
    · rw [beq_iff_key hb hzero]
      omega
    · rw [beq_iff_key hone hzero]
      omega

/-- **Storing the identity first changes nothing**, except that it makes the largest of truth values
true. -/
theorem parted_singleton (op : ReduceOp) (elementType : ElementType) (values : List Float) :
    op.parted elementType [values] = if op = .max ∧ elementType = .bool then 1
      else elementType.coerce (values.foldl op.combine op.identity) := by
  -- most types store the identity as it is
  have hkept : elementType.coerce op.identity = op.identity → op.parted elementType [values] =
      elementType.coerce (values.foldl op.combine op.identity) := by
    intro h
    rw [parted, List.foldl_cons, List.foldl_nil, h]
  have hint : op.IsExtreme → op.parted .int [values] =
      ElementType.int.coerce (values.foldl op.combine op.identity) := fun hop =>
    ElementType.coerce_int_eq
      ((close_identity hop .int).store.foldl hop (by decide) values).key_eq
  split_ifs with h
  · obtain ⟨rfl, rfl⟩ := h
    exact parted_max_bool [values]
  · cases elementType with
    | real => exact hkept rfl
    | float => exact hkept (by cases op <;> decide +kernel)
    | int =>
      cases op with
      | sum | product => exact hkept (by decide +kernel)
      | max => exact hint (.inl rfl)
      | min => exact hint (.inr rfl)
    | bool =>
      cases op with
      | sum | product => exact hkept (by decide +kernel)
      | max => exact absurd ⟨rfl, rfl⟩ h
      | min => exact parted_min_bool values

/-! ## Totals that are stored on the way -/

/-- Every total that is stored on the way is stored as it is. -/
def KeepsTotals (op : ReduceOp) (elementType : ElementType) (parts : List (List Float)) : Prop :=
  ∀ front rest, front ++ rest = parts → rest ≠ [] →
    let total := front.flatten.foldl op.combine (elementType.coerce op.identity)
    elementType.coerce total = total

/-- It does not matter which totals are stored on the way. -/
def Seamless (op : ReduceOp) (elementType : ElementType) : Prop :=
  elementType = .real ∨ elementType = .int ∧ op.IsExtreme ∨ elementType = .bool ∧ op = max

instance : Decidable (op.Seamless elementType) :=
  inferInstanceAs (Decidable (_ ∨ _ ∨ _))

lemma parted_flatten (op : ReduceOp) (elementType : ElementType) (parts : List (List Float)) :
    op.parted elementType [parts.flatten] = elementType.coerce
      (parts.flatten.foldl op.combine (elementType.coerce op.identity)) := rfl

lemma parted_concat (op : ReduceOp) (elementType : ElementType) (parts : List (List Float))
    (part : List Float) : op.parted elementType (parts ++ [part]) =
      elementType.coerce (part.foldl op.combine (op.parted elementType parts)) := by
  rw [parted, List.foldl_append]
  rfl

lemma coerce_parted (op : ReduceOp) (elementType : ElementType) (parts : List (List Float)) :
    elementType.coerce (op.parted elementType parts) = op.parted elementType parts := by
  induction parts using List.reverseRecOn with
  | nil => exact ElementType.coerce_coerce ..
  | append_singleton parts part => rw [parted_concat, ElementType.coerce_coerce]

lemma KeepsTotals.parted_eq (h : op.KeepsTotals elementType parts) :
    op.parted elementType parts = op.parted elementType [parts.flatten] := by
  induction parts using List.reverseRecOn with
  | nil => exact (ElementType.coerce_coerce ..).symm
  | append_singleton parts part ih =>
    have hfront : op.KeepsTotals elementType parts := fun front rest hparts hrest =>
      h front (rest ++ [part]) (by rw [← hparts, List.append_assoc]) (by simp)
    have htotal := h parts [part] rfl (List.cons_ne_nil _ _)
    rw [parted_concat, ih hfront, parted_flatten, htotal, parted_flatten, List.flatten_concat,
      List.foldl_append]

/-- The largest or the smallest of some values is a number, and it keeps its place in the order if
totals are stored on the way. -/
lemma close_parted (hop : op.IsExtreme) (htype : elementType ≠ .bool) (parts : List (List Float)) :
    Close elementType (op.parted elementType parts) (op.parted elementType [parts.flatten]) := by
  have hidentity := (close_identity hop elementType).store
  have hclose : Close elementType (op.parted elementType parts)
      (parts.flatten.foldl op.combine (elementType.coerce op.identity)) := by
    rw [parted, List.foldl_flatten]
    refine List.foldl_rel ⟨hidentity.left, hidentity.left, rfl⟩ fun part _ a b h => ?_
    exact (h.foldl hop htype part).store
  refine ⟨hclose.left, ElementType.isNaN_coerce hclose.right, ?_⟩
  rw [hclose.key_eq, parted_flatten, ElementType.coerce_coerce]

lemma key_parted (hop : op.IsExtreme) (htype : elementType ≠ .bool) (parts : List (List Float)) :
    key (op.parted elementType parts) = key (op.parted elementType [parts.flatten]) := by
  have hkey := (close_parted hop htype parts).key_eq
  rwa [coerce_parted, coerce_parted] at hkey

lemma Seamless.parted_eq (h : op.Seamless elementType) (parts : List (List Float)) :
    op.parted elementType parts = op.parted elementType [parts.flatten] := by
  rcases h with rfl | ⟨rfl, hop⟩ | ⟨rfl, rfl⟩
  · exact KeepsTotals.parted_eq fun _ _ _ _ => rfl
  · have hkey := key_parted hop (by decide : ElementType.int ≠ .bool) parts
    rw [← coerce_parted, ← coerce_parted _ _ [parts.flatten]] at hkey ⊢
    exact ElementType.coerce_int_eq hkey
  · rw [parted_max_bool, parted_max_bool]

/-- **Which reductions do not depend on the parts.** -/
theorem seamless_iff : op.Seamless elementType ↔
    ∀ parts, op.parted elementType parts = op.parted elementType [parts.flatten] := by
  refine ⟨Seamless.parted_eq, fun h => ?_⟩
  cases elementType with
  | real => exact .inl rfl
  | float =>
    cases op with
    | sum => exact absurd (h [[16777216, 1], [1]]) (by decide +kernel)
    | product => exact absurd (h [[1.0000000299], [1.0000000299]]) (by decide +kernel)
    | max => exact absurd (h [[Float.ofBits 0x8000000000000001], [0]]) (by decide +kernel)
    | min => exact absurd (h [[Float.ofBits 1], [-0.0]]) (by decide +kernel)
  | int =>
    cases op with
    | sum => exact absurd (h [[0.5], [0.5]]) (by decide +kernel)
    | product => exact absurd (h [[0.5], [2]]) (by decide +kernel)
    | max => exact .inr (.inl ⟨rfl, .inl rfl⟩)
    | min => exact .inr (.inl ⟨rfl, .inr rfl⟩)
  | bool =>
    cases op with
    | sum => exact absurd (h [[2], [-1]]) (by decide +kernel)
    | product => exact absurd (h [[infinity], [0]]) (by decide +kernel)
    | max => exact .inr (.inr ⟨rfl, rfl⟩)
    | min => exact absurd (h [[-1], [0]]) (by decide +kernel)

/-- How far a total of some values agrees with the one that is reached in parts. -/
structure Agree (op : ReduceOp) (elementType : ElementType) (parts : List (List Float))
    (total total' : Float) : Prop where
  /-- They are the same if it does not matter for the operator and the type which totals are stored
  on the way, or if the totals that are stored are stored as they are. -/
  same : op.Seamless elementType ∨ op.KeepsTotals elementType parts → total' = total
  /-- The largest and the smallest value are equal as numbers. -/
  order : op.IsExtreme → elementType ≠ .bool → (total == total') = true

/-- What is reached in parts agrees with the total of all values. -/
lemma agree_parted (op : ReduceOp) (elementType : ElementType) (parts : List (List Float)) :
    op.Agree elementType parts (op.parted elementType [parts.flatten])
      (op.parted elementType parts) where
  same h := h.elim (fun hseamless => hseamless.parted_eq parts) KeepsTotals.parted_eq
  order hop htype := by
    have hclose := close_parted hop htype parts
    rw [beq_iff_key hclose.right hclose.left, key_parted hop htype parts]

end ReduceOp
end Dataflow
