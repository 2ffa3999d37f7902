import Dataflow.Proofs.Backend.History
import Dataflow.Proofs.Storage.Accounting

/-!
# The storage account of an assembler

An assembler counts the elements that it has reserved.  Discarding a function resets the count to
what it was after the latest finished function and drops the variables declared since, but it does
not look at the variables that stay.  One of them may have got its storage in the meantime: then the
count forgets storage that remains reserved.

A `Ledger` follows a history and keeps what the count misses.  `Balanced` relates an assembler to
its ledger; every operation preserves it (`Balanced.perform`), and so does a history
(`Balanced.run`).
-/

namespace Dataflow
namespace Assembler

/-- What the counts of an assembler miss. -/
structure Ledger where
  /-- What the count after the latest finished function misses of the variables declared by then. -/
  belated : ℕ
  /-- What the present count misses. -/
  forgotten : ℕ

namespace Ledger

/-- The ledger after an operation.  Storage for a variable that the latest finished function has
left behind is missed by the count of that time, and discarding goes back to that count. -/
def record (ledger : Ledger) (a : Assembler) : Operation → Ledger
  | .allocate id =>
    if id.index < a.committed.vars then
      { ledger with belated := ledger.belated + ((a.perform (.allocate id)).used - a.used) }
    else ledger
  | .endFunction => if a.pending.isSome then ⟨ledger.forgotten, ledger.forgotten⟩ else ledger
  | .discardFunction => ⟨ledger.belated, ledger.belated⟩
  | _ => ledger

/-- The ledger at the end of a history. -/
def after (ledger : Ledger) (a : Assembler) : List Operation → Ledger
  | [] => ledger
  | operation :: rest => (ledger.record a operation).after (a.perform operation) rest

lemma record_inner (ledger : Ledger) (a : Assembler) {operation : Operation}
    (h : operation.isInner = true) : ledger.record a operation = ledger := by
  cases operation with
  | declare | allocate | endFunction | discardFunction => cases h
  | beginFunction | openRegion | emit | mergeRegion | mergeRegions => rfl

end Ledger

/-- An assembler and what its counts miss. -/
structure Balanced (a : Assembler) (ledger : Ledger) : Prop where
  limit : a.used ≤ a.limit
  reserved : a.vars.reserved = a.used + ledger.forgotten
  kept : a.committed.vars ≤ a.vars.size
  keptLimit : a.committed.elements ≤ a.limit
  keptReserved :
    (a.vars.truncate a.committed.vars).reserved = a.committed.elements + ledger.belated

namespace Balanced

variable {a next : Assembler} {ledger : Ledger}

lemma fresh (program : String) (policy : MergePolicy) (limit : ℕ) :
    Balanced (Assembler.fresh program policy limit) ⟨0, 0⟩ where
  limit := Nat.zero_le _
  reserved := rfl
  kept := Nat.le_refl _
  keptLimit := Nat.zero_le _
  keptReserved := rfl

/-! ## What one operation does to the account -/

lemma declare (h : a.Balanced ledger) (spec : VariableSpec) :
    (a.declare spec).Balanced ledger where
  limit := h.limit
  reserved := (a.vars.reserved_declare spec).trans h.reserved
  kept := by
    show a.committed.vars ≤ (a.vars.declare spec).size
    have hsize := congrArg List.length (a.vars.toList_declare_variable spec)
    simp only [VariableTable.length_toList, List.length_append] at hsize
    rw [hsize]
    exact Nat.le_add_right_of_le h.kept
  keptLimit := h.keptLimit
  keptReserved := by
    show ((a.vars.declare spec).truncate a.committed.vars).reserved = _
    rw [VariableTable.truncate_declare _ _ h.kept]
    exact h.keptReserved

lemma allocate (h : a.Balanced ledger) {id : VarId} (hnext : a.allocate id = .ok next) :
    next.Balanced (ledger.record a (.allocate id)) := by
  have hperform : a.perform (.allocate id) = next := by
    rw [perform_allocate, hnext]
    rfl
  obtain ⟨var, hvar, hfree, hlimit, rfl⟩ := allocate_eq_ok.mp hnext
  have hreserved := VariableTable.reserved_setAllocated hvar hfree
  have hgrown : (a.perform (.allocate id)).used - a.used = var.size := by
    rw [hperform]
    exact Nat.add_sub_cancel_left _ _
  have hledger : (ledger.record a (.allocate id)).forgotten = ledger.forgotten := by
    rw [Ledger.record]
    split <;> rfl
  refine ⟨hlimit, ?_, ?_, h.keptLimit, ?_⟩
  · show (a.vars.setAllocated id true).reserved = a.used + var.size + _
    rw [hreserved, h.reserved, hledger, Nat.add_right_comm]
  · show a.committed.vars ≤ (a.vars.setAllocated id true).size
    rw [← VariableTable.length_toList, VariableTable.toList_setAllocated, List.length_modify,
      VariableTable.length_toList]
    exact h.kept
  · show ((a.vars.setAllocated id true).truncate a.committed.vars).reserved = _
    by_cases hold : id.index < a.committed.vars
    · -- the variable is among those that stay, but their count is not touched
      have hkept : (a.vars.truncate a.committed.vars).get? id = some var := by
        rw [VariableTable.get?_eq, VariableTable.toList_truncate, List.getElem?_take_of_lt hold,
          ← VariableTable.get?_eq, hvar]
      rw [VariableTable.truncate_setAllocated_comm, VariableTable.reserved_setAllocated hkept hfree,
        h.keptReserved, Ledger.record, if_pos hold, hgrown]
      exact Nat.add_assoc _ _ _
    · rw [VariableTable.truncate_setAllocated _ _ (not_lt.mp hold), Ledger.record, if_neg hold]
      exact h.keptReserved

lemma endFunction (h : a.Balanced ledger) (hnext : a.endFunction = .ok next) :
    next.Balanced (ledger.record a .endFunction) := by
  obtain ⟨pending, hpending, rfl⟩ := endFunction_eq_ok.mp hnext
  have hledger : ledger.record a .endFunction = ⟨ledger.forgotten, ledger.forgotten⟩ := by
    rw [Ledger.record, if_pos (Option.isSome_of_eq_some hpending)]
  rw [hledger]
  -- the whole table is kept from now on, so both halves of the account are the present one
  refine ⟨h.limit, h.reserved, Nat.le_refl _, h.limit, ?_⟩
  show (a.vars.truncate a.vars.size).reserved = _
  rw [VariableTable.truncate_size]
  exact h.reserved

lemma discardFunction (h : a.Balanced ledger) :
    a.discardFunction.Balanced ⟨ledger.belated, ledger.belated⟩ := by
  have hsize : (a.vars.truncate a.committed.vars).size = a.committed.vars := by
    rw [← VariableTable.length_toList, VariableTable.toList_truncate]
    exact List.length_take_of_le (by rw [VariableTable.length_toList]; exact h.kept)
  refine ⟨h.keptLimit, h.keptReserved, hsize.ge, h.keptLimit, ?_⟩
  show ((a.vars.truncate a.committed.vars).truncate a.committed.vars).reserved = _
  rw [VariableTable.truncate_truncate]
  exact h.keptReserved

/-- Every operation keeps the account, refused or not. -/
lemma perform (h : a.Balanced ledger) (operation : Operation) :
    (a.perform operation).Balanced (ledger.record a operation) := by
  refine perform_cases (P := fun operation next => next.Balanced (ledger.record a operation)) a
    ?inner (fun spec => h.declare spec) (fun hnext => h.allocate hnext) ?allocateRefused
    (fun hnext => h.endFunction hnext) ?endRefused h.discardFunction operation
  case inner =>
    intro operation pending hinner
    rw [Ledger.record_inner _ _ hinner]
    exact { h with }
  case allocateRefused =>
    -- the ledger goes by the growth of the count, and a refused request adds nothing to it
    intro id fault hrefused
    have hunchanged : (a.perform (.allocate id)).used - a.used = 0 := by
      rw [perform_allocate, hrefused]
      exact Nat.sub_self _
    rw [Ledger.record, hunchanged, Nat.add_zero, ite_self]
    exact h
  case endRefused =>
    intro fault hrefused
    have hnone : a.pending.isSome = false := by
      by_contra hsome
      obtain ⟨pending, hpending⟩ := Option.isSome_iff_exists.mp (Bool.eq_true_of_not_eq_false hsome)
      rw [endFunction_eq_ok.mpr ⟨pending, hpending, rfl⟩] at hrefused
      cases hrefused
    rw [Ledger.record, hnone]
    exact h

lemma run (h : a.Balanced ledger) (history : List Operation) :
    (a.run history).Balanced (ledger.after a history) := by
  induction history generalizing a ledger with
  | nil => exact h
  | cons operation rest ih => exact ih (h.perform operation)

end Balanced

/-! ## When nothing is missed -/

/-- Storage is reserved only for variables that were declared since the latest finished function. -/
def Prompt (a : Assembler) (history : List Operation) : Prop :=
  ∀ before id, before ++ [.allocate id] <+: history → (a.run before).committed.vars ≤ id.index

variable {a : Assembler} {ledger : Ledger}

lemma prompt_nil (a : Assembler) : a.Prompt [] := by
  intro before id h
  exact absurd (List.prefix_nil.mp h) (List.append_ne_nil_of_right_ne_nil _ (List.cons_ne_nil _ _))

lemma prompt_cons {operation : Operation} {rest : List Operation} :
    a.Prompt (operation :: rest) ↔
      (∀ id, operation = .allocate id → a.committed.vars ≤ id.index) ∧
        (a.perform operation).Prompt rest := by
  constructor
  · rintro h
    refine ⟨?_, fun before id hbefore => ?_⟩
    · rintro id rfl
      exact h [] id (List.cons_prefix_cons.mpr ⟨rfl, List.nil_prefix⟩)
    · exact h (operation :: before) id (List.cons_prefix_cons.mpr ⟨rfl, hbefore⟩)
  · rintro ⟨hfirst, hrest⟩ (_ | ⟨first, before⟩) id h
    · exact hfirst id (List.cons_prefix_cons.mp h).1.symm
    · obtain ⟨rfl, hbefore⟩ := List.cons_prefix_cons.mp h
      exact hrest before id hbefore

/-- A ledger in which nothing is missed stays so while storage is reserved promptly. -/
lemma Prompt.after_eq {history : List Operation} (h : a.Prompt history) :
    Ledger.after ⟨0, 0⟩ a history = ⟨0, 0⟩ := by
  induction history generalizing a with
  | nil => rfl
  | cons operation rest ih =>
    obtain ⟨hfirst, hrest⟩ := prompt_cons.mp h
    -- a prompt request is for a variable behind those of the latest finished function
    have hrecord : Ledger.record ⟨0, 0⟩ a operation = ⟨0, 0⟩ := by
      cases operation with
      | allocate id => rw [Ledger.record, if_neg (not_lt.mpr (hfirst id rfl))]
      | endFunction => exact ite_self _
      | declare | beginFunction | openRegion | emit | mergeRegion | mergeRegions
      | discardFunction => rfl
    rw [Ledger.after, hrecord]
    exact ih hrest

/-- Without a discarded function nothing is ever forgotten. -/
lemma Ledger.forgotten_after {history : List Operation} (h : Operation.discardFunction ∉ history) :
    (ledger.after a history).forgotten = ledger.forgotten := by
  induction history generalizing a ledger with
  | nil => rfl
  | cons operation rest ih =>
    obtain ⟨hne, hrest⟩ := not_or.mp (mt List.mem_cons.mpr h)
    rw [Ledger.after, ih hrest]
    cases operation with
    | discardFunction => exact absurd rfl hne
    | allocate id =>
      rw [Ledger.record]
      split <;> rfl
    | endFunction =>
      rw [Ledger.record]
      split <;> rfl
    | declare | beginFunction | openRegion | emit | mergeRegion | mergeRegions => rfl

/-- **The storage account.**  Whatever is asked of an assembler, in any order and with any outcome,
it never counts more elements than its limit, and the variables that have storage take the elements
it counts and those that its ledger says are forgotten.  Nothing is forgotten if storage is only
reserved for variables declared since the latest finished function, or if no function is
discarded: then the count is exact. -/
theorem storage_account (program : String) (policy : MergePolicy) (limit : ℕ)
    (history : List Operation) :
    ((fresh program policy limit).run history).used ≤ limit ∧
      ((fresh program policy limit).run history).vars.reserved =
        ((fresh program policy limit).run history).used +
          (Ledger.after ⟨0, 0⟩ (fresh program policy limit) history).forgotten ∧
      ((fresh program policy limit).Prompt history ∨ Operation.discardFunction ∉ history →
        ((fresh program policy limit).run history).used =
          ((fresh program policy limit).run history).vars.reserved) := by
  have hbalanced := (Balanced.fresh program policy limit).run history
  have hlimit : ((fresh program policy limit).run history).limit = limit := limit_run _ history
  refine ⟨hbalanced.limit.trans_eq hlimit, hbalanced.reserved, fun hcase => ?_⟩
  have hforgotten : (Ledger.after ⟨0, 0⟩ (fresh program policy limit) history).forgotten = 0 := by
    rcases hcase with hprompt | hkept
    · rw [hprompt.after_eq]
    · exact Ledger.forgotten_after hkept
  rw [hbalanced.reserved, hforgotten, Nat.add_zero]

/-- A single real element. -/
def scratchCell : VariableSpec := ⟨none, .scratch, .real, 1, .zero⟩

/-- Two variables get their storage as soon as they are declared; discarding drops the second. -/
theorem storage_account_prompt :
    let history : List Operation := [.declare scratchCell, .allocate ⟨0⟩, .beginFunction "f" [],
      .endFunction, .declare scratchCell, .allocate ⟨1⟩, .discardFunction]
    ((fresh "m" .always 8).run history).used = ((fresh "m" .always 8).run history).vars.reserved ∧
      ((fresh "m" .always 8).run history).used = 1 := by
  intro history
  refine ⟨(storage_account "m" .always 8 history).2.2 (.inl ?_), by decide⟩
  simp only [history, prompt_cons, prompt_nil, reduceCtorEq, Operation.allocate.injEq,
    forall_eq', false_implies, implies_true, true_and, and_true]
  decide

/-- A variable that gets its storage after the function that follows its declaration: discarding
forgets its element, which remains reserved. -/
theorem used_belated :
    let history : List Operation := [.declare scratchCell, .beginFunction "f" [], .endFunction,
      .allocate ⟨0⟩, .discardFunction]
    ((fresh "m" .always 8).run history).used = 0 ∧
      ((fresh "m" .always 8).run history).vars.reserved = 1 := by
  decide

end Assembler
end Dataflow
