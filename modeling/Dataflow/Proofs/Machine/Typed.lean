import Dataflow.Proofs.Machine.Shape
import Dataflow.Proofs.Number.Coercion

/-!
# Stored values have the types of their variables

Whatever is stored in a variable has been coerced to its element type, so coercing it once more
changes nothing (`Memory.Typed`).  This is so when a machine starts, and every part of a call keeps
it as long as inputs are stored in variables of their types (`Program.Modular.keeps_typed`).
-/

namespace Dataflow

/-- Values that an element type leaves as they are. -/
def ElementType.Holds (elementType : ElementType) (values : List Float) : Prop :=
  ∀ value ∈ values, elementType.coerce value = value

/-- Every row of the memory has the element type of its variable. -/
def Memory.Typed (memory : Memory) (vars : VariableTable) : Prop :=
  ∀ id var row, vars.get? id = some var → memory.get? id = some row → var.elementType.Holds row

namespace ElementType

variable {elementType : ElementType} {values : List Float}

lemma holds_coerce (elementType : ElementType) (values : List Float) :
    elementType.Holds (values.map elementType.coerce) := by
  intro value hvalue
  obtain ⟨v, -, rfl⟩ := List.mem_map.mp hvalue
  exact elementType.coerce_coerce v

lemma Holds.map_coerce (h : elementType.Holds values) : values.map elementType.coerce = values :=
  (List.map_congr_left h).trans (List.map_id values)

lemma Holds.mono {others : List Float} (h : elementType.Holds values)
    (hsub : ∀ value ∈ others, value ∈ values) : elementType.Holds others :=
  fun value hvalue => h value (hsub value hvalue)

lemma Holds.overwrite {replacement : List Float} (h : elementType.Holds values)
    (h' : elementType.Holds replacement) (offset : ℕ) :
    elementType.Holds (Memory.overwrite offset replacement values) := by
  intro value hvalue
  rw [Memory.overwrite] at hvalue
  rcases List.mem_append.mp hvalue with hvalue | hdrop
  · rcases List.mem_append.mp hvalue with htake | hnew
    · exact h value (List.mem_of_mem_take htake)
    · exact h' value hnew
  · exact h value (List.mem_of_mem_drop hdrop)

end ElementType

lemma Variable.holds_initialContents (var : Variable) :
    var.elementType.Holds var.initialContents := by
  intro value hvalue
  obtain ⟨i, hi, rfl⟩ := List.getElem_of_mem hvalue
  have hget := List.getElem?_eq_getElem hi
  rw [length_initialContents] at hi
  rw [var.getElem?_initialContents hi] at hget
  rw [← Option.some.inj hget]
  exact var.elementType.coerce_coerce _

namespace Memory

variable {memory memory' : Memory} {vars : VariableTable} {id : VarId}

lemma Typed.set (h : memory.Typed vars) {values : List Float}
    (hvalues : ∀ var, vars.get? id = some var → var.elementType.Holds values) :
    (memory.set id values).Typed vars := by
  intro other var row hvar hrow
  by_cases heq : id = other
  · subst heq
    have hlt : id.index < memory.cells.size := by
      rw [← size_set memory id values]
      exact lt_size_of_get? hrow
    rw [get?_set_self memory hlt, Option.some.injEq] at hrow
    exact hrow ▸ hvalues var hvar
  · rw [get?_set_of_ne memory heq] at hrow
    exact h other var row hvar hrow

/-- What an instruction stores is coerced. -/
lemma Typed.execute (h : memory.Typed vars) {instruction : Instruction}
    (hexecute : instruction.execute vars memory = .ok memory') : memory'.Typed vars := by
  obtain ⟨values, var, -, hvar, hwrite⟩ := Instruction.execute_eq_ok.mp hexecute
  obtain ⟨row, hholder, rfl⟩ := write_eq_ok hwrite
  obtain ⟨hrow, -⟩ := holder_eq_ok.mp hholder
  refine h.set fun found hfound => ?_
  obtain rfl : var = found := Option.some.inj (hvar.symm.trans hfound)
  refine (h _ var row hvar hrow).overwrite ?_ _
  exact (ElementType.holds_coerce _ values).mono fun _ => List.mem_of_mem_take

/-- Variables are reset to their initial contents, which have been coerced, too. -/
lemma Typed.reset {program : Program} (h : memory.Typed program.vars)
    (hnumbered : ∀ id var, program.vars.get? id = some var → var.id = id) (function : Function) :
    (program.reset function memory).Typed program.vars := by
  have hentries : ∀ var ∈ program.vars.toList, ∀ found,
      program.vars.get? var.id = some found → found = var := by
    intro var hmem found hfound
    obtain ⟨i, hi⟩ := List.getElem?_of_mem hmem
    have hget : program.vars.get? ⟨i⟩ = some var := by rwa [VariableTable.get?_eq]
    rw [hnumbered _ var hget, hget] at hfound
    exact (Option.some.inj hfound).symm
  rw [Program.reset]
  generalize program.vars.toList = entries at hentries
  induction entries generalizing memory with
  | nil => exact h
  | cons var rest ih =>
    obtain ⟨hhead, hrest⟩ := List.forall_mem_cons.mp hentries
    rw [List.foldl_cons]
    refine ih ?_ hrest
    split
    · refine h.set fun found hfound => ?_
      rw [hhead found hfound]
      exact var.holds_initialContents
    · exact h

end Memory

/-- Values are stored in a variable of their type, or none are. -/
lemma Program.bindInput_typed {vars : VariableTable} {parameter : Parameter} {id : VarId}
    (h : ∃ var, vars.get? id = some var ∧ var.toParameter = parameter) (values : List Float) :
    Execution.Keeps (fun memory => memory.Typed vars) (bindInput parameter id values) := by
  obtain ⟨var, hvar, rfl⟩ := h
  rw [bindInput]
  split
  · exact .throw _
  · refine .look fun memory => ?_
    dsimp only
    split
    · exact .throw _
    · refine .modify fun memory htyped => htyped.set fun found hfound => ?_
      obtain rfl : var = found := Option.some.inj (hvar.symm.trans hfound)
      exact ElementType.holds_coerce _ values

/-- **Stored values have the types of their variables**, whatever functions are called. -/
lemma Program.Modular.keeps_typed {program : Program} {spans : String → ℕ × ℕ}
    (h : program.Modular spans) : program.Keeps fun memory => memory.Typed program.vars where
  initial id var row hvar hrow := by
    rw [program.get?_initialMemory hvar, Option.some.injEq] at hrow
    exact hrow ▸ var.holds_initialContents
  reset function _ _ htyped := htyped.reset h.numbered function
  bindInput function hmem binding hbinding :=
    bindInput_typed ((h.sound function hmem).binding (List.mem_filter.mp hbinding).1).2
  execute _ _ _ _ _ _ htyped hexecute := htyped.execute hexecute

end Dataflow
