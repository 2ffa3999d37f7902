import Dataflow.Proofs.Machine.Safety

/-!
# Compiled functions are sound

What has passed the checks of the assembler lies properly inside its variable
(`Slice.Inside.within`), so accepted instructions are safe.  As the slices of a compiled function
stand for variables of its own, parameters or not, the function is sound (`Written.sound`).
-/

namespace Dataflow

/-- A slice that has passed the checks lies properly inside its variable. -/
lemma Slice.Inside.within {slice : Slice} {vars : VariableTable} {written : Bool}
    (h : slice.Inside vars written) : slice.Within vars := by
  obtain ⟨var, hvar, -, -, hlength, hstop, -⟩ := h
  exact ⟨var, hvar, hlength, hstop⟩

namespace Instruction.Admissible

variable {instruction : Instruction} {vars : VariableTable}

lemma within (h : instruction.Admissible vars) :
    ∀ slice ∈ instruction.slices, slice.Within vars :=
  List.forall_mem_cons.mpr ⟨h.dst.within, fun slice hslice => (h.sources slice hslice).within⟩

lemma safe (h : instruction.Admissible vars) : instruction.Safe vars where
  slices := h.within
  writable var hvar hinput := by
    obtain ⟨other, hother, -, -, -, -, hwritable⟩ := h.dst
    obtain rfl : var = other := Option.some.inj (hvar.symm.trans hother)
    exact hwritable ⟨rfl, hinput⟩
  lengths := h.lengths

end Instruction.Admissible

namespace Compiler

variable {model : Model} {name : String} {c d : Compiler Assembler} {function : Function}

/-- The variables that a function records, if nothing was left over. -/
lemma Written.recorded_eq (h : Written model name c function d)
    (hsettled : c.backend.uncommitted = []) {i : ℕ} {entry : StorageClass × OutputPort}
    (hentry : model.roster[i]? = some entry) :
    function.vars[i]? = some ⟨c.backend.vars.size + i⟩ := by
  obtain ⟨hlt, hat⟩ := List.getElem?_eq_some_iff.mp hentry
  have hlt' : i < function.vars.length := h.found.length_eq ▸ hlt
  have hiff := h.found.get hlt hlt'
  rw [List.get_eq_getElem, hat, List.get_eq_getElem, (h.enrolled i entry hentry).1, hsettled]
    at hiff
  rw [List.getElem?_eq_getElem hlt', ← hiff.mpr fun _ hmem => absurd hmem List.not_mem_nil]

/-- The variables of a function's parameters lie one after another. -/
lemma Written.vars_eq (h : Written model name c function d)
    (hsettled : c.backend.uncommitted = []) : function.vars =
      (List.range model.roster.length).map fun i => ⟨c.backend.vars.size + i⟩ := by
  apply List.ext_getElem?
  intro i
  rw [List.getElem?_map]
  cases hentry : model.roster[i]? with
  | some entry =>
    rw [h.recorded_eq hsettled hentry,
      List.getElem?_range (List.getElem?_eq_some_iff.mp hentry).1]
    rfl
  | none =>
    have hle := List.getElem?_eq_none_iff.mp hentry
    rw [List.getElem?_eq_none (h.found.length_eq ▸ hle), List.getElem?_eq_none (by simpa using hle)]
    rfl

/-- **Compiled functions are sound.**  What is compiled after everything before has been committed
works safely on variables of this compilation only. -/
theorem Written.sound (h : Written model name c function d) (hnumbered : model.Numbered)
    (hsettled : c.backend.uncommitted = []) :
    function.Sound d.backend.vars c.backend.vars.size d.backend.vars.size where
  parameters := by
    rw [h.parameters, List.forall₂_map_left_iff]
    refine List.forall₂_iff_get.mpr ⟨h.found.length_eq, fun i hi hi' => ?_⟩
    have hentry := List.getElem?_eq_getElem hi
    obtain ⟨-, var, hvar, hparameter⟩ := h.enrolled i _ hentry
    have hid := (List.getElem?_eq_getElem hi').symm.trans (h.recorded_eq hsettled hentry)
    rw [List.get_eq_getElem, List.get_eq_getElem, Option.some.inj hid]
    exact ⟨var, hvar, hparameter⟩
  nodup := by
    rw [h.vars_eq hsettled]
    exact List.nodup_range.map fun i j heq => Nat.add_left_cancel (congrArg VarId.index heq)
  span id hid := by
    rw [h.vars_eq hsettled] at hid
    obtain ⟨i, hi, rfl⟩ := List.mem_map.mp hid
    have hentry := List.getElem?_eq_getElem (List.mem_range.mp hi)
    obtain ⟨-, var, hvar, -⟩ := h.enrolled i _ hentry
    exact ⟨Nat.le_add_right _ i, d.backend.vars.lt_size_of_get? hvar⟩
  safe instruction hmem := (h.admissible instruction hmem).safe
  own instruction hmem slice hslice := by
    obtain ⟨var, hvar, -⟩ := (h.admissible instruction hmem).within slice hslice
    exact ⟨h.size_le (h.touched instruction hmem slice hslice),
      d.backend.vars.lt_size_of_get? hvar⟩
  recorded instruction hmem slice hslice var hvar hparameter := by
    obtain ⟨entry, hentry, -, hplace⟩ := h.parameter hnumbered
      (h.touched instruction hmem slice hslice) hvar hparameter
    obtain ⟨i, hi⟩ := List.getElem?_of_mem hentry
    have hid := (h.enrolled i entry hi).1.symm.trans hplace
    rw [← Option.some.inj hid]
    exact List.mem_of_getElem? (h.recorded_eq hsettled hi)

end Compiler
end Dataflow
