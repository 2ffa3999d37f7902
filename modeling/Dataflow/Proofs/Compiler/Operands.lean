import Dataflow.Proofs.Compiler.Plan

/-!
# Resolving operands

What the steps that look up the operands of a node give if they succeed: slices of the variables of
earlier ports, gathered first if there are several ranges.
-/

namespace Dataflow
namespace Site

open Attempt

variable {site : Site} {index : ℕ} {c d : Compiler Assembler}

lemma malformed_ne_ok {α : Type} {fault : StructuralFault} {a : α} :
    site.malformed fault ≠ .ok a := fun h => (nomatch h)

lemma unbound_ne_ok {α : Type} {port : OutputPort} {a : α} : site.unbound port ≠ .ok a :=
  fun h => (nomatch h)

lemma inputRanges_eq_ok {ranges : PortRange × List PortRange}
    (h : site.inputRanges index = .ok ranges) :
    site.node.operand index = ranges.1 :: ranges.2 := by
  rw [inputRanges] at h
  rw [Node.operand]
  split at h
  · cases h
  · cases h
  · next hinput =>
    rw [hinput, ← Except.ok.inj h]
    rfl

lemma portOf_eq_ok {range : PortRange} {port : OutputPort} (h : site.portOf range = .ok port) :
    site.model.port? range.port = some port := by
  rw [portOf] at h
  split at h
  · next hport => rw [hport, Except.ok.inj h]
  · cases h

lemma inputType_eq_ok {strict : Bool} {elementType : ElementType}
    (h : site.inputType strict index = .ok elementType) :
    elementType = site.model.leadingType (site.node.operand index) := by
  obtain ⟨ranges, hranges, h⟩ := Except.bind_eq_ok.mp h
  obtain ⟨port, hport, h⟩ := Except.bind_eq_ok.mp h
  have htype : port.elementType = elementType := by
    split at h
    all_goals
      obtain ⟨_, -, h⟩ := Except.bind_eq_ok.mp h
      exact Except.pure_eq_ok.mp h
  rw [inputRanges_eq_ok hranges, Model.leadingType, List.head?_cons, Option.bind_some,
    portOf_eq_ok hport, ← htype]
  rfl

lemma joinedSize_eq_ok {slices : List Slice} {size : ℕ} : site.joinedSize slices = .ok size ↔
    (slices.map Slice.length).sum ≤ Word.top ∧ size = (slices.map Slice.length).sum := by
  rw [joinedSize, Word.sum?_eq]
  obtain ⟨hword, htotal⟩ | ⟨hword, htotal⟩ :=
    Word.ofNat?_cases (Word.total (slices.map Slice.length)) <;> rw [htotal]
  · rw [Except.ok.injEq]
    exact ⟨fun h => ⟨hword, h.symm⟩, fun h => h.2.symm⟩
  · exact iff_of_false malformed_ne_ok fun h => absurd h.1 (not_le.mpr hword)

/-- The slice that a range stands for. -/
lemma resolve_eq_ok {range : PortRange} {slice : Slice} (h : site.resolve c range = .ok slice) :
    Reads site.model c.variableOf? range slice := by
  obtain ⟨port, hport, h⟩ := Except.bind_eq_ok.mp h
  obtain ⟨hbounds, h⟩ := (Except.guard_bind_eq_ok fun _ => malformed_ne_ok).mp h
  obtain ⟨-, h⟩ := (Except.guard_bind_eq_ok fun _ => unbound_ne_ok).mp h
  obtain ⟨hnonempty, hstop⟩ := not_or.mp hbounds
  cases hvar : c.variableOf? range.port with
  | none =>
    rw [hvar] at h
    exact absurd h unbound_ne_ok
  | some var =>
    rw [hvar] at h
    exact ⟨⟨port, portOf_eq_ok hport, not_lt.mp hstop⟩, hnonempty, var, hvar,
      (Except.pure_eq_ok.mp h).symm⟩

/-- The slices that feed an input port. -/
lemma inputSlices_ok {slices : List Slice} (h : site.inputSlices index c = .ok slices d) :
    d = c ∧ List.Forall₂ (Reads site.model c.variableOf?) (site.node.operand index) slices := by
  obtain ⟨_, _, hget, h⟩ := bind_eq_ok.mp h
  obtain ⟨rfl, rfl⟩ := EStateM.Result.ok.inj hget
  obtain ⟨hslices, rfl⟩ := ofExcept_eq_ok.mp h
  obtain ⟨ranges, hranges, hslices⟩ := Except.bind_eq_ok.mp hslices
  rw [inputRanges_eq_ok hranges]
  exact ⟨rfl, (Except.mapM_eq_ok.mp hslices).imp fun _ _ hslice => resolve_eq_ok hslice⟩

/-! ## Gathering -/

lemma copyConsecutive_ok (hc : c.backend.Tidy) {dst : Slice} {offset : ℕ} {slices : List Slice}
    (h : copyConsecutive dst offset slices c = .ok () d) :
    c.Step (copies dst offset slices) d ∧ d.backend.vars = c.backend.vars := by
  induction slices generalizing c offset with
  | nil =>
    obtain ⟨-, rfl⟩ := EStateM.Result.ok.inj h
    exact ⟨.refl hc, rfl⟩
  | cons src rest ih =>
    obtain ⟨_, c', hemit, h⟩ := bind_eq_ok.mp h
    obtain ⟨hstep, hvars⟩ := Compiler.emit_ok hc hemit
    obtain ⟨hsteps, hvars'⟩ := ih hstep.tidy h
    exact ⟨hstep.trans hsteps, hvars'.trans hvars⟩

/-- Gathering copies to a new variable, and adds no other one. -/
lemma gather_ok (hc : c.backend.Tidy) {slices : List Slice} {slice : Slice}
    (h : site.gather index slices c = .ok slice d) :
    ∃ id var, slice = ⟨id, 0, var.size⟩ ∧ c.Step (copies ⟨id, 0, var.size⟩ 0 slices) d ∧
      id = c.backend.vars.next ∧ d.backend.vars.get? id = some var ∧ var.storage = .scratch ∧
      var.elementType = site.model.leadingType (site.node.operand index) ∧
      var.size = (slices.map Slice.length).sum ∧
      d.backend.vars.size = c.backend.vars.size + 1 := by
  obtain ⟨_, _, hget, h⟩ := bind_eq_ok.mp h
  obtain ⟨rfl, rfl⟩ := EStateM.Result.ok.inj hget
  obtain ⟨elementType, _, hcheck, h⟩ := bind_eq_ok.mp h
  obtain ⟨htype, rfl⟩ := ofExcept_eq_ok.mp hcheck
  obtain ⟨size, _, htotal, h⟩ := bind_eq_ok.mp h
  obtain ⟨hsize, rfl⟩ := ofExcept_eq_ok.mp htotal
  obtain ⟨id, c', hallocate, h⟩ := bind_eq_ok.mp h
  obtain ⟨_, d', hcopies, h⟩ := bind_eq_ok.mp h
  obtain ⟨rfl, rfl⟩ := EStateM.Result.ok.inj h
  obtain ⟨hstep, rfl, hlist⟩ := Compiler.allocate_ok hc hallocate
  obtain ⟨hsteps, hvars⟩ := copyConsecutive_ok hstep.tidy hcopies
  refine ⟨_, c.backend.allotted ⟨none, .scratch, elementType, size, .zero⟩, rfl,
    hstep.trans hsteps, rfl, ?_, rfl, inputType_eq_ok htype, (joinedSize_eq_ok.mp hsize).2, ?_⟩
  · rw [hvars, VariableTable.get?_eq, hlist, VariableTable.next,
      List.getElem?_append_right (by simp)]
    simp
  · rw [hvars, ← VariableTable.length_toList, hlist, List.length_append,
      VariableTable.length_toList, List.length_singleton]

/-- An operand is read in its place or from a new variable, the only one that is added. -/
lemma inputContiguous_ok (hc : c.backend.Tidy)
    (hbound : ∀ port var, c.variableOf? port = some var → var.index < c.backend.vars.size)
    {slice : Slice} (h : site.inputContiguous index c = .ok slice d) :
    ∃ code, c.Step code d ∧
      Operand site.model d.backend.vars c.backend.vars.size c.variableOf?
        (site.node.operand index) code slice ∧
      (∀ instruction ∈ code, c.backend.vars.size ≤ instruction.dst.var.index) ∧
      slice.var.index < d.backend.vars.size ∧
      ∀ id, c.backend.vars.size ≤ id.index → id.index < d.backend.vars.size → slice.var = id := by
  rw [inputContiguous_eq] at h
  obtain ⟨slices, c', hslices, hrest⟩ := bind_eq_ok.mp h
  obtain ⟨rfl, hreads⟩ := inputSlices_ok hslices
  have hlength := hreads.length_eq
  split at hrest
  · next slice' =>
    obtain ⟨rfl, rfl⟩ := EStateM.Result.ok.inj hrest
    obtain ⟨range, hrange⟩ := List.length_eq_one_iff.mp hlength
    rw [hrange] at hreads ⊢
    have hread := (List.forall₂_cons.mp hreads).1
    obtain ⟨var, hvar, hslice⟩ := hread.slice
    refine ⟨[], .refl hc, .direct hread,
      fun _ hmem => absurd hmem List.not_mem_nil, ?_, fun id hnew hlt => ?_⟩
    · rw [hslice]
      exact hbound _ _ hvar
    · exact absurd hlt (not_lt.mpr hnew)
  · next hnot =>
    obtain ⟨id, var, rfl, hstep, rfl, hget, hstorage, htype, hsize, hone⟩ := gather_ok hc hrest
    refine ⟨_, hstep, .gathered ?_ hreads hget (le_refl _) hstorage htype hsize, ?_,
      d.backend.vars.lt_size_of_get? hget, fun id hnew hlt => ?_⟩
    · rw [hlength]
      intro hone
      obtain ⟨slice', hslice⟩ := List.length_eq_one_iff.mp hone
      exact hnot slice' hslice
    · intro instruction hmem
      rw [dst_copies instruction hmem]
      exact le_refl _
    · have hindex : c'.backend.vars.size = id.index := by omega
      exact congrArg VarId.mk hindex

end Site
end Dataflow
