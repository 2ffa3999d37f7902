import Dataflow.Proofs.Acceptance.Exact
import Dataflow.Proofs.Compiler.Layout

/-!
# When the steps of a compiler succeed

Reserving storage succeeds if the limit is not reached.  The compiler emits instructions on slices
that lie inside their variables as far as their ends are words (`Instruction.Placed`); such an
instruction is taken if all ends are words and there is a region to take it (`Compiler.HasRegion`).
`Compiler.Spends c amount d` says how much storage has been reserved on the way from `c` to `d`, on
which no region is opened.
-/

namespace Dataflow

open Attempt

/-- A slice that lies inside an allocated variable unless its end is no word, one that may be
written if the flag is set. -/
def Slice.Placed (slice : Slice) (vars : VariableTable) (written : Bool) : Prop :=
  ∃ var, vars.get? slice.var = some var ∧ var.allocated = true ∧ slice.length ≠ 0 ∧
    (slice.stop ≤ Word.top → slice.stop ≤ var.size) ∧ ¬ (written = true ∧ var.storage = .input)

/-- An instruction that an assembler with the given variables takes if all ends are words. -/
structure Instruction.Placed (vars : VariableTable) (instruction : Instruction) : Prop where
  dst : instruction.dst.Placed vars true
  sources : ∀ slice ∈ instruction.sources, slice.Placed vars false
  lengths : instruction.lengthsFit = true

lemma Slice.Placed.mono {slice : Slice} {vars vars' : VariableTable} {written : Bool}
    (h : slice.Placed vars written) (htable : vars.Prefix vars') : slice.Placed vars' written := by
  obtain ⟨var, hvar, hrest⟩ := h
  exact ⟨var, htable.get? hvar, hrest⟩

lemma Slice.Placed.inside_iff {slice : Slice} {vars : VariableTable} {written : Bool}
    (h : slice.Placed vars written) : slice.Inside vars written ↔ slice.stop ≤ Word.top := by
  obtain ⟨var, hvar, hallocated, hlength, hinside, hwritable⟩ := h
  constructor
  · rintro ⟨_, -, -, hword, -⟩
    exact hword
  · exact fun hword => ⟨var, hvar, hallocated, hword, hlength, hinside hword, hwritable⟩

lemma Instruction.Placed.admissible_iff {instruction : Instruction} {vars : VariableTable}
    (h : instruction.Placed vars) :
    instruction.Admissible vars ↔ instruction.dst.stop ≤ Word.top ∧
      ∀ slice ∈ instruction.sources, slice.stop ≤ Word.top := by
  constructor
  · exact fun hadmissible => ⟨h.dst.inside_iff.mp hadmissible.dst, fun slice hslice =>
      (h.sources slice hslice).inside_iff.mp (hadmissible.sources slice hslice)⟩
  · exact fun ⟨hdst, hsources⟩ => ⟨h.dst.inside_iff.mpr hdst, fun slice hslice =>
      (h.sources slice hslice).inside_iff.mpr (hsources slice hslice), h.lengths⟩

namespace Assembler

variable {a b : Assembler}

/-- The nodes that have regions in the open function, in the order of creation. -/
def opened (a : Assembler) : Option (List NodeId) :=
  a.pending.map fun pending => pending.regions.rows.map Region.node

lemma opened_eq_some {nodes : List NodeId} : a.opened = some nodes ↔
    ∃ pending, a.pending = some pending ∧ pending.regions.rows.map Region.node = nodes := by
  rw [opened, Option.map_eq_some_iff]

lemma Tidy.opened_emit (ha : a.Tidy) {instruction : Instruction} (h : a.emit instruction = .ok b) :
    b.opened = a.opened ∧ b.used = a.used := by
  obtain ⟨-, pending, table, hpending, htable, rfl⟩ := emit_eq_ok.mp h
  obtain ⟨-, -, hnodes⟩ := (ha.sound pending hpending).emit? htable
  refine ⟨?_, rfl⟩
  rw [opened, opened, hpending]
  exact congrArg some hnodes

/-- An admissible instruction is taken if there is a region. -/
lemma exists_emit {nodes : List NodeId} (hopened : a.opened = some nodes) (hnodes : nodes ≠ [])
    {instruction : Instruction} (h : instruction.Admissible a.vars) :
    ∃ b, a.emit instruction = .ok b := by
  obtain ⟨pending, hpending, rfl⟩ := opened_eq_some.mp hopened
  have hsize : pending.regions.size ≠ 0 := by
    intro hzero
    rw [← RegionTable.length_rows, List.length_eq_zero_iff] at hzero
    rw [hzero] at hnodes
    exact hnodes rfl
  have hemit : ∃ table, pending.regions.emit? instruction = some table := by
    rw [RegionTable.emit?]
    split
    · next hzero => exact absurd hzero hsize
    · exact ⟨_, rfl⟩
  obtain ⟨table, htable⟩ := hemit
  exact ⟨_, emit_eq_ok.mpr ⟨checkInstruction_eq_ok.mpr h, pending, table, hpending, htable, rfl⟩⟩

/-- A slice that is placed is refused only because its end is no word. -/
lemma checkSlice_eq_error {slice : Slice} {written : Bool} {fault : BackendFault}
    (hplaced : slice.Placed a.vars written) (h : a.checkSlice slice written = .error fault) :
    fault = .overflow := by
  rcases slice.stop?_cases with ⟨hword, -⟩ | ⟨-, hstop⟩
  · rw [checkSlice_eq_ok.mpr (hplaced.inside_iff.mpr hword)] at h
    cases h
  · obtain ⟨var, hvar, hallocated, -⟩ := hplaced
    rw [checkSlice, hvar] at h
    simp only [hallocated, hstop] at h
    exact (Except.error.inj h).symm

/-- An instruction that is placed is refused only because an end is no word. -/
lemma emit_eq_error {nodes : List NodeId} (hopened : a.opened = some nodes) (hnodes : nodes ≠ [])
    {instruction : Instruction} (hplaced : instruction.Placed a.vars) {fault : BackendFault}
    (h : a.emit instruction = .error fault) : fault = .overflow := by
  rcases Except.bind_eq_error.mp h with hcheck | ⟨_, hcheck, -⟩
  · rcases Except.bind_eq_error.mp hcheck with hdst | ⟨_, -, hrest⟩
    · exact checkSlice_eq_error hplaced.dst hdst
    rcases Except.bind_eq_error.mp hrest with hsources | ⟨_, -, hlengths⟩
    · obtain ⟨slice, hslice, hrefused⟩ := Except.exists_of_forM_eq_error hsources
      exact checkSlice_eq_error (hplaced.sources slice hslice) hrefused
    · rw [hplaced.lengths] at hlengths
      cases hlengths
  · obtain ⟨b, hemit⟩ := exists_emit hopened hnodes (checkInstruction_eq_ok.mp hcheck)
    cases hemit.symm.trans h

/-- A region is opened for a node that has none. -/
lemma openRegion_exact (ha : a.Tidy) {nodes : List NodeId} (hopened : a.opened = some nodes)
    {node : NodeId} (hnew : node ∉ nodes) :
    ∃ b, a.openRegion node = .ok b ∧ b.opened = some (nodes ++ [node]) ∧ b.used = a.used := by
  obtain ⟨pending, hpending, rfl⟩ := opened_eq_some.mp hopened
  have hsound := ha.sound pending hpending
  have hfree : pending.regions.regionOf? node = none := by
    rw [← Option.not_isSome_iff_eq_none, RegionTable.regionOf?_isSome hsound,
      hsound.nodes_segments]
    exact hnew
  have hcreate : ∃ table, pending.regions.create? node = some table := by
    rw [RegionTable.create?, hfree]
    exact ⟨_, rfl⟩
  obtain ⟨table, htable⟩ := hcreate
  obtain ⟨-, -, hnodes⟩ := hsound.create? htable
  exact ⟨_, openRegion_eq_ok.mpr ⟨pending, table, hpending, htable, rfl⟩, congrArg some hnodes, rfl⟩

lemma Tidy.opened_mergeRegion (ha : a.Tidy) (node : NodeId) :
    (a.accept (a.mergeRegion? node)).2.opened = a.opened ∧
      (a.accept (a.mergeRegion? node)).2.used = a.used := by
  cases hnext : a.mergeRegion? node with
  | none => exact ⟨rfl, rfl⟩
  | some next =>
    obtain ⟨pending, table, source, hpending, -, htable, rfl⟩ := mergeRegion?_eq_some.mp hnext
    obtain ⟨-, -, hnodes⟩ := (ha.sound pending hpending).mergeWithPredecessor? htable
    refine ⟨?_, rfl⟩
    rw [opened, opened, hpending]
    exact congrArg some hnodes

end Assembler

namespace Compiler

/-- An amount of storage has been reserved, for all variables that have been added, and no region
has been opened. -/
structure Spends (c : Compiler Assembler) (amount : ℕ) (d : Compiler Assembler) : Prop where
  used : d.backend.used = c.backend.used + amount
  limit : d.backend.limit = c.backend.limit
  opened : d.backend.opened = c.backend.opened
  vars : c.backend.vars.Prefix d.backend.vars
  stored : ∀ id var, c.backend.vars.size ≤ id.index → d.backend.vars.get? id = some var →
    var.allocated = true

/-- There is a region to take instructions. -/
def HasRegion (c : Compiler Assembler) : Prop :=
  ∃ nodes, c.backend.opened = some nodes ∧ nodes ≠ []

variable {c d e : Compiler Assembler} {amount amount' : ℕ}

namespace Spends

/-- Nothing has been reserved if the variables are the same. -/
lemma of_vars_eq (hused : d.backend.used = c.backend.used)
    (hlimit : d.backend.limit = c.backend.limit)
    (hopened : d.backend.opened = c.backend.opened) (hvars : d.backend.vars = c.backend.vars) :
    c.Spends 0 d where
  used := hused
  limit := hlimit
  opened := hopened
  vars := hvars ▸ .refl _
  stored id var hid hvar := by
    rw [hvars, VariableTable.get?_eq_none _ hid] at hvar
    cases hvar

lemma refl (c : Compiler Assembler) : c.Spends 0 c := .of_vars_eq rfl rfl rfl rfl

lemma trans (h : c.Spends amount d) (h' : d.Spends amount' e) :
    c.Spends (amount + amount') e where
  used := by rw [h'.used, h.used, Nat.add_assoc]
  limit := h'.limit.trans h.limit
  opened := h'.opened.trans h.opened
  vars := h.vars.trans h'.vars
  stored id var hid hvar := by
    by_cases hlt : id.index < d.backend.vars.size
    · have hold : d.backend.vars.get? id = some d.backend.vars.entries[id.index] :=
        Array.getElem?_eq_getElem hlt
      have hsame := h'.vars.get? hold
      obtain rfl := Option.some.inj (hsame.symm.trans hvar)
      exact h.stored id _ hid hold
    · exact h'.stored id var (not_lt.mp hlt) hvar

lemma within (h : c.Spends amount d) (hlimit : c.backend.used + amount ≤ c.backend.limit) :
    d.backend.used ≤ d.backend.limit := by
  rwa [h.used, h.limit]

lemma bindPort (h : c.Spends amount d) (port : PortId) (var : VarId) :
    c.Spends amount (d.bindPort port var) := { h with }

lemma hasRegion (h : c.Spends amount d) (hc : c.HasRegion) : d.HasRegion := by
  obtain ⟨nodes, hopened, hnodes⟩ := hc
  exact ⟨nodes, h.opened.trans hopened, hnodes⟩

end Spends

section

variable (hc : c.backend.Tidy)

include hc

/-- Storage is reserved for a new variable as long as the limit allows it. -/
lemma allocate_exact (spec : VariableSpec) :
    Exact (allocate spec) c (c.backend.used + spec.size ≤ c.backend.limit) fun var d =>
      c.Step [] d ∧ c.Spends spec.size d ∧ var = c.backend.vars.next ∧
        d.backend.vars.get? var = some (c.backend.allotted spec) where
  sound {var d} hrun := by
    obtain ⟨hstep, rfl, hlist⟩ := allocate_ok hc hrun
    obtain ⟨backend, hnext, -, rfl⟩ := allocate_eq_ok.mp hrun
    obtain ⟨var, hvar, -, hlimit, rfl⟩ := Assembler.allocate_eq_ok.mp hnext
    have hnew := c.backend.vars.get?_declare_next spec
    obtain rfl : spec.variable c.backend.vars.next = var := Option.some.inj (hnew.symm.trans hvar)
    refine ⟨hlimit, hstep, ⟨rfl, rfl, rfl, hstep.backend.vars, fun id var hid hvar => ?_⟩, rfl,
      VariableTable.get?_next hlist⟩
    obtain hold | ⟨-, rfl⟩ := VariableTable.get?_of_concat hlist hvar
    · exact absurd (c.backend.vars.lt_size_of_get? hold) (not_lt.mpr hid)
    · rfl
  complete hlimit := by
    have hnext : (c.backend.declare spec).allocate c.vars.next = .ok _ :=
      Assembler.allocate_eq_ok.mpr
        ⟨_, c.backend.vars.get?_declare_next spec, rfl, hlimit, rfl⟩
    exact ⟨_, _, allocate_eq_ok.mpr ⟨_, hnext, rfl, rfl⟩⟩
  portable hrun := by
    rw [allocate_run] at hrun
    cases hnext : (c.backend.declare spec).allocate c.vars.next with
    | ok backend =>
      rw [hnext] at hrun
      cases hrun
    | error fault =>
      rw [hnext] at hrun
      obtain ⟨rfl, -⟩ := EStateM.Result.error.inj hrun
      exact .inr (Assembler.allocate_declare_error hnext).1

/-- An instruction that is placed is taken if all ends of its slices are words. -/
lemma emit_exact (hregion : c.HasRegion) {instruction : Instruction}
    (hplaced : instruction.Placed c.backend.vars) :
    Exact (emit instruction) c
      (instruction.dst.stop ≤ Word.top ∧ ∀ slice ∈ instruction.sources, slice.stop ≤ Word.top)
      fun _ d => c.Step [instruction] d ∧ c.Spends 0 d ∧ d.backend.vars = c.backend.vars where
  sound {_ d} hrun := by
    obtain ⟨hstep, hvars⟩ := emit_ok hc hrun
    obtain ⟨backend, hbackend, rfl⟩ := emit_eq_ok.mp hrun
    obtain ⟨hopened, hused⟩ := hc.opened_emit hbackend
    obtain ⟨hcheck, -⟩ := Assembler.emit_eq_ok.mp hbackend
    exact ⟨hplaced.admissible_iff.mp (Assembler.checkInstruction_eq_ok.mp hcheck), hstep,
      .of_vars_eq hused hstep.backend.limit_eq hopened hvars, hvars⟩
  complete hwords := by
    obtain ⟨nodes, hopened, hnodes⟩ := hregion
    obtain ⟨backend, hbackend⟩ :=
      Assembler.exists_emit hopened hnodes (hplaced.admissible_iff.mpr hwords)
    exact ⟨(), _, emit_eq_ok.mpr ⟨backend, hbackend, rfl⟩⟩
  portable hrun := by
    obtain ⟨nodes, hopened, hnodes⟩ := hregion
    obtain ⟨fault, hrefused, rfl, -⟩ := emit_eq_error.mp hrun
    obtain rfl := Assembler.emit_eq_error hopened hnodes hplaced hrefused
    exact .inl trivial

end

end Compiler
end Dataflow
