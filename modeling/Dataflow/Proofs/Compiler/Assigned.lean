import Dataflow.Proofs.Compiler.Initialised

/-!
# What the code of a node reads and writes

A node of a model whose references point backwards reads the variables of other ports and scratch
variables of its own, which its code fills before.  So its code is initialised if what the other
ports hold has been written, and afterwards the node's own variable is written too
(`Grounded.node_initialised`, `NodeCode.wrote`).
-/

namespace Dataflow

/-- Preparing an operand copies reads of ports to where the operand is read from. -/
lemma Operand.copies {model : Model} {vars : VariableTable} {old : ℕ}
    {place : PortId → Option VarId} {ranges : List PortRange} {code : List Instruction}
    {slice : Slice} (h : Operand model vars old place ranges code slice) :
    ∀ instruction ∈ code, ∃ dst src, instruction = .copy dst src ∧ dst.var = slice.var ∧
      ∃ range ∈ ranges, Reads model place range src := by
  cases h with
  | direct => exact fun _ hmem => absurd hmem List.not_mem_nil
  | gathered _ hreads =>
    intro instruction hmem
    have hdst := dst_copies instruction hmem
    obtain ⟨dst, src, hsrc, rfl⟩ := copy_of_mem_copies instruction hmem
    exact ⟨dst, src, rfl, hdst, Reads.exists_of_mem hreads hsrc⟩

/-- An operand is read in its place, or it is a scratch variable that has been filled. -/
lemma Operand.filled {model : Model} {vars : VariableTable} {old : ℕ}
    {place : PortId → Option VarId} {ranges : List PortRange} {code : List Instruction}
    {slice : Slice} (h : Operand model vars old place ranges code slice) :
    (code = [] ∧ ∃ range ∈ ranges, Reads model place range slice) ∨
      ∃ var, vars.get? slice.var = some var ∧ var.storage = .scratch ∧
        slice = ⟨slice.var, 0, var.size⟩ ∧ Filled code slice.var var.size := by
  cases h with
  | direct hread => exact .inl ⟨rfl, _, List.mem_cons_self, hread⟩
  | @gathered _ slices id var _ _ hvar _ hstorage _ hsize =>
    exact .inr ⟨var, hvar, hstorage, rfl, hsize ▸ filled_copies id var.size slices⟩

/-- A node whose values are there from the start. -/
def NodeKind.IsGiven (kind : NodeKind) : Prop := kind = .input ∨ ∃ values, kind = .constant values

/-- A node that has code computes its values. -/
lemma NodeCode.not_isGiven {model : Model} {vars : VariableTable} {old : ℕ}
    {place : PortId → Option VarId} {node : Node} {home : VarId} {code : List Instruction}
    (h : NodeCode model vars old place node home code) (hcode : code ≠ []) :
    ¬ node.kind.IsGiven := by
  cases h with
  | input | constant => exact absurd rfl hcode
  | concatenation hkind => rcases hkind with hkind | hkind <;> simp [NodeKind.IsGiven, hkind]
  | unary hkind | accumulator hkind | binary hkind | dot hkind | reduce hkind =>
    simp [NodeKind.IsGiven, hkind]

/-- The code of a node fills the node's variable, unless that is given. -/
lemma NodeCode.wrote {model : Model} {vars : VariableTable} {old : ℕ}
    {place : PortId → Option VarId} {node : Node} {home : VarId} {code : List Instruction}
    (h : NodeCode model vars old place node home code) (hgiven : ¬ node.kind.IsGiven) {i : ℕ}
    (hi : i < node.size) : Wrote code home i := by
  have hwhole : Slice.Covers ⟨home, 0, node.size⟩ home i := ⟨rfl, Nat.zero_le i, by simpa using hi⟩
  cases h with
  | input hkind => exact absurd (.inl hkind) hgiven
  | constant hkind => exact absurd (.inr ⟨_, hkind⟩) hgiven
  | @concatenation slices _ _ hsize =>
    exact (filled_copies home node.size slices).wrote (hsize ▸ hi)
  | unary | accumulator | binary | dot =>
    exact ⟨_, List.mem_append_right _ List.mem_cons_self, hwhole⟩
  | reduce => exact ⟨_, List.mem_cons_self, hwhole⟩

/-- A variable that holds its values from the start: that of an input, or that of a constant with
the constant's values. -/
def Model.Given (model : Model) (vars : VariableTable) (place : PortId → Option VarId)
    (id : VarId) : Prop :=
  ∃ node ∈ model.nodes.toList, place node.port.id = some id ∧ ∃ var, vars.get? id = some var ∧
    (node.kind = .input ∧ var.storage = .input ∨
      ∃ values, node.kind = .constant values ∧ var.initializer = .data values)

namespace Compiler

/-- A model whose references point backwards has been compiled to a function. -/
structure Grounded (model : Model) (name : String) (c : Compiler Assembler) (function : Function)
    (d : Compiler Assembler) : Prop where
  written : Written model name c function d
  wellFormed : model.WellFormed
  backward : model.Backward

namespace Grounded

variable {model : Model} {name : String} {c d : Compiler Assembler} {function : Function}
variable {table : VariableTable} {low : ℕ} {node : Node} {home : VarId}
variable {code done : List Instruction} {ranges : List PortRange} {slices : List Slice}
variable {slice : Slice} {given : VarId → Prop}
variable (h : Grounded model name c function d)

include h

lemma index_eq (hnode : node ∈ model.nodes.toList) :
    model.nodes[node.port.id.index]? = some node :=
  h.wellFormed.numbered.getElem?_port hnode

/-- A node is known by its variable. -/
lemma node_eq {node' : Node} (hnode : node ∈ model.nodes.toList)
    (hnode' : node' ∈ model.nodes.toList) (hhome : d.variableOf? node.port.id = some home)
    (hhome' : d.variableOf? node'.port.id = some home) : node = node' := by
  have hport := h.written.layout.injective _ _ home hhome hhome'
  have hindex := h.index_eq hnode
  rw [hport, h.index_eq hnode', Option.some.injEq] at hindex
  exact hindex.symm

lemma exists_home (hnode : node ∈ model.nodes.toList)
    (hhome : d.variableOf? node.port.id = some home) :
    ∃ var, d.backend.vars.get? home = some var ∧ Home node var := by
  obtain ⟨other, var, hother, hvar, hplace⟩ := h.written.layout.home _ home hhome
  obtain rfl : node = other := Option.some.inj ((h.index_eq hnode).symm.trans hother)
  exact ⟨var, hvar, hplace⟩

/-- The variable of a port is no scratch variable. -/
lemma not_scratch {port : PortId} {id : VarId} (hid : d.variableOf? port = some id)
    {var : Variable} (hvar : d.backend.vars.get? id = some var) : var.storage ≠ .scratch := by
  obtain ⟨other, var', -, hvar', hplace⟩ := h.written.layout.home port id hid
  obtain rfl : var = var' := Option.some.inj (hvar.symm.trans hvar')
  exact hplace.ne_scratch

lemma within : ∀ instruction ∈ function.body, ∀ slice ∈ instruction.slices,
    slice.Within d.backend.vars :=
  fun instruction hmem => (h.written.admissible instruction hmem).within

/-- Preparing an operand needs what it reads, and afterwards the operand is ready. -/
lemma operand_initialised (hbody : ∀ instruction ∈ code, instruction ∈ function.body)
    (hoperand : Operand model table low d.variableOf? ranges code slice)
    (hready : ∀ range ∈ ranges, ∀ slice, Reads model d.variableOf? range slice →
      slice.Within d.backend.vars → slice.Ready given done)
    (hslice : slice.Within d.backend.vars) :
    Initialised given done code ∧ slice.Ready given (done ++ code) := by
  refine ⟨.of_ready fun instruction hmem source hsource => ?_, ?_⟩
  · have hwithin := h.within instruction (hbody instruction hmem) source
      (Instruction.mem_slices_of_reads hsource)
    obtain ⟨dst, src, rfl, -, range, hrange, hread⟩ := hoperand.copies instruction hmem
    obtain rfl := List.mem_singleton.mp hsource
    exact hready range hrange source hread hwithin
  · rcases hoperand.filled with ⟨rfl, range, hrange, hread⟩ | ⟨var, -, -, hwhole, hfilled⟩
    · exact (hready range hrange slice hread hslice).append []
    · rintro i ⟨-, -, hi⟩
      rw [hwhole] at hi
      refine .inr ((hfilled.wrote ?_).mono fun _ => List.mem_append_right done)
      simpa using hi

/-! ## Nodes -/

/-- The code of a node is initialised if what the node reads is. -/
lemma node_initialised (hcode : NodeCode model table low d.variableOf? node home code)
    (hbody : ∀ instruction ∈ code, instruction ∈ function.body)
    (hready : ∀ range ∈ node.ranges, ∀ slice, Reads model d.variableOf? range slice →
      slice.Within d.backend.vars → slice.Ready given done) :
    Initialised given done code := by
  have hwithin : ∀ instruction ∈ code, ∀ slice ∈ instruction.slices, slice.Within d.backend.vars :=
    fun instruction hmem => h.within instruction (hbody instruction hmem)
  have hoperand : ∀ {index part slice}, (∀ instruction ∈ part, instruction ∈ code) →
      Operand model table low d.variableOf? (node.operand index) part slice →
      slice.Within d.backend.vars → ∀ before, Initialised given (done ++ before) part ∧
        slice.Ready given (done ++ before ++ part) := by
    intro index part slice hpart hoperand hslice before
    have hbody' : ∀ instruction ∈ part, instruction ∈ function.body := fun instruction hmem =>
      hbody instruction (hpart instruction hmem)
    refine h.operand_initialised hbody' hoperand
      (fun range hrange slice hread hslice => ?_) hslice
    exact (hready range (Node.mem_ranges hrange) slice hread hslice).append before
  cases hcode with
  | input | constant => trivial
  | concatenation _ hreads =>
    refine .of_ready fun instruction hmem source hsource => ?_
    have hsource' := hwithin instruction hmem source (Instruction.mem_slices_of_reads hsource)
    obtain ⟨dst, src, hsrc, rfl⟩ := copy_of_mem_copies instruction hmem
    obtain rfl := List.mem_singleton.mp hsource
    obtain ⟨range, hrange, hread⟩ := Reads.exists_of_mem hreads hsrc
    exact hready range (Node.mem_ranges hrange) source hread hsource'
  | unary _ hsrc =>
    obtain ⟨hpart, hsrc'⟩ := hoperand (fun _ => List.mem_append_left _) hsrc
      (hwithin _ (List.mem_append_right _ List.mem_cons_self) _ (List.mem_cons_of_mem _
        List.mem_cons_self)) []
    rw [List.append_nil] at hpart hsrc'
    exact hpart.append (.single (List.forall_mem_singleton.mpr (.inl hsrc')))
  | accumulator _ hsrc =>
    obtain ⟨hpart, hsrc'⟩ := hoperand (fun _ => List.mem_append_left _) hsrc
      (hwithin _ (List.mem_append_right _ List.mem_cons_self) _ (List.mem_cons_of_mem _
        (List.mem_cons_of_mem _ List.mem_cons_self))) []
    rw [List.append_nil] at hpart hsrc'
    exact hpart.append (.single (List.forall_mem_cons.mpr
      ⟨.inr ⟨_, rfl⟩, List.forall_mem_singleton.mpr (.inl hsrc')⟩))
  | @binary _ part part' _ _ _ hlhs hrhs | @dot part part' _ _ _ _ hlhs hrhs =>
    have hlast := hwithin _ (List.mem_append_right _ List.mem_cons_self)
    obtain ⟨hpart, hlhs'⟩ := hoperand
      (fun _ hmem => List.mem_append_left _ (List.mem_append_left _ hmem)) hlhs
      (hlast _ (List.mem_cons_of_mem _ List.mem_cons_self)) []
    obtain ⟨hpart', hrhs'⟩ := hoperand
      (fun _ hmem => List.mem_append_left _ (List.mem_append_right _ hmem)) hrhs
      (hlast _ (List.mem_cons_of_mem _ (List.mem_cons_of_mem _ List.mem_cons_self))) part
    rw [List.append_nil] at hpart hlhs'
    refine (hpart.append hpart').append (.single (List.forall_mem_cons.mpr
      ⟨.inl ?_, List.forall_mem_singleton.mpr (.inl ?_)⟩))
    · rw [← List.append_assoc]
      exact hlhs'.append part'
    · rwa [← List.append_assoc]
  | @reduce op slices _ _ hreads =>
    -- the running value has been set before it is read
    refine ⟨fun _ hmem => absurd hmem List.not_mem_nil, .of_ready (List.forall_mem_map.mpr
      fun src hsrc => List.forall_mem_cons.mpr ⟨fun i hi => .inr ⟨_, List.mem_append_right _
        List.mem_cons_self, hi⟩, List.forall_mem_singleton.mpr ?_⟩)⟩
    obtain ⟨range, hrange, hread⟩ := Reads.exists_of_mem hreads hsrc
    refine (hready range (Node.mem_ranges hrange) src hread ?_).append _
    exact hwithin _ (List.mem_cons_of_mem _ (List.mem_map_of_mem hsrc)) src
      (List.mem_cons_of_mem _ List.mem_cons_self)

/-! ## Scratch variables -/

section

variable {id : VarId} {var : Variable} {part part' : List Instruction} {lhs rhs : Slice}
variable {ranges' : List PortRange} {use : Instruction}
variable (hvar : d.backend.vars.get? id = some var) (hstorage : var.storage = .scratch)

include hvar hstorage

lemma read_ne {range : PortRange} (hread : Reads model d.variableOf? range slice) :
    slice.var ≠ id := by
  obtain ⟨source, hsource, rfl⟩ := hread.slice
  rintro rfl
  exact h.not_scratch hsource hvar hstorage

lemma reads_ne (hreads : List.Forall₂ (Reads model d.variableOf?) ranges slices)
    (hslice : slice ∈ slices) : slice.var ≠ id := by
  obtain ⟨range, -, hread⟩ := Reads.exists_of_mem hreads hslice
  exact h.read_ne hvar hstorage hread

/-- Preparing operands does not read scratch variables. -/
lemma operand_reads_ne (hoperand : Operand model table low d.variableOf? ranges part slice) :
    ∀ instruction ∈ part, ∀ source ∈ instruction.reads, source.var ≠ id := by
  intro instruction hmem source hsource
  obtain ⟨dst, src, rfl, -, range, -, hread⟩ := hoperand.copies instruction hmem
  obtain rfl := List.mem_singleton.mp hsource
  exact h.read_ne hvar hstorage hread

variable (htable : table.Prefix d.backend.vars)

include htable

/-- An operand that is a scratch variable has been filled. -/
lemma filled_of_scratch (hoperand : Operand model table low d.variableOf? ranges part slice)
    (hid : slice.var = id) : slice = ⟨id, 0, var.size⟩ ∧ Filled part id var.size := by
  rcases hoperand.filled with ⟨-, range, -, hread⟩ | ⟨other, hother, -, hwhole, hfilled⟩
  · exact absurd hid (h.read_ne hvar hstorage hread)
  · subst hid
    obtain rfl : other = var := Option.some.inj ((htable.get? hother).symm.trans hvar)
    exact ⟨hwhole, hfilled⟩

/-- A scratch variable that a single operand is read from is used once. -/
lemma usedOnce_single (hsrc : Operand model table low d.variableOf? ranges part slice)
    (hid : slice.var = id)
    (huse : use.reads.filter (fun slice => slice.var = id) = [slice]) (hdst : use.dst.var ≠ id) :
    UsedOnce (part ++ [use]) id var.size := by
  obtain ⟨hwhole, hfilled⟩ := h.filled_of_scratch hvar hstorage htable hsrc hid
  exact .last hfilled (hwhole ▸ huse) hdst (h.operand_reads_ne hvar hstorage hsrc)

/-- A scratch variable that an operand of two is read from is used once. -/
lemma usedOnce_pair (hbody : ∀ instruction ∈ part ++ part' ++ [use], instruction ∈ function.body)
    (hlhs : Operand model table low d.variableOf? ranges part lhs)
    (hrhs : Operand model table low d.variableOf? ranges' part' rhs)
    (hkeep : ∀ instruction ∈ part', instruction.dst.var ≠ lhs.var)
    (huse : use.reads = [lhs, rhs]) (hdst : use.dst.var ≠ id) (hid : lhs.var = id ∨ rhs.var = id) :
    UsedOnce (part ++ part' ++ [use]) id var.size := by
  obtain ⟨-, hlast⟩ := List.forall_mem_append.mp hbody
  have hleft := h.filled_of_scratch hvar hstorage htable hlhs
  have hright := h.filled_of_scratch hvar hstorage htable hrhs
  -- the second operand is not gathered where the first one is read from
  have hdistinct : lhs.var = id → rhs.var ≠ id := by
    intro hlhs hrhs
    obtain ⟨hwhole, hfilled⟩ := hright hrhs
    obtain ⟨source, -, hlength, -⟩ := h.within use (List.forall_mem_singleton.mp hlast) rhs
      (Instruction.mem_slices_of_reads (huse ▸ List.mem_cons_of_mem _ List.mem_cons_self))
    rw [hwhole] at hlength
    obtain ⟨instruction, hmem, hcovers⟩ := hfilled.wrote (Nat.pos_of_ne_zero hlength)
    exact hkeep instruction hmem (hcovers.1.trans hlhs.symm)
  refine .last ?_ ?_ hdst (List.forall_mem_append.mpr
    ⟨h.operand_reads_ne hvar hstorage hlhs, h.operand_reads_ne hvar hstorage hrhs⟩)
  · rcases hid with hid | hid
    · exact (hleft hid).2.congr (writes_append_right fun instruction hmem =>
        hid ▸ hkeep instruction hmem)
    · refine (hright hid).2.congr (writes_append_left fun instruction hmem => ?_)
      obtain ⟨dst, src, rfl, hdst, -⟩ := hlhs.copies instruction hmem
      exact fun heq => hdistinct (hdst.symm.trans heq) hid
  · rw [huse]
    rcases hid with hid | hid
    · simp [hdistinct hid, (hleft hid).1]
    · have hne : lhs.var ≠ id := fun heq => hdistinct heq hid
      simp [hne, (hright hid).1]

end

end Grounded
end Compiler
end Dataflow
