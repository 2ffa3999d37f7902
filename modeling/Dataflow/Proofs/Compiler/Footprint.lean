import Dataflow.Proofs.Compiler.Compiled

/-!
# What compiled code touches

The slices of a function's instructions are of a few kinds only: the whole home of a port, reads of
ports, scratch storage in which ranges are gathered, and the parts of these that ranges are copied
to.  What spreads over these kinds (`Spreads`) holds of all slices (`NodeCode.forall_slices`).  So a
function touches homes of ports and scratch storage only (`Written.touched`).  None of these was
there before the function was compiled (`Written.size_le`), and those that are parameters stand for
a port of the roster (`Written.parameter`).
-/

namespace Dataflow

/-- All slices of an instruction: the one it writes and those it reads. -/
def Instruction.slices (instruction : Instruction) : List Slice :=
  instruction.dst :: instruction.sources

/-- A property that the slices in the code of a node have, whose variable is given: the whole of
this variable, the reads of ports, scratch storage behind the first `old` variables, and the parts
of the node's variable or of scratch storage that reads of ports are copied to. -/
structure Spreads (model : Model) (vars : VariableTable) (old : ℕ) (place : PortId → Option VarId)
    (node : Node) (home : VarId) (Q : Slice → Prop) : Prop where
  own : Q ⟨home, 0, node.size⟩
  reads : ∀ range ∈ node.ranges, ∀ slice, Reads model place range slice → Q slice
  scratch : ∀ id var, vars.get? id = some var → old ≤ id.index → var.storage = .scratch →
    Q ⟨id, 0, var.size⟩
  parts : ∀ {id size ranges slices}, Q ⟨id, 0, size⟩ →
    (id = home ∨ ∃ var, vars.get? id = some var ∧ var.storage = .scratch) →
    (∀ range ∈ ranges, range ∈ node.ranges) → List.Forall₂ (Reads model place) ranges slices →
    (∀ instruction ∈ copies ⟨id, 0, size⟩ 0 slices, instruction.Admissible vars) →
    ∀ instruction ∈ copies ⟨id, 0, size⟩ 0 slices, Q instruction.dst

section

variable {model : Model} {vars : VariableTable} {old : ℕ} {place : PortId → Option VarId}
variable {Q : Slice → Prop} {node : Node} {home id : VarId} {code : List Instruction}
variable {ranges : List PortRange} {slices : List Slice}

lemma Reads.exists_of_mem (h : List.Forall₂ (Reads model place) ranges slices) {slice : Slice}
    (hmem : slice ∈ slices) : ∃ range ∈ ranges, Reads model place range slice := by
  induction h with
  | nil => exact absurd hmem List.not_mem_nil
  | cons hread _ ih =>
    rcases List.mem_cons.mp hmem with rfl | hrest
    · exact ⟨_, List.mem_cons_self, hread⟩
    · obtain ⟨range, hmem, hread⟩ := ih hrest
      exact ⟨range, List.mem_cons_of_mem _ hmem, hread⟩

lemma sources_copies {dst : Slice} {offset : ℕ} :
    ∀ instruction ∈ copies dst offset slices, ∀ slice ∈ instruction.sources, slice ∈ slices := by
  induction slices generalizing offset with
  | nil => exact fun _ hmem => absurd hmem List.not_mem_nil
  | cons src rest ih =>
    refine List.forall_mem_cons.mpr ⟨List.forall_mem_singleton.mpr List.mem_cons_self, ?_⟩
    exact fun instruction hmem slice hslice =>
      List.mem_cons_of_mem _ (ih instruction hmem slice hslice)

variable (hQ : Spreads model vars old place node home Q)

include hQ

/-- Copying reads of ports. -/
lemma Spreads.forall_copies {size : ℕ} (hid : Q ⟨id, 0, size⟩)
    (hdst : id = home ∨ ∃ var, vars.get? id = some var ∧ var.storage = .scratch)
    (hranges : ∀ range ∈ ranges, range ∈ node.ranges)
    (hreads : List.Forall₂ (Reads model place) ranges slices)
    (hadmissible : ∀ instruction ∈ copies ⟨id, 0, size⟩ 0 slices, instruction.Admissible vars) :
    ∀ instruction ∈ copies ⟨id, 0, size⟩ 0 slices, ∀ slice ∈ instruction.slices, Q slice := by
  refine fun instruction hmem => List.forall_mem_cons.mpr
    ⟨hQ.parts hid hdst hranges hreads hadmissible instruction hmem, fun slice hslice => ?_⟩
  obtain ⟨range, hrange, hread⟩ :=
    Reads.exists_of_mem hreads (sources_copies instruction hmem slice hslice)
  exact hQ.reads range (hranges range hrange) slice hread

/-- Preparing an operand, and reading it. -/
lemma Operand.forall_slices {slice : Slice} (h : Operand model vars old place ranges code slice)
    (hranges : ∀ range ∈ ranges, range ∈ node.ranges)
    (hadmissible : ∀ instruction ∈ code, instruction.Admissible vars) :
    (∀ instruction ∈ code, ∀ slice ∈ instruction.slices, Q slice) ∧ Q slice := by
  cases h with
  | direct hread =>
    exact ⟨fun _ hmem => absurd hmem List.not_mem_nil,
      hQ.reads _ (hranges _ List.mem_cons_self) _ hread⟩
  | gathered _ hreads hvar hnew hstorage =>
    have hscratch := hQ.scratch _ _ hvar hnew hstorage
    exact ⟨hQ.forall_copies hscratch (.inr ⟨_, hvar, hstorage⟩) hranges hreads hadmissible,
      hscratch⟩

/-- All slices in the code of a node. -/
lemma NodeCode.forall_slices (h : NodeCode model vars old place node home code)
    (hadmissible : ∀ instruction ∈ code, instruction.Admissible vars) :
    ∀ instruction ∈ code, ∀ slice ∈ instruction.slices, Q slice := by
  have hid := hQ.own
  cases h with
  | input | constant => exact fun _ hmem => absurd hmem List.not_mem_nil
  | concatenation _ hreads =>
    exact hQ.forall_copies hid (.inl rfl) (fun _ => Node.mem_ranges) hreads hadmissible
  | unary _ hsrc | accumulator _ hsrc =>
    obtain ⟨hfirst, -⟩ := List.forall_mem_append.mp hadmissible
    obtain ⟨hcode, hslice⟩ := hsrc.forall_slices hQ (fun _ => Node.mem_ranges) hfirst
    refine List.forall_mem_append.mpr ⟨hcode, List.forall_mem_singleton.mpr ?_⟩
    simpa [Instruction.slices, Instruction.dst, Instruction.sources] using ⟨hid, hslice⟩
  | binary _ hlhs hrhs | dot _ _ hlhs hrhs =>
    obtain ⟨hboth, -⟩ := List.forall_mem_append.mp hadmissible
    obtain ⟨hfirst, hsecond⟩ := List.forall_mem_append.mp hboth
    obtain ⟨hcode, hslice⟩ := hlhs.forall_slices hQ (fun _ => Node.mem_ranges) hfirst
    obtain ⟨hcode', hslice'⟩ := hrhs.forall_slices hQ (fun _ => Node.mem_ranges) hsecond
    refine List.forall_mem_append.mpr
      ⟨List.forall_mem_append.mpr ⟨hcode, hcode'⟩, List.forall_mem_singleton.mpr ?_⟩
    simpa [Instruction.slices, Instruction.dst, Instruction.sources] using ⟨hid, hslice, hslice'⟩
  | reduce _ _ hreads =>
    refine List.forall_mem_cons.mpr ⟨List.forall_mem_singleton.mpr hid, ?_⟩
    refine List.forall_mem_map.mpr fun src hmem => ?_
    obtain ⟨range, hrange, hread⟩ := Reads.exists_of_mem hreads hmem
    exact List.forall_mem_cons.mpr ⟨hid, List.forall_mem_singleton.mpr
      (hQ.reads range (Node.mem_ranges hrange) src hread)⟩

end

/-- Preparing an operand writes to scratch storage. -/
lemma Operand.dst_scratch {model : Model} {vars : VariableTable} {old : ℕ}
    {place : PortId → Option VarId} {ranges : List PortRange} {code : List Instruction}
    {slice : Slice} (h : Operand model vars old place ranges code slice) :
    ∀ instruction ∈ code, ∃ var, vars.get? instruction.dst.var = some var ∧
      var.storage = .scratch := by
  cases h with
  | direct => exact fun _ hmem => absurd hmem List.not_mem_nil
  | gathered _ _ hvar _ hstorage =>
    intro instruction hmem
    rw [dst_copies instruction hmem]
    exact ⟨_, hvar, hstorage⟩

/-- The code of a node writes to the node's variable and to scratch storage. -/
lemma NodeCode.dst_home {model : Model} {vars : VariableTable} {old : ℕ}
    {place : PortId → Option VarId} {node : Node} {home : VarId} {code : List Instruction}
    (h : NodeCode model vars old place node home code) :
    ∀ instruction ∈ code, instruction.dst.var = home ∨
      ∃ var, vars.get? instruction.dst.var = some var ∧ var.storage = .scratch := by
  cases h with
  | input | constant => exact fun _ hmem => absurd hmem List.not_mem_nil
  | concatenation => exact fun instruction hmem => .inl (dst_copies instruction hmem)
  | unary _ hsrc | accumulator _ hsrc =>
    exact List.forall_mem_append.mpr ⟨fun instruction hmem => .inr (hsrc.dst_scratch _ hmem),
      List.forall_mem_singleton.mpr (.inl rfl)⟩
  | binary _ hlhs hrhs | dot _ _ hlhs hrhs =>
    exact List.forall_mem_append.mpr ⟨List.forall_mem_append.mpr
      ⟨fun instruction hmem => .inr (hlhs.dst_scratch _ hmem),
        fun instruction hmem => .inr (hrhs.dst_scratch _ hmem)⟩,
      List.forall_mem_singleton.mpr (.inl rfl)⟩
  | reduce =>
    exact List.forall_mem_cons.mpr ⟨.inl rfl, List.forall_mem_map.mpr fun _ _ => .inl rfl⟩

/-- A variable of a function: the home of a port, or scratch storage behind the first `old`
variables. -/
def Touched (vars : VariableTable) (old : ℕ) (place : PortId → Option VarId) (id : VarId) : Prop :=
  (∃ port, place port = some id) ∨
    old ≤ id.index ∧ ∃ var, vars.get? id = some var ∧ var.storage = .scratch

lemma spreads_touched {model : Model} {vars : VariableTable} {old : ℕ}
    {place : PortId → Option VarId} {node : Node} {home : VarId}
    (h : place node.port.id = some home) :
    Spreads model vars old place node home fun slice => Touched vars old place slice.var where
  own := .inl ⟨_, h⟩
  reads range _ slice hread := by
    obtain ⟨var, hvar, rfl⟩ := hread.slice
    exact .inl ⟨_, hvar⟩
  scratch id var hvar hnew hstorage := .inr ⟨hnew, var, hvar, hstorage⟩
  parts hid _ _ _ _ instruction hmem := by
    rw [dst_copies instruction hmem]
    exact hid

namespace Compiler

variable {model : Model} {name : String} {c d : Compiler Assembler} {function : Function}

/-- What holds of the code of every node holds of the body of the function. -/
lemma Written.forall_instructions (h : Written model name c function d) {P : Instruction → Prop}
    (hP : ∀ node ∈ model.nodes.toList, ∀ home code, d.variableOf? node.port.id = some home →
      NodeCode model d.backend.vars c.backend.vars.size d.variableOf? node home code →
      (∀ instruction ∈ code, instruction.Admissible d.backend.vars) →
      ∀ instruction ∈ code, P instruction) :
    ∀ instruction ∈ function.body, P instruction := by
  obtain ⟨codes, hbody, hcodes⟩ := h.code
  have hadmissible := h.admissible
  rw [hbody] at hadmissible ⊢
  clear hbody
  generalize model.nodes.toList = nodes at hcodes hP
  induction hcodes with
  | nil => exact fun _ hmem => absurd hmem List.not_mem_nil
  | cons hnode _ ih =>
    obtain ⟨home, hhome, hcode⟩ := hnode
    obtain ⟨hfirst, hothers⟩ := List.forall_mem_cons.mp hP
    rw [List.flatten_cons] at hadmissible ⊢
    obtain ⟨hadmissible, hrest⟩ := List.forall_mem_append.mp hadmissible
    exact List.forall_mem_append.mpr ⟨hfirst home _ hhome hcode hadmissible, ih hrest hothers⟩

/-- The body of a function touches ports and scratch storage. -/
lemma Written.touched (h : Written model name c function d) :
    ∀ instruction ∈ function.body, ∀ slice ∈ instruction.slices,
      Touched d.backend.vars c.backend.vars.size d.variableOf? slice.var :=
  h.forall_instructions fun _ _ _ _ hhome hcode hadmissible =>
    hcode.forall_slices (spreads_touched hhome) hadmissible

/-- What is touched lies behind the variables that were there before. -/
lemma Written.size_le (h : Written model name c function d) {id : VarId}
    (hid : Touched d.backend.vars c.backend.vars.size d.variableOf? id) :
    c.backend.vars.size ≤ id.index := by
  rcases hid with ⟨port, hport⟩ | ⟨hnew, -⟩
  · exact h.own port id hport
  · exact hnew

/-- A parameter that is touched stands for a port of the roster. -/
lemma Written.parameter (h : Written model name c function d) (hmodel : model.Numbered)
    {id : VarId} {var : Variable}
    (hid : Touched d.backend.vars c.backend.vars.size d.variableOf? id)
    (hvar : d.backend.vars.get? id = some var) (hparameter : var.storage.isParameter = true) :
    ∃ entry ∈ model.roster, entry.1 = var.storage ∧ d.variableOf? entry.2.id = some id := by
  rcases hid with ⟨port, hport⟩ | ⟨-, other, hother, hscratch⟩
  · obtain ⟨node, other, hnode, hother, hhome⟩ := h.layout.home port id hport
    obtain rfl : var = other := Option.some.inj (hvar.symm.trans hother)
    rw [hhome.storage] at hparameter
    refine ⟨_, Model.mem_roster.mpr ⟨node, Model.mem_nodes hnode, rfl, ?_⟩, hhome.storage.symm, ?_⟩
    · intro hglobal
      rw [hglobal] at hparameter
      cases hparameter
    · rwa [show node.port.id = port from hmodel.port_id hnode]
  · obtain rfl : var = other := Option.some.inj (hvar.symm.trans hother)
    rw [hscratch] at hparameter
    cases hparameter

end Compiler
end Dataflow
