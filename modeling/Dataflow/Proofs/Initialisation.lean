import Dataflow.Proofs.Compiler.Assigned
import Dataflow.Proofs.Compiler.Storage

/-!
# Definite initialisation

The code of a compiled function is read from its first instruction to the last.  If the references
of the model point backwards, it reads only what holds values from the start and what it has written
before, it writes every output once, from the first element to the last, and it fills every scratch
variable before its only use (`Compiler.compile_initialises`).

The code of one node writes to the node's variable and to scratch variables of its own
(`Grounded.node_assigns`).  So the codes of the nodes do not interfere, and what holds of each holds
of the body (`Grounded.assigns_append`, `Grounded.laid_assigns`).
-/

namespace Dataflow

/-- A scratch variable of a part of the table. -/
def Temporary (vars : VariableTable) (low high : ℕ) (id : VarId) : Prop :=
  low ≤ id.index ∧ id.index < high ∧ ∃ var, vars.get? id = some var ∧ var.storage = .scratch

lemma Temporary.mono {vars : VariableTable} {low low' high high' : ℕ} {id : VarId}
    (h : Temporary vars low high id) (hlow : low' ≤ low) (hhigh : high ≤ high') :
    Temporary vars low' high' id :=
  ⟨hlow.trans h.1, h.2.1.trans_le hhigh, h.2.2⟩

/-- The code of some nodes, whose scratch variables are those of a part of the table.  It writes to
the variables of these nodes and to these scratch variables only, and keeps to what they are for. -/
structure Assigns (vars : VariableTable) (place : PortId → Option VarId)
    (nodes : List Node) (low high : ℕ) (code : List Instruction) : Prop where
  le : low ≤ high
  touched : ∀ instruction ∈ code, ∀ slice ∈ instruction.slices,
    (∃ port, place port = some slice.var) ∨ Temporary vars low high slice.var
  written : ∀ instruction ∈ code,
    (∃ node ∈ nodes, ¬ node.kind.IsGiven ∧ place node.port.id = some instruction.dst.var) ∨
      Temporary vars low high instruction.dst.var
  sums : ∀ dst src, .accumulate dst src ∈ code → writes code dst.var = [.accumulate dst src] ∧
    ∃ node ∈ nodes, node.kind = .accumulator ∧ place node.port.id = some dst.var
  outputs : ∀ node ∈ nodes, node.kind = .output → ∀ id, place node.port.id = some id →
    Filled code id node.size
  scratch : ∀ id var, low ≤ id.index → id.index < high → vars.get? id = some var →
    var.storage = .scratch → UsedOnce code id var.size

/-- All elements of the first nodes are given or have been written. -/
def Supplied (model : Model) (vars : VariableTable) (place : PortId → Option VarId) (count : ℕ)
    (done : List Instruction) : Prop :=
  ∀ node ∈ model.nodes.toList, node.port.id.index < count → ∀ id, place node.port.id = some id →
    ∀ i < node.size, model.Given vars place id ∨ Wrote done id i

/-- The body of a function that a model has been compiled to is definitely initialised.  It reads
only what holds values from the start and what it has written before, but for the variables in which
accumulators keep their sums, each of which belongs to one node and is written once.  It fills every
output with copies, and so it does every scratch variable before its only use.  The first `old`
variables belong to other functions. -/
structure Initialises (model : Model) (vars : VariableTable) (old : ℕ)
    (place : PortId → Option VarId) (body : List Instruction) : Prop where
  within : ∀ instruction ∈ body, ∀ slice ∈ instruction.slices, slice.Within vars
  initialised : Initialised (model.Given vars place) [] body
  sums : ∀ dst src, .accumulate dst src ∈ body → writes body dst.var = [.accumulate dst src] ∧
    ∃ node ∈ model.nodes.toList, node.kind = .accumulator ∧ place node.port.id = some dst.var ∧
      ∀ other ∈ model.nodes.toList, place other.port.id = some dst.var → other = node
  given : ∀ id, model.Given vars place id → writes body id = []
  outputs : ∀ node ∈ model.nodes.toList, node.kind = .output → ∃ id var,
    place node.port.id = some id ∧ vars.get? id = some var ∧ Home node var ∧
      Filled body id node.size ∧ ∀ i < node.size, WroteOnce body id i
  scratch : ∀ id var, old ≤ id.index → vars.get? id = some var → var.storage = .scratch →
    UsedOnce body id var.size ∧ ∀ i < var.size, WroteOnce body id i

/-- Negated inputs and a negated constant are summed up from call to call, and the largest of some
values is handed out with the sums. -/
def Model.gatheredSum : Model :=
  ⟨"a", #[⟨⟨0⟩, "x", .input, [], .real, 2⟩,
    ⟨⟨1⟩, "k", .constant [7], [], .real, 1⟩,
    ⟨⟨2⟩, "n", .unary .neg, [⟨"input", ⟨[⟨⟨0⟩, 0, 2⟩, ⟨⟨1⟩, 0, 1⟩]⟩⟩], .real, 3⟩,
    ⟨⟨3⟩, "s", .accumulator, [⟨"input", ⟨[⟨⟨2⟩, 0, 3⟩]⟩⟩], .real, 3⟩,
    ⟨⟨4⟩, "m", .reduce .max, [⟨"input", ⟨[⟨⟨0⟩, 0, 1⟩, ⟨⟨3⟩, 1, 2⟩]⟩⟩], .real, 1⟩,
    ⟨⟨5⟩, "y", .output, [⟨"input", ⟨[⟨⟨4⟩, 0, 1⟩, ⟨⟨3⟩, 0, 3⟩]⟩⟩], .real, 4⟩]⟩

/-- Its code behind three other variables: `x` and `y` come next, then `k`, the scratch variable in
which the operand of `n` is gathered, and `n`, `s` and `m`. -/
def Model.gatheredSumCode : List Instruction :=
  [.copy ⟨⟨6⟩, 0, 2⟩ ⟨⟨3⟩, 0, 2⟩, .copy ⟨⟨6⟩, 2, 1⟩ ⟨⟨5⟩, 0, 1⟩,
    .unary .neg ⟨⟨7⟩, 0, 3⟩ ⟨⟨6⟩, 0, 3⟩, .accumulate ⟨⟨8⟩, 0, 3⟩ ⟨⟨7⟩, 0, 3⟩,
    .fill ⟨⟨9⟩, 0, 1⟩ ReduceOp.max.identity, .reduce .max ⟨⟨9⟩, 0, 1⟩ ⟨⟨3⟩, 0, 1⟩,
    .reduce .max ⟨⟨9⟩, 0, 1⟩ ⟨⟨8⟩, 1, 2⟩, .copy ⟨⟨4⟩, 0, 1⟩ ⟨⟨9⟩, 0, 1⟩,
    .copy ⟨⟨4⟩, 1, 3⟩ ⟨⟨8⟩, 0, 3⟩]

namespace Compiler
namespace Grounded

variable {model : Model} {name : String} {c d : Compiler Assembler} {function : Function}
variable (h : Grounded model name c function d)

include h

section

variable {low mid : ℕ} {node : Node} {home : VarId} {code : List Instruction}
variable (hhome : d.variableOf? node.port.id = some home)
variable (hcode : NodeCode model (d.backend.vars.truncate mid) low d.variableOf? node home code)

include hhome hcode

omit h in
lemma node_touched (hadmissible : ∀ instruction ∈ code,
      instruction.Admissible (d.backend.vars.truncate mid)) :
    ∀ instruction ∈ code, ∀ slice ∈ instruction.slices,
      (∃ port, d.variableOf? port = some slice.var) ∨
        Temporary d.backend.vars low mid slice.var := by
  intro instruction hmem slice hslice
  refine (hcode.forall_slices (spreads_touched hhome) hadmissible instruction hmem slice
    hslice).imp_right ?_
  rintro ⟨hnew, var, hvar, hstorage⟩
  obtain ⟨hlt, hvar⟩ := d.backend.vars.get?_truncate_eq_some.mp hvar
  exact ⟨hnew, hlt, var, hvar, hstorage⟩

lemma node_written (hadmissible : ∀ instruction ∈ code,
      instruction.Admissible (d.backend.vars.truncate mid)) :
    ∀ instruction ∈ code,
      (¬ node.kind.IsGiven ∧ d.variableOf? node.port.id = some instruction.dst.var) ∨
      Temporary d.backend.vars low mid instruction.dst.var := by
  intro instruction hmem
  rcases hcode.dst_home instruction hmem with heq | ⟨var, hvar, hstorage⟩
  · exact .inl ⟨hcode.not_isGiven (List.ne_nil_of_mem hmem), heq ▸ hhome⟩
  · refine .inr ((node_touched hhome hcode hadmissible instruction hmem _
      List.mem_cons_self).resolve_left ?_)
    rintro ⟨port, hport⟩
    exact h.not_scratch hport (d.backend.vars.get?_truncate_eq_some.mp hvar).2 hstorage

lemma node_sums {dst src : Slice} (hmem : .accumulate dst src ∈ code) :
    writes code dst.var = [.accumulate dst src] ∧ node.kind = .accumulator ∧
      d.variableOf? node.port.id = some dst.var := by
  have hcopy : ∀ {ranges part slice},
      Operand model (d.backend.vars.truncate mid) low d.variableOf? ranges part slice →
      .accumulate dst src ∉ part := by
    intro ranges part slice hoperand hpart
    obtain ⟨_, _, heq, -⟩ := hoperand.copies _ hpart
    cases heq
  cases hcode with
  | input | constant => exact absurd hmem List.not_mem_nil
  | concatenation =>
    obtain ⟨_, _, -, heq⟩ := copy_of_mem_copies _ hmem
    cases heq
  | unary _ hsrc =>
    cases List.mem_singleton.mp ((List.mem_append.mp hmem).resolve_left (hcopy hsrc))
  | accumulator hkind hsrc =>
    cases List.mem_singleton.mp ((List.mem_append.mp hmem).resolve_left (hcopy hsrc))
    refine ⟨(writes_append_left fun instruction hpart heq => ?_).trans ?_, hkind, hhome⟩
    · obtain ⟨var, hvar, hstorage⟩ := hsrc.dst_scratch instruction hpart
      rw [heq] at hvar
      exact h.not_scratch hhome (d.backend.vars.get?_truncate_eq_some.mp hvar).2 hstorage
    · exact writes_eq_self (List.forall_mem_singleton.mpr rfl)
  | binary _ hlhs hrhs | dot _ _ hlhs hrhs =>
    cases List.mem_singleton.mp ((List.mem_append.mp hmem).resolve_left fun hparts =>
      (List.mem_append.mp hparts).elim (hcopy hlhs) (hcopy hrhs))
  | reduce =>
    rcases List.mem_cons.mp hmem with hfirst | hrest
    · cases hfirst
    · obtain ⟨_, -, heq⟩ := List.mem_map.mp hrest
      cases heq

omit h hhome in
lemma node_output (hkind : node.kind = .output) : Filled code home node.size := by
  cases hcode with
  | @concatenation slices _ _ hsize => exact hsize ▸ filled_copies home node.size slices
  | input hother | constant hother | unary hother | accumulator hother | binary hother | dot hother
  | reduce hother =>
    rw [hkind] at hother
    cases hother

variable (hbody : ∀ instruction ∈ code, instruction ∈ function.body)

include hbody

/-- The scratch variables of a node are used once, as each of them is read. -/
lemma node_usedOnce {id : VarId} {var : Variable} (hvar : d.backend.vars.get? id = some var)
    (hstorage : var.storage = .scratch)
    (hread : ∃ instruction ∈ code, ∃ slice ∈ instruction.sources, slice.var = id) :
    UsedOnce code id var.size := by
  have htable := VariableTable.Prefix.truncate d.backend.vars mid
  have hown : home ≠ id := by
    rintro rfl
    exact h.not_scratch hhome hvar hstorage
  obtain ⟨instruction, hmem, slice, hslice, hid⟩ := hread
  -- preparing operands only reads ports, so it is the last instruction that reads the variable
  have hoperand : ∀ {ranges part src}, instruction ∈ part →
      ¬ Operand model (d.backend.vars.truncate mid) low d.variableOf? ranges part src := by
    intro ranges part src hpart hoperand
    exact h.operand_reads_ne hvar hstorage hoperand instruction hpart slice
      (Instruction.mem_reads_of_sources hslice) hid
  cases hcode with
  | input | constant => exact absurd hmem List.not_mem_nil
  | concatenation _ hreads =>
    have hsource := sources_copies instruction hmem slice hslice
    exact absurd hid (h.reads_ne hvar hstorage hreads hsource)
  | reduce _ _ hreads =>
    rcases List.mem_cons.mp hmem with rfl | hrest
    · exact absurd hslice List.not_mem_nil
    · obtain ⟨src, hsrc, rfl⟩ := List.mem_map.mp hrest
      obtain rfl := List.mem_singleton.mp hslice
      exact absurd hid (h.reads_ne hvar hstorage hreads hsrc)
  | unary _ hsrc =>
    rcases List.mem_append.mp hmem with hpart | hlast
    · exact absurd hsrc (hoperand hpart)
    · obtain rfl := List.mem_singleton.mp hlast
      obtain rfl := List.mem_singleton.mp hslice
      refine h.usedOnce_single hvar hstorage htable hsrc hid ?_ hown
      simp [Instruction.reads, Instruction.sources, hid]
  | accumulator _ hsrc =>
    rcases List.mem_append.mp hmem with hpart | hlast
    · exact absurd hsrc (hoperand hpart)
    · obtain rfl := List.mem_singleton.mp hlast
      rcases List.mem_cons.mp hslice with rfl | hslice
      · exact absurd hid hown
      obtain rfl := List.mem_singleton.mp hslice
      refine h.usedOnce_single hvar hstorage htable hsrc hid ?_ hown
      simp [Instruction.reads, Instruction.sources, hid, hown]
  | binary _ hlhs hrhs hkeep | dot _ _ hlhs hrhs hkeep =>
    rcases List.mem_append.mp hmem with hparts | hlast
    · rcases List.mem_append.mp hparts with hpart | hpart
      · exact absurd hlhs (hoperand hpart)
      · exact absurd hrhs (hoperand hpart)
    · obtain rfl := List.mem_singleton.mp hlast
      refine h.usedOnce_pair hvar hstorage htable hbody hlhs hrhs hkeep rfl hown ?_
      rcases List.mem_cons.mp hslice with rfl | hslice
      · exact .inl hid
      · exact .inr (List.mem_singleton.mp hslice ▸ hid)

/-- The code of one node. -/
lemma node_assigns (hle : low ≤ mid)
    (hadmissible : ∀ instruction ∈ code, instruction.Admissible (d.backend.vars.truncate mid))
    (hemploys : ∀ other : VarId, low ≤ other.index → other.index < mid → other = home ∨
      ∃ instruction ∈ code, ∃ slice ∈ instruction.sources, slice.var = other) :
    Assigns d.backend.vars d.variableOf? [node] low mid code where
  le := hle
  touched := node_touched hhome hcode hadmissible
  written instruction hmem := (h.node_written hhome hcode hadmissible instruction hmem).imp_left
    fun hown => ⟨node, List.mem_cons_self, hown⟩
  sums dst src hmem := by
    obtain ⟨hwrites, hkind, hdst⟩ := h.node_sums hhome hcode hmem
    exact ⟨hwrites, node, List.mem_cons_self, hkind, hdst⟩
  outputs := List.forall_mem_singleton.mpr fun hkind id hid => by
    obtain rfl : home = id := Option.some.inj (hhome.symm.trans hid)
    exact node_output hcode hkind
  scratch id var hnew hlt hvar hstorage := by
    refine h.node_usedOnce hhome hcode hbody hvar hstorage
      ((hemploys id hnew hlt).resolve_left ?_)
    rintro rfl
    exact h.not_scratch hhome hvar hstorage

end

/-! ## The body -/

section

variable {low high : ℕ} {nodes : List Node} {code : List Instruction} {id : VarId}
variable (hcode : Assigns d.backend.vars d.variableOf? nodes low high code)

include hcode

/-- The code does not write to the variable of another node, nor to that of a node that is given. -/
lemma dst_ne_of_assigns (hnodes : ∀ node ∈ nodes, node ∈ model.nodes.toList) {node : Node}
    (hnode : node ∈ model.nodes.toList) (hid : d.variableOf? node.port.id = some id)
    (hother : node ∈ nodes → node.kind.IsGiven) :
    ∀ instruction ∈ code, instruction.dst.var ≠ id := by
  rintro instruction hmem rfl
  rcases hcode.written instruction hmem with
    ⟨other, hmem, hkind, hplace⟩ | ⟨-, -, var, hvar, hstorage⟩
  · obtain rfl := h.node_eq hnode (hnodes other hmem) hid hplace
    exact hkind (hother hmem)
  · exact h.not_scratch hid hvar hstorage

/-- The code does not touch the scratch variables of another part of the table. -/
lemma slice_ne_of_assigns {var : Variable} (hvar : d.backend.vars.get? id = some var)
    (hstorage : var.storage = .scratch) (houtside : ¬ (low ≤ id.index ∧ id.index < high)) :
    ∀ instruction ∈ code, ∀ slice ∈ instruction.slices, slice.var ≠ id := by
  rintro instruction hmem slice hslice rfl
  rcases hcode.touched instruction hmem slice hslice with ⟨port, hport⟩ | ⟨hnew, hlt, -⟩
  · exact h.not_scratch hport hvar hstorage
  · exact houtside ⟨hnew, hlt⟩

end

/-- The code of some nodes and that of others. -/
lemma assigns_append {nodes nodes' : List Node} {low mid high : ℕ} {code code' : List Instruction}
    (hcode : Assigns d.backend.vars d.variableOf? nodes low mid code)
    (hcode' : Assigns d.backend.vars d.variableOf? nodes' mid high code')
    (hnodes : ∀ node ∈ nodes, node ∈ model.nodes.toList)
    (hnodes' : ∀ node ∈ nodes', node ∈ model.nodes.toList) (hdisjoint : nodes.Disjoint nodes') :
    Assigns d.backend.vars d.variableOf? (nodes ++ nodes') low high (code ++ code') := by
  -- neither part writes to the variables of the other one's nodes
  have hhomes : ∀ node ∈ nodes, ∀ id, d.variableOf? node.port.id = some id →
      ∀ instruction ∈ code', instruction.dst.var ≠ id := fun node hnode _ hid =>
    h.dst_ne_of_assigns hcode' hnodes' (hnodes node hnode) hid fun hmem =>
      absurd hmem (hdisjoint hnode)
  have hhomes' : ∀ node ∈ nodes', ∀ id, d.variableOf? node.port.id = some id →
      ∀ instruction ∈ code, instruction.dst.var ≠ id := fun node hnode _ hid =>
    h.dst_ne_of_assigns hcode hnodes (hnodes' node hnode) hid fun hmem =>
      absurd hnode (hdisjoint hmem)
  have hle := hcode.le
  have hle' := hcode'.le
  refine ⟨hle.trans hle', List.forall_mem_append.mpr ⟨?_, ?_⟩,
    List.forall_mem_append.mpr ⟨?_, ?_⟩, fun dst src hmem => ?_,
    List.forall_mem_append.mpr ⟨?_, ?_⟩, fun id var hnew hlt hvar hstorage => ?_⟩
  · exact fun instruction hmem slice hslice =>
      (hcode.touched instruction hmem slice hslice).imp_right fun hown => hown.mono (le_refl _) hle'
  · exact fun instruction hmem slice hslice =>
      (hcode'.touched instruction hmem slice hslice).imp_right fun hown => hown.mono hle (le_refl _)
  · refine fun instruction hmem => (hcode.written instruction hmem).imp ?_
      fun hown => hown.mono (le_refl _) hle'
    rintro ⟨node, hnode, hown⟩
    exact ⟨node, List.mem_append_left _ hnode, hown⟩
  · refine fun instruction hmem => (hcode'.written instruction hmem).imp ?_
      fun hown => hown.mono hle (le_refl _)
    rintro ⟨node, hnode, hown⟩
    exact ⟨node, List.mem_append_right _ hnode, hown⟩
  · rcases List.mem_append.mp hmem with hmem | hmem
    · obtain ⟨hwrites, node, hnode, hkind, hplace⟩ := hcode.sums dst src hmem
      exact ⟨(writes_append_right (hhomes node hnode _ hplace)).trans hwrites,
        node, List.mem_append_left _ hnode, hkind, hplace⟩
    · obtain ⟨hwrites, node, hnode, hkind, hplace⟩ := hcode'.sums dst src hmem
      exact ⟨(writes_append_left (hhomes' node hnode _ hplace)).trans hwrites,
        node, List.mem_append_right _ hnode, hkind, hplace⟩
  · exact fun node hnode hkind id hid => (hcode.outputs node hnode hkind id hid).congr
      (writes_append_right (hhomes node hnode id hid))
  · exact fun node hnode hkind id hid => (hcode'.outputs node hnode hkind id hid).congr
      (writes_append_left (hhomes' node hnode id hid))
  · by_cases hmid : id.index < mid
    · exact (hcode.scratch id var hnew hmid hvar hstorage).append_right
        (h.slice_ne_of_assigns hcode' hvar hstorage fun hin => absurd hmid (not_lt.mpr hin.1))
    · exact (hcode'.scratch id var (not_lt.mp hmid) hlt hvar hstorage).append_left
        (h.slice_ne_of_assigns hcode hvar hstorage fun hin => hmid hin.2)

/-- The code of all nodes, one after another. -/
lemma laid_assigns {low high : ℕ} {nodes : List Node} {codes : List (List Instruction)}
    (hlaid : Laid model d.backend.vars d.variableOf? low nodes codes high)
    (hnodes : ∀ node ∈ nodes, node ∈ model.nodes.toList)
    (hdistinct : nodes.Nodup) (hbody : ∀ instruction ∈ codes.flatten, instruction ∈ function.body) :
    Assigns d.backend.vars d.variableOf? nodes low high codes.flatten := by
  induction hlaid with
  | nil =>
    refine ⟨le_refl _, ?_, ?_, ?_, ?_, fun id var hnew hlt => absurd hlt (not_lt.mpr hnew)⟩
    all_goals simp
  | @cons low mid high node rest code codes home hhome hle hcode hadmissible hemploys _ ih =>
    obtain ⟨hnode, hrest⟩ := List.forall_mem_cons.mp hnodes
    obtain ⟨hnot, hdistinct⟩ := List.nodup_cons.mp hdistinct
    rw [List.flatten_cons] at hbody ⊢
    obtain ⟨hfirst, hothers⟩ := List.forall_mem_append.mp hbody
    exact h.assigns_append (h.node_assigns hhome hcode hfirst hle hadmissible hemploys)
      (ih hrest hdistinct hothers) (List.forall_mem_singleton.mpr hnode) hrest
      (List.singleton_disjoint.mpr hnot)

/-! ## Reading -/

lemma given_of_isGiven {node : Node} {home : VarId} (hnode : node ∈ model.nodes.toList)
    (hhome : d.variableOf? node.port.id = some home) (hkind : node.kind.IsGiven) :
    model.Given d.backend.vars d.variableOf? home := by
  obtain ⟨var, hvar, hplace⟩ := h.exists_home hnode hhome
  refine ⟨node, hnode, hhome, var, hvar, ?_⟩
  rcases hkind with hinput | ⟨values, hconstant⟩
  · exact .inl ⟨hinput, by rw [hplace.storage, hinput]; rfl⟩
  · exact .inr ⟨values, hconstant, (hplace.data values hconstant).1⟩

section

variable {low mid count : ℕ} {node : Node} {home : VarId} {code done : List Instruction}
variable (hget : model.nodes[count]? = some node)
variable (hdone : Supplied model d.backend.vars d.variableOf? count done)

include hget hdone

/-- What a node reads is ready when all nodes before it are done. -/
lemma ready_of_supplied {range : PortRange} (hrange : range ∈ node.ranges) {slice : Slice}
    (hread : Reads model d.variableOf? range slice) (hslice : slice.Within d.backend.vars) :
    slice.Ready (model.Given d.backend.vars d.variableOf?) done := by
  obtain ⟨id, hid, rfl⟩ := hread.slice
  obtain ⟨producer, var, hproducer, hvar, hplace⟩ := h.written.layout.home _ id hid
  obtain ⟨source, hsource, -, hroom⟩ := hslice
  obtain rfl : var = source := Option.some.inj (hvar.symm.trans hsource)
  have hport : producer.port.id = range.port := h.wellFormed.numbered.port_id hproducer
  rintro i ⟨-, -, hi⟩
  refine hdone producer (Model.mem_nodes hproducer) ?_ id (hport ▸ hid) i ?_
  · rw [hport]
    exact h.backward count node hget range hrange
  · rw [← hplace.size]
    exact hi.trans_le hroom

/-- When its code has been added, a node is done too. -/
lemma supplied_succ (hhome : d.variableOf? node.port.id = some home)
    (hcode : NodeCode model (d.backend.vars.truncate mid) low d.variableOf? node home code) :
    Supplied model d.backend.vars d.variableOf? (count + 1) (done ++ code) := by
  intro other hother hlt id hid i hi
  by_cases hbefore : other.port.id.index < count
  · exact (hdone other hother hbefore id hid i hi).imp_right fun hwrote =>
      hwrote.mono fun _ => List.mem_append_left _
  · have hport : node.port.id = ⟨count⟩ := h.wellFormed.numbered.port_id hget
    have hsame : other.port.id = node.port.id := by
      have hindex : other.port.id.index = count := by omega
      rw [hport]
      exact congrArg PortId.mk hindex
    rw [hsame] at hid
    obtain rfl : home = id := Option.some.inj (hhome.symm.trans hid)
    have hnode := Model.mem_nodes hget
    obtain rfl : node = other := h.node_eq hnode hother hhome (hsame ▸ hhome)
    by_cases hkind : node.kind.IsGiven
    · exact .inl (h.given_of_isGiven hnode hhome hkind)
    · exact .inr ((hcode.wrote hkind hi).mono fun _ => List.mem_append_right _)

end

/-- The code of all nodes, one after another, is initialised. -/
lemma laid_initialised {low high count : ℕ} {nodes : List Node} {codes : List (List Instruction)}
    {done : List Instruction}
    (hlaid : Laid model d.backend.vars d.variableOf? low nodes codes high)
    (hnodes : model.nodes.toList.drop count = nodes)
    (hbody : ∀ instruction ∈ codes.flatten, instruction ∈ function.body)
    (hdone : Supplied model d.backend.vars d.variableOf? count done) :
    Initialised (model.Given d.backend.vars d.variableOf?) done codes.flatten := by
  induction hlaid generalizing count done with
  | nil => trivial
  | @cons low mid high node rest code codes home hhome hle hcode _ _ _ ih =>
    rw [List.flatten_cons] at hbody ⊢
    obtain ⟨hfirst, hothers⟩ := List.forall_mem_append.mp hbody
    obtain ⟨hget, hrest⟩ := Model.drop_nodes_eq_cons_iff.mp hnodes
    have hcode' := h.node_initialised hcode hfirst
      fun range hrange slice hread hslice => h.ready_of_supplied hget hdone hrange hread hslice
    exact hcode'.append (ih hrest hothers (h.supplied_succ hget hdone hhome hcode))

/-- A scratch variable of this compilation lies behind the parameters. -/
lemma le_index_of_scratch {id : VarId} {var : Variable} (hnew : c.backend.vars.size ≤ id.index)
    (hvar : d.backend.vars.get? id = some var) (hstorage : var.storage = .scratch) :
    c.backend.vars.size + model.roster.length ≤ id.index := by
  by_contra hlt
  have hi : id.index - c.backend.vars.size < model.roster.length := by omega
  obtain ⟨hport, -⟩ := h.written.enrolled _ _ (List.getElem?_eq_getElem hi)
  rw [show c.backend.vars.size + (id.index - c.backend.vars.size) = id.index by omega] at hport
  exact h.not_scratch hport hvar hstorage

lemma exists_variable {node : Node} (hnode : node ∈ model.nodes.toList) :
    ∃ id var, d.variableOf? node.port.id = some id ∧ d.backend.vars.get? id = some var ∧
      Home node var := by
  have hget := h.index_eq hnode
  have hlt := (Array.getElem?_eq_some_iff.mp hget).1
  have hsome := (h.written.layout.bound _ node hget).mpr (.inl hlt)
  obtain ⟨id, hid⟩ := Option.isSome_iff_exists.mp hsome
  obtain ⟨var, hvar, hplace⟩ := h.exists_home hnode hid
  exact ⟨id, var, hid, hvar, hplace⟩

lemma initialises :
    Initialises model d.backend.vars c.backend.vars.size d.variableOf? function.body := by
  obtain ⟨codes, hbody, hlaid⟩ := h.written.laid
  have hmem : ∀ instruction ∈ codes.flatten, instruction ∈ function.body :=
    fun _ hmem => hbody ▸ hmem
  have hassigns := h.laid_assigns hlaid (fun _ hmem => hmem)
    (.of_map _ h.wellFormed.distinct) hmem
  have hinitialised : Initialised (model.Given d.backend.vars d.variableOf?) [] codes.flatten :=
    h.laid_initialised hlaid List.drop_zero hmem fun _ _ hlt => absurd hlt (Nat.not_lt_zero _)
  rw [← hbody] at hassigns hinitialised
  refine ⟨h.within, hinitialised, fun dst src hmem => ?_, ?_, fun node hnode hkind => ?_,
    fun id var hnew hvar hstorage => ?_⟩
  · obtain ⟨hwrites, node, hnode, hkind, hplace⟩ := hassigns.sums dst src hmem
    exact ⟨hwrites, node, hnode, hkind, hplace, fun other hother hplace' =>
      h.node_eq hother hnode hplace' hplace⟩
  · rintro id ⟨node, hnode, hid, var, hvar, hgiven⟩
    refine writes_eq_nil (h.dst_ne_of_assigns hassigns (fun _ hmem => hmem) hnode hid fun _ => ?_)
    exact hgiven.imp And.left fun ⟨values, hconstant, _⟩ => ⟨values, hconstant⟩
  · obtain ⟨id, var, hid, hvar, hplace⟩ := h.exists_variable hnode
    have hfilled := hassigns.outputs node hnode hkind id hid
    exact ⟨id, var, hid, hvar, hplace, hfilled, fun i hi => hfilled.wroteOnce hi⟩
  · have hused := hassigns.scratch id var (h.le_index_of_scratch hnew hvar hstorage)
      (d.backend.vars.lt_size_of_get? hvar) hvar hstorage
    exact ⟨hused, fun i hi => hused.wroteOnce hi⟩

end Grounded

variable {model : Model} {name program : String} {policy : MergePolicy} {limit : ℕ}
variable {options : Options} {history : List Operation} {answer : CompiledFunction}
variable {last : Compiler Assembler}

/-- **Compiled code is definitely initialised.**  After any history of a compiler, the function that
a model with backward references is compiled to reads nothing but its inputs, the values of
constants and what it has written before, and writes every element of its outputs exactly once.  The
variables of the ports are those that the function records, unless variables were left over. -/
theorem compile_initialises (hmodel : model.WellFormed) (hback : model.Backward)
    (h : compile model name (history.foldl perform
      (fresh (Assembler.fresh program policy limit) options)) = .ok answer last) :
    let before := history.foldl perform (fresh (Assembler.fresh program policy limit) options)
    ∃ function : Function,
      last.backend.program.functions = before.backend.program.functions ++ [function] ∧
      function.name = name ∧
      (∀ (i : ℕ) (entry : StorageClass × OutputPort), model.roster[i]? = some entry →
        (∀ var ∈ before.backend.uncommitted,
          ¬ (var.storage = entry.1 ∧ var.name = entry.2.name)) →
        function.vars[i]? = last.variableOf? entry.2.id) ∧
      Initialises model last.backend.vars before.backend.vars.size last.variableOf?
        function.body := by
  intro before
  have horderly : before.backend.Orderly := history_orderly history
  obtain ⟨function, hfunctions, hwritten, -⟩ :=
    compile_ok_written hmodel horderly.tidy horderly.committed h
  refine ⟨function, hfunctions, hwritten.named, fun i entry hentry =>
    (hwritten.recorded_iff hentry).mpr, ?_⟩
  exact Grounded.initialises ⟨hwritten, hmodel, hback⟩

theorem compile_initialises_gatheredSum :
    Model.gatheredSum.WellFormed ∧ Model.gatheredSum.Backward ∧ ∃ answer last,
      compile Model.gatheredSum "f"
        ([Operation.allocateScratch .real 2, .compile Model.echo "e"].foldl perform
          (fresh (Assembler.fresh "m" .always 30) .standard)) = .ok answer last ∧
      Initialises Model.gatheredSum last.backend.vars 3 last.variableOf? Model.gatheredSumCode := by
  have hmodel : Model.gatheredSum.WellFormed := by decide +kernel
  have hback : Model.gatheredSum.Backward := by decide +kernel
  have hsize : ([Operation.allocateScratch .real 2, .compile Model.echo "e"].foldl perform
      (fresh (Assembler.fresh "m" .always 30) .standard)).backend.vars.size = 3 := by
    decide +kernel
  have hcompile : (compile Model.gatheredSum "f").succeeds
      ([Operation.allocateScratch .real 2, .compile Model.echo "e"].foldl perform
        (fresh (Assembler.fresh "m" .always 30) .standard)) (fun _ last => decide
      (last.backend.program.functions.getLast?.map Function.body =
        some Model.gatheredSumCode)) = true := by
    decide +kernel
  obtain ⟨answer, last, h, htest⟩ := Attempt.exists_of_succeeds hcompile
  obtain ⟨function, hfunctions, -, -, hinitialises⟩ := compile_initialises hmodel hback h
  have hbody := of_decide_eq_true htest
  rw [hfunctions, List.getLast?_concat, Option.map_some, Option.some.injEq] at hbody
  rw [hbody, hsize] at hinitialises
  exact ⟨hmodel, hback, answer, last, h, hinitialises⟩

end Compiler
end Dataflow
