import Dataflow.Proofs.Compiler.Compiled
import Dataflow.Proofs.Machine.Execution

/-!
# Reading operands

When the code of a node begins, the variables of all ports before it hold their rows (`Stage`).
Then every slice that stands for a range reads the elements of that range, and after the
instructions that prepare an operand its slice reads what the model gathers (`Operand.runs`).

The end of a range stops at the largest word.  That it is what the start and the length add up to
follows from the room that the variables take together: it is a word, and the node's own variable is
not empty.
-/

namespace Dataflow

/-- A slice reads the elements of a range, and copying them to a given variable is safe. -/
structure Source (values : Values) (memory : Memory) (id : VarId) (range : PortRange)
    (slice : Slice) : Prop where
  read : memory.read slice = .ok (range.elements values)
  length : slice.length = (range.elements values).length
  ne : slice.var ≠ id

/-! ## Copying to a whole variable -/

/-- Copying what some ranges stand for to all of a variable. -/
lemma runs_concatenation {vars : VariableTable} {values : Values} {memory : Memory} {id : VarId}
    {var : Variable} {ranges : List PortRange} {slices : List Slice} (hfits : memory.Fits vars)
    (hvar : vars.get? id = some var) (hword : var.size < Word.count)
    (hsources : List.Forall₂ (Source values memory id) ranges slices)
    (hsize : var.size = (slices.map Slice.length).sum) :
    ∃ memory', Runs vars (copies ⟨id, 0, var.size⟩ 0 slices) memory memory' ∧
      memory'.Fits vars ∧
      memory'.get? id = some ((concatenated values ranges).map var.elementType.coerce) ∧
      ∀ other, (∀ instruction ∈ copies ⟨id, 0, var.size⟩ 0 slices, instruction.dst.var ≠ other) →
        memory'.get? other = memory.get? other := by
  have hlengths : (slices.map Slice.length).sum = (concatenated values ranges).length := by
    clear hsize
    induction hsources with
    | nil => rfl
    | cons hsource _ ih =>
      rw [List.map_cons, List.sum_cons, ih, hsource.length, concatenated, concatenated,
        List.flatMap_cons, List.length_append]
  have hreads : List.Forall₂ (fun src row => memory.read src = .ok row ∧
      src.length = row.length ∧ src.var ≠ id) slices (ranges.map (PortRange.elements values)) := by
    rw [List.forall₂_map_right_iff]
    exact hsources.flip.imp fun _ _ hsource => ⟨hsource.read, hsource.length, hsource.ne⟩
  have hflatten : (ranges.map (PortRange.elements values)).flatten = concatenated values ranges :=
    rfl
  obtain ⟨old, hold, hlength⟩ := hfits.holds id var hvar
  have hfull : 0 + (ranges.map (PortRange.elements values)).flatten.length ≤ old.length := by
    rw [hflatten]
    omega
  obtain ⟨memory', hruns, hfits', hget, hframe⟩ := runs_copies var.size hvar hword hreads hfits
    (fun _ _ => rfl) hold hfull
  refine ⟨memory', hruns, hfits', ?_, hframe⟩
  rw [hget, hflatten, Memory.overwrite_whole (by rw [List.length_map]; omega)]

/-! ## The ports before a node -/

/-- The variables of ports hold rows, as far as there are any. -/
def Shows (place : PortId → Option VarId) (values : Values) (memory : Memory) : Prop :=
  ∀ (i : ℕ) (row : List Float), values[i]? = some row →
    ∀ id, place ⟨i⟩ = some id → memory.get? id = some row

/-- A memory in which the code of a node may begin: there are rows for just the ports before the
node, these are shown, and the node reads no other ports. -/
structure Stage (model : Model) (vars : VariableTable) (place : PortId → Option VarId)
    (values : Values) (node : Node) (own : VarId) (memory : Memory) : Prop where
  next : model.nodes[values.length]? = some node
  home : place node.port.id = some own
  fits : memory.Fits vars
  shows : Shows place values memory
  earlier : ∀ range ∈ node.ranges, range.port.index < values.length

variable {model : Model} {vars : VariableTable} {old : ℕ} {place : PortId → Option VarId}
variable {function : Function} {values : Values} {node : Node} {own : VarId}
variable {memory memory' : Memory}

lemma Shows.congr (h : Shows place values memory)
    (hframe : ∀ port id, place port = some id → memory'.get? id = memory.get? id) :
    Shows place values memory' :=
  fun i row hrow id hid => (hframe _ id hid).trans (h i row hrow id hid)

lemma Stage.congr (h : Stage model vars place values node own memory)
    (hfits : memory'.Fits vars)
    (hframe : ∀ port id, place port = some id → memory'.get? id = memory.get? id) :
    Stage model vars place values node own memory' :=
  ⟨h.next, h.home, hfits, h.shows.congr hframe, h.earlier⟩

namespace Compiled

variable (h : Compiled model vars old place function)

include h

lemma variable_of {i : ℕ} (hnode : model.nodes[i]? = some node) {id : VarId}
    (hid : place ⟨i⟩ = some id) : ∃ var, vars.get? id = some var ∧ Home node var := by
  obtain ⟨node', var, hnode', hvar, hhome⟩ := h.home _ id hid
  obtain rfl : node = node' := Option.some.inj (hnode.symm.trans hnode')
  exact ⟨var, hvar, hhome⟩

/-- The variable of a port is never one that gathers ranges. -/
lemma ne_scratch {port : PortId} {id : VarId} (hid : place port = some id) {scratch : VarId}
    {var : Variable} (hvar : vars.get? scratch = some var) (hstorage : var.storage = .scratch) :
    id ≠ scratch := by
  rintro rfl
  obtain ⟨node, var', -, hvar', hhome⟩ := h.home port id hid
  obtain rfl : var = var' := Option.some.inj (hvar.symm.trans hvar')
  exact hhome.ne_scratch hstorage

variable (hmodel : model.WellFormed)

include hmodel

lemma variable_own (hstage : Stage model vars place values node own memory) :
    ∃ var, vars.get? own = some var ∧ Home node var :=
  h.variable_of hstage.next (by rw [← hmodel.numbered.port_id hstage.next, hstage.home])

/-- A node reads other variables than its own. -/
lemma ne_own (hstage : Stage model vars place values node own memory)
    {range : PortRange} (hrange : range ∈ node.ranges) {slice : Slice}
    (hread : Reads model place range slice) : slice.var ≠ own := by
  obtain ⟨src, hsrc, rfl⟩ := hread.slice
  have hlt := hstage.earlier range hrange
  have hown := hstage.home
  rw [hmodel.numbered.port_id hstage.next] at hown
  rintro rfl
  have hports := congrArg PortId.index (h.injective _ _ src hsrc hown)
  simp only at hports
  omega

/-- A range of an earlier port is read where it is, and may be copied to any other variable. -/
lemma source (hstage : Stage model vars place values node own memory)
    (hpos : node.size ≠ 0) {range : PortRange} (hrange : range ∈ node.ranges) {slice : Slice}
    (hread : Reads model place range slice) {id : VarId} (hne : slice.var ≠ id) :
    Source values memory id range slice := by
  have hne_own := h.ne_own hmodel hstage hrange hread
  obtain ⟨src, hsrc, rfl⟩ := hread.slice
  obtain ⟨port, hport, hstop⟩ := hread.port
  obtain ⟨other, hother, rfl⟩ := Option.map_eq_some_iff.mp hport
  -- the row of the port
  obtain ⟨row, hrow⟩ : ∃ row, values[range.port.index]? = some row :=
    ⟨_, List.getElem?_eq_getElem (hstage.earlier range hrange)⟩
  have hget := hstage.shows _ row hrow src hsrc
  obtain ⟨var, hvar, hhome⟩ := h.variable_of hother hsrc
  obtain ⟨row', hrow', hlength⟩ := hstage.fits.holds src var hvar
  obtain rfl : row = row' := Option.some.inj (hget.symm.trans hrow')
  have hsize : row.length = other.size := hlength.trans hhome.size
  -- the node's own variable leaves less than a word to that of the port
  obtain ⟨ownVar, hownVar, hownHome⟩ := h.variable_own hmodel hstage
  have hroom := h.room src own var ownVar hne_own hvar hownVar
  rw [hhome.size, hownHome.size] at hroom
  have htop : Word.count = Word.top + 1 := rfl
  have hend : range.start + range.length ≤ row.length := by
    have hsaturated : min (range.start + range.length) Word.top ≤ other.size := hstop
    omega
  have helements : range.elements values = (row.drop range.start).take range.length := by
    rw [PortRange.elements, hrow, Option.getD_some]
  refine ⟨?_, ?_, hne⟩
  · rw [helements]
    exact Memory.read_eq hget hend (by omega)
  · rw [helements, List.length_take, List.length_drop]
    show range.length = _
    omega

lemma sources (hstage : Stage model vars place values node own memory)
    (hpos : node.size ≠ 0) {ranges : List PortRange} {slices : List Slice} {id : VarId}
    (hreads : List.Forall₂ (Reads model place) ranges slices)
    (hranges : ∀ range ∈ ranges, range ∈ node.ranges)
    (hne : ∀ range ∈ ranges, ∀ slice, Reads model place range slice → slice.var ≠ id) :
    List.Forall₂ (Source values memory id) ranges slices := by
  induction hreads with
  | nil => exact .nil
  | cons hread _ ih =>
    obtain ⟨hrange, hranges⟩ := List.forall_mem_cons.mp hranges
    obtain ⟨hne, hnes⟩ := List.forall_mem_cons.mp hne
    exact .cons (h.source hmodel hstage hpos hrange hread (hne _ hread)) (ih hranges hnes)

end Compiled

/-! ## Preparing an operand -/

/-- The instructions that prepare an operand lead from one memory to another, in which the operand
is read from a slice.  No variable of a port has changed. -/
structure Gathers (model : Model) (vars : VariableTable) (place : PortId → Option VarId)
    (values : Values) (ranges : List PortRange) (code : List Instruction) (slice : Slice)
    (memory memory' : Memory) : Prop where
  runs : Runs vars code memory memory'
  fits : memory'.Fits vars
  read : memory'.read slice = .ok (model.gathered values ranges)
  length : slice.length = (model.gathered values ranges).length
  ports : ∀ port id, place port = some id → memory'.get? id = memory.get? id
  frame : ∀ other, (∀ instruction ∈ code, instruction.dst.var ≠ other) →
    memory'.get? other = memory.get? other

lemma Operand.runs (h : Compiled model vars old place function) (hmodel : model.WellFormed)
    (hstage : Stage model vars place values node own memory)
    (hpos : node.size ≠ 0) {ranges : List PortRange} {code : List Instruction} {slice : Slice}
    (hoperand : Operand model vars old place ranges code slice)
    (hranges : ∀ range ∈ ranges, range ∈ node.ranges) :
    ∃ memory', Gathers model vars place values ranges code slice memory memory' := by
  cases hoperand with
  | @direct range slice hread =>
    have hrange := hranges range List.mem_cons_self
    have hsource := h.source hmodel hstage hpos hrange hread
      (h.ne_own hmodel hstage hrange hread)
    refine ⟨memory, .nil memory, hstage.fits, ?_, ?_, fun _ _ _ => rfl, fun _ _ => rfl⟩
    · rw [hsource.read, Model.gathered_singleton]
    · rw [hsource.length, Model.gathered_singleton]
  | @gathered ranges slices scratch var hlength hreads hvar hnew hstorage htype hsize =>
    have hne : ∀ range ∈ ranges, ∀ slice, Reads model place range slice → slice.var ≠ scratch := by
      intro range _ slice hread
      obtain ⟨src, hsrc, rfl⟩ := hread.slice
      exact h.ne_scratch hsrc hvar hstorage
    obtain ⟨memory', hruns, hfits, hget, hframe⟩ := runs_concatenation hstage.fits hvar
      (h.word _ _ hvar) (h.sources hmodel hstage hpos hreads hranges hne) hsize
    rw [htype, ← model.gathered_of_length_ne values hlength] at hget
    obtain ⟨row, hrow, hsizes⟩ := hfits.holds scratch var hvar
    obtain rfl := Option.some.inj (hget.symm.trans hrow)
    refine ⟨memory', hruns, hfits, ?_, hsizes.symm, fun port id hid => ?_, hframe⟩
    · exact Memory.read_whole hget hsizes (h.word scratch var hvar)
    · refine hframe id fun instruction hmem => ?_
      rw [dst_copies instruction hmem]
      exact (h.ne_scratch hid hvar hstorage).symm

/-- Preparing the second operand of a node keeps the first one. -/
lemma Operand.runs_two (h : Compiled model vars old place function) (hmodel : model.WellFormed)
    (hstage : Stage model vars place values node own memory)
    (hpos : node.size ≠ 0) {code code' : List Instruction} {lhs rhs : Slice}
    (hlhs : Operand model vars old place (node.operand 0) code lhs)
    (hrhs : Operand model vars old place (node.operand 1) code' rhs)
    (hkeep : ∀ instruction ∈ code', instruction.dst.var ≠ lhs.var) :
    ∃ memory', Runs vars (code ++ code') memory memory' ∧
      Stage model vars place values node own memory' ∧
      memory'.read lhs = .ok (model.gathered values (node.operand 0)) ∧
      memory'.read rhs = .ok (model.gathered values (node.operand 1)) ∧
      lhs.length = (model.gathered values (node.operand 0)).length ∧
      rhs.length = (model.gathered values (node.operand 1)).length ∧
      ∀ port id, place port = some id → memory'.get? id = memory.get? id := by
  obtain ⟨memory₁, hfirst⟩ := hlhs.runs h hmodel hstage hpos fun _ => Node.mem_ranges
  have hstage₁ := hstage.congr hfirst.fits hfirst.ports
  obtain ⟨memory₂, hsecond⟩ := hrhs.runs h hmodel hstage₁ hpos fun _ => Node.mem_ranges
  refine ⟨memory₂, hfirst.runs.append hsecond.runs, hstage₁.congr hsecond.fits hsecond.ports, ?_,
    hsecond.read, hfirst.length, hsecond.length, fun port id hid => ?_⟩
  · rw [Memory.read_congr (hsecond.frame lhs.var hkeep), hfirst.read]
  · rw [hsecond.ports port id hid, hfirst.ports port id hid]

end Dataflow
