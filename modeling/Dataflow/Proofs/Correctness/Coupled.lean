import Dataflow.Proofs.Correctness.Stores
import Dataflow.Proofs.Model.Rewired

/-!
# Code of rewired models

Two models that differ in what feeds one node are compiled, and the code of their nodes is run side
by side.  Ports are *coupled* if they hold the same rows on both sides (`Coupled`).  When all nodes
have run, all ports before the node are coupled, and all ports if the node computes the same row
from the same rows on both sides (`Deployed.run_coupled`).
-/

namespace Dataflow

/-! ## Two memories -/

/-- Certain ports hold the same rows in two memories. -/
def Coupled (place place' : PortId → Option VarId) (kept : ℕ → Prop) (memory memory' : Memory) :
    Prop :=
  ∀ j, kept j → ∀ id id', place ⟨j⟩ = some id → place' ⟨j⟩ = some id' →
    memory'.get? id' = memory.get? id

variable {place place' : PortId → Option VarId} {kept kept' : ℕ → Prop} {values values' : Values}
variable {memory memory' next next' : Memory}

lemma Coupled.mono (h : Coupled place place' kept memory memory')
    (hsub : ∀ j, kept' j → kept j) : Coupled place place' kept' memory memory' :=
  fun j hj => h j (hsub j hj)

/-- Changes to other ports do not matter. -/
lemma Coupled.congr (h : Coupled place place' kept memory memory')
    (hframe : ∀ j, kept j → ∀ id, place ⟨j⟩ = some id → next.get? id = memory.get? id)
    (hframe' : ∀ j, kept j → ∀ id, place' ⟨j⟩ = some id → next'.get? id = memory'.get? id) :
    Coupled place place' kept next next' := by
  intro j hj id id' hid hid'
  rw [hframe j hj id hid, hframe' j hj id' hid', h j hj id id' hid hid']

/-- Rows that are shown on one side are shown on the other one. -/
lemma Coupled.shows (h : Coupled place place' kept memory memory')
    (hkept : ∀ j < values.length, kept j)
    (hplaced : ∀ j < values.length, ∃ id, place ⟨j⟩ = some id)
    (hshows : Shows place values memory) : Shows place' values memory' := by
  intro j row hrow id' hid'
  have hj := (List.getElem?_eq_some_iff.mp hrow).1
  obtain ⟨id, hid⟩ := hplaced j hj
  rw [h j (hkept j hj) id id' hid hid', hshows j row hrow id hid]

/-- There is only one way to show the rows of the first ports. -/
lemma Shows.unique (h : Shows place values memory) (h' : Shows place values' memory)
    (hlength : values'.length = values.length)
    (hplaced : ∀ j < values.length, ∃ id, place ⟨j⟩ = some id) : values' = values := by
  refine List.ext_getElem hlength fun j hj' hj => ?_
  obtain ⟨id, hid⟩ := hplaced j hj
  exact Option.some.inj ((h' j _ (List.getElem?_eq_getElem hj') id hid).symm.trans
    (h j _ (List.getElem?_eq_getElem hj) id hid))

/-- What a slice reads depends on the contents of its variable. -/
lemma Memory.read_transfer {slice slice' : Slice} {row : List Float}
    (h : memory.read slice = .ok row) (hoffset : slice'.offset = slice.offset)
    (hlength : slice'.length = slice.length)
    (hget : memory'.get? slice'.var = memory.get? slice.var) : memory'.read slice' = .ok row := by
  rw [read] at h
  cases hholder : memory.holder slice with
  | error e =>
    rw [hholder] at h
    cases h
  | ok contents =>
    rw [hholder] at h
    obtain rfl := Except.ok.inj h
    have hstop : slice'.stop = slice.stop := by rw [Slice.stop, Slice.stop, hoffset, hlength]
    have hholder' : memory'.holder slice' = .ok contents := by
      rw [holder_eq_ok, hget, hstop]
      exact holder_eq_ok.mp hholder
    rw [read_of_holder hholder', hoffset, hlength]

lemma Memory.get?_set_of_get? {id : VarId} {old : List Float} (h : memory.get? id = some old)
    (row : List Float) : (memory.set id row).get? id = some row :=
  get?_set_self memory (Array.getElem?_eq_some_iff.mp h).1 row

/-! ## Code on both sides -/

variable {vars vars' : VariableTable} {code code' : List Instruction}

lemma Runs.unique {last : Memory} (h : Runs vars code memory next)
    (h' : Runs vars code memory last) : next = last := by
  induction h with
  | nil =>
    cases h'
    rfl
  | cons hfirst _ ih =>
    cases h' with
    | cons hfirst' hrest =>
      obtain rfl := Except.ok.inj (hfirst.symm.trans hfirst')
      exact ih hrest

/-- An instruction that copies a slice has written what it has read. -/
lemma Instruction.execute_copy_eq_ok {dst src : Slice} {var : Variable}
    (hvar : vars.get? dst.var = some var) (h : (copy dst src).execute vars memory = .ok next) :
    ∃ row old, memory.read src = .ok row ∧ memory.get? dst.var = some old ∧
      next = memory.set dst.var (Memory.overwrite dst.offset
        ((row.map var.elementType.coerce).take dst.length) old) := by
  obtain ⟨row, found, hread, hfound, hwrite⟩ := execute_eq_ok.mp h
  obtain rfl : found = var := Option.some.inj (hfound.symm.trans hvar)
  obtain ⟨old, hholder, rfl⟩ := Memory.write_eq_ok hwrite
  exact ⟨row, old, hread, (Memory.holder_eq_ok.mp hholder).1, rfl⟩

variable {model model' : Model} {i k : ℕ} {own own' : VarId}

section

variable (hinjective : ∀ port port' id, place port = some id → place port' = some id → port = port')
variable (hinjective' : ∀ port port' id, place' port = some id → place' port' = some id →
  port = port')
variable (hown : place ⟨k⟩ = some own) (hown' : place' ⟨k⟩ = some own')

include hinjective hinjective' hown hown'

/-- Writing the same row for a port keeps ports coupled. -/
lemma Coupled.set (h : Coupled place place' kept memory memory') {old old' : List Float}
    (hold : memory.get? own = some old) (hold' : memory'.get? own' = some old') (row : List Float) :
    Coupled place place' kept (memory.set own row) (memory'.set own' row) := by
  intro j hj id id' hid hid'
  by_cases heq : j = k
  · subst heq
    obtain rfl := Option.some.inj (hown.symm.trans hid)
    obtain rfl := Option.some.inj (hown'.symm.trans hid')
    rw [Memory.get?_set_of_get? hold, Memory.get?_set_of_get? hold']
  · have hne : own ≠ id := fun hsame =>
      heq (congrArg PortId.index (hinjective _ _ own (hsame ▸ hid) hown))
    have hne' : own' ≠ id' := fun hsame =>
      heq (congrArg PortId.index (hinjective' _ _ own' (hsame ▸ hid') hown'))
    rw [Memory.get?_set_of_ne _ hne, Memory.get?_set_of_ne _ hne', h j hj id id' hid hid']

/-- Copying the same ranges to the same port keeps ports coupled, even if the port is itself one of
those that are read. -/
lemma Coupled.copies (h : Coupled place place' kept memory memory') (hk : kept k)
    {var var' : Variable} (hvar : vars.get? own = some var) (hvar' : vars'.get? own' = some var')
    (htype : var'.elementType = var.elementType) {ranges : List PortRange}
    {slices slices' : List Slice} (hreads : List.Forall₂ (Reads model place) ranges slices)
    (hreads' : List.Forall₂ (Reads model' place') ranges slices')
    (hkept : ∀ range ∈ ranges, kept range.port.index) {size offset : ℕ}
    (hruns : Runs vars (Dataflow.copies ⟨own, 0, size⟩ offset slices) memory next)
    (hruns' : Runs vars' (Dataflow.copies ⟨own', 0, size⟩ offset slices') memory' next') :
    Coupled place place' kept next next' := by
  induction hreads generalizing slices' offset memory memory' with
  | nil =>
    cases hreads'
    cases hruns
    cases hruns'
    exact h
  | @cons range src _ _ hread _ ih =>
    cases hreads' with
    | @cons _ src' _ _ hread' hreads' =>
    obtain ⟨id, hid, rfl⟩ := hread.slice
    obtain ⟨id', hid', rfl⟩ := hread'.slice
    obtain ⟨hhere, hkept⟩ := List.forall_mem_cons.mp hkept
    cases hruns with
    | cons hfirst hrest =>
    cases hruns' with
    | cons hfirst' hrest' =>
    refine ih ?_ hreads' hkept hrest hrest'
    obtain ⟨row, old, hrow, hold, rfl⟩ := Instruction.execute_copy_eq_ok hvar hfirst
    obtain ⟨row', old', hrow', hold', rfl⟩ := Instruction.execute_copy_eq_ok hvar' hfirst'
    -- the same is read, and it replaces the same elements of the same row
    have hsame : row' = row := Except.ok.inj (hrow'.symm.trans
      (Memory.read_transfer hrow rfl rfl (h _ hhere id id' hid hid')))
    have hcontents : old' = old :=
      Option.some.inj (hold'.symm.trans ((h k hk own own' hown hown').trans hold))
    subst hsame hcontents
    rw [htype]
    exact h.set hinjective hinjective' hown hown' hold hold' _

end

/-! ## Nodes -/

/-- The row of the node's port lasts from call to call. -/
def Node.Lasts (node : Node) : Prop :=
  node.kind = .accumulator ∨ ∃ row, node.kind = .constant row

/-- The node's port has a row before the code of the nodes begins. -/
def Node.Begins (node : Node) : Prop := node.Lasts ∨ node.kind = .input ∨ node.kind = .output

variable {old old' : ℕ} {function function' : Function} {node : Node}

lemma NodeCode.eq_nil (h : NodeCode model vars old place node own code)
    (hkind : node.kind = .input ∨ ∃ row, node.kind = .constant row) : code = [] := by
  cases h with
  | input | constant => rfl
  | concatenation hother =>
    rcases hkind with hkind | ⟨_, hkind⟩ <;> rcases hother with hother | hother <;>
      cases hkind.symm.trans hother
  | unary hother | accumulator hother | binary hother | dot hother | reduce hother =>
    rcases hkind with hkind | ⟨_, hkind⟩ <;> cases hkind.symm.trans hother

lemma NodeCode.eq_copies (h : NodeCode model vars old place node own code)
    (hkind : node.kind = .output) : ∃ slices,
      List.Forall₂ (Reads model place) (node.operand 0) slices ∧
      code = Dataflow.copies ⟨own, 0, node.size⟩ 0 slices := by
  cases h with
  | concatenation _ hreads => exact ⟨_, hreads, rfl⟩
  | input hother | constant hother | unary hother | accumulator hother | binary hother
    | dot hother | reduce hother => cases hkind.symm.trans hother

/-- Apart from inputs and constants, only an accumulator has a row to start from, which is the one
that it had. -/
lemma Node.eq_previous_of_start {previous supplied row : List Float}
    (h : node.start previous supplied = some row) (hinput : node.kind ≠ .input)
    (hconstant : ∀ row, node.kind ≠ .constant row) : node.kind = .accumulator ∧ row = previous := by
  rw [Node.start] at h
  cases hkind : node.kind with
  | input => exact absurd hkind hinput
  | constant row => exact absurd hkind (hconstant row)
  | accumulator =>
    rw [hkind] at h
    exact ⟨rfl, (Option.some.inj h).symm⟩
  | _ =>
    rw [hkind] at h
    cases h

/-- The code of the node at a place has been run. -/
structure Performs (model : Model) (vars : VariableTable) (place : PortId → Option VarId) (k : ℕ)
    (node : Node) (own : VarId) (instructions : List Instruction) (memory next : Memory) :
    Prop where
  found : model.nodes[k]? = some node
  home : place ⟨k⟩ = some own
  code : NodeCode model vars 0 place node own instructions
  admissible : ∀ instruction ∈ instructions, instruction.Admissible vars
  fits : memory.Fits vars
  runs : Runs vars instructions memory next

/-- If the node has read earlier ports, its port has its row. -/
lemma Performs.row (p : Performs model vars place values.length node own code memory next)
    (h : Compiled model vars 0 place function) (hmodel : model.WellFormed)
    (hshows : Shows place values memory)
    (hearlier : ∀ range ∈ node.ranges, range.port.index < values.length)
    {previous supplied : List Float}
    (hstart : ∀ row, node.start previous supplied = some row → memory.get? own = some row) :
    next.get? own = some (node.row model.gathered values previous supplied) := by
  have hown : place node.port.id = some own := by
    rw [hmodel.numbered.port_id p.found]
    exact p.home
  obtain ⟨last, hwrites⟩ := p.code.runs h hmodel ⟨p.found, hown, p.fits, hshows, hearlier⟩
    p.admissible hstart
  rw [p.runs.unique hwrites.runs, hwrites.row]

/-- Nodes without code leave their port as it has begun. -/
lemma Coupled.idle (h : Coupled place place' kept memory memory')
    (p : Performs model vars place k node own code memory next)
    (p' : Performs model' vars' place' k node own' code' memory' next')
    (hkind : node.kind = .input ∨ ∃ row, node.kind = .constant row) (hk : kept k) :
    next'.get? own' = next.get? own := by
  have hruns := p.runs
  have hruns' := p'.runs
  rw [p.code.eq_nil hkind] at hruns
  rw [p'.code.eq_nil hkind] at hruns'
  cases hruns
  cases hruns'
  exact h k hk own own' p.home p'.home

/-! ## Two programs -/

/-- A model that has been compiled to the only function of a program. -/
structure Deployed (model : Model) (program : Program) (name : String)
    (place : PortId → Option VarId) (function : Function) : Prop where
  wellFormed : model.WellFormed
  reads : ∀ node ∈ model.nodes.toList, ∀ range ∈ node.ranges, node.MayRead range.port
  compiled : Compiled model program.vars 0 place function
  regular : program.Regular
  sound : ∃ low high, function.Sound program.vars low high
  named : function.name = name
  only : ∀ other, program.function? other = if other = name then some function else none

/-- A node that computes its row anew in each call, from the rows of earlier ports. -/
structure Model.Computes (model : Model) (i : ℕ) (node : Node) : Prop where
  found : model.nodes[i]? = some node
  fresh : ∀ previous supplied, node.start previous supplied = none
  earlier : ∀ range ∈ node.ranges, range.port.index < i

/-- A port below a bound that has its row when some nodes have been run. -/
def Model.Known (model : Model) (bound count j : ℕ) : Prop :=
  j < bound ∧ (j < count ∨ ∃ node, model.nodes[j]? = some node ∧ node.Begins)

variable {program program' : Program} {name : String} {node' : Node} {bound : ℕ}

lemma Deployed.placed (d : Deployed model program name place function)
    (hnode : model.nodes[k]? = some node) : ∃ id, place ⟨k⟩ = some id := by
  obtain ⟨id, hid⟩ := d.compiled.placed (Model.mem_nodes hnode)
  rw [d.wellFormed.numbered.port_id hnode] at hid
  exact ⟨id, hid⟩

/-- The code of a node can be run, and leaves all other ports alone. -/
lemma Deployed.performs (d : Deployed model program name place function)
    (hnode : model.nodes[k]? = some node) (hown : place ⟨k⟩ = some own)
    (hcode : NodeCode model program.vars 0 place node own code)
    (hmem : ∀ instruction ∈ code, instruction ∈ function.body)
    (hfits : memory.Fits program.vars) :
    ∃ next, Performs model program.vars place k node own code memory next ∧
      next.Fits program.vars ∧
      ∀ j ≠ k, ∀ id, place ⟨j⟩ = some id → next.get? id = memory.get? id := by
  obtain ⟨_, _, hsound⟩ := d.sound
  obtain ⟨next, hruns, hnext, hframe⟩ := runs_of_safe
    (fun instruction h => hsound.safe instruction (hmem instruction h)) d.regular.sized hfits
  have hport := d.wellFormed.numbered.port_id hnode
  refine ⟨next, ⟨hnode, hown, hcode,
    fun instruction h => d.compiled.admissible instruction (hmem instruction h), hfits, hruns⟩,
    hnext, fun j hj id hid => ?_⟩
  have hother : (⟨j⟩ : PortId) ≠ node.port.id := by
    rw [hport]
    exact fun h => hj (congrArg PortId.index h)
  exact hframe id (d.compiled.keeps_other (hport ▸ hown) hcode hid hother)

section

variable (d : Deployed model program name place function)
variable (d' : Deployed model' program' name place' function')
variable (p : Performs model program.vars place k node own code memory next)

include d d' p

/-- Nodes at one place that compute the same row from the rows of earlier ports have the same row on
both sides if these ports are coupled. -/
lemma Deployed.computed_eq
    (p' : Performs model' program'.vars place' k node' own' code' memory' next')
    (hcoupled : Coupled place place' kept memory memory') (hbefore : ∀ j < k, kept j)
    (hearlier : ∀ range ∈ node.ranges, range.port.index < k)
    (hearlier' : ∀ range ∈ node'.ranges, range.port.index < k) (previous : List Float)
    (hstart : ∀ row, node.start previous [] = some row → memory.get? own = some row)
    (hstart' : ∀ row, node'.start previous [] = some row → memory'.get? own' = some row)
    (hrow : ∀ values, node'.row model'.gathered values previous [] =
      node.row model.gathered values previous []) : next'.get? own' = next.get? own := by
  obtain ⟨values, rfl, hshows⟩ := d.compiled.exists_shown p.fits k
  have hshows' : Shows place' values memory' := hcoupled.shows hbefore
    (fun j hj => d.placed (Array.getElem?_eq_getElem
      (hj.trans (Array.getElem?_eq_some_iff.mp p.found).1))) hshows
  rw [p.row d.compiled d.wellFormed hshows hearlier hstart,
    p'.row d'.compiled d'.wellFormed hshows' hearlier' hstart', hrow]

/-- A node that is the same in two models has the same row on both sides if the ports that it reads
are coupled. -/
lemma Deployed.row_eq
    (p' : Performs model' program'.vars place' k node own' code' memory' next')
    (hcoupled : Coupled place place' kept memory memory')
    (hgathered : ∀ values ranges, model'.gathered values ranges = model.gathered values ranges)
    (hbefore : ∀ j < k, kept j) (hbegins : node.Begins → kept k) :
    next'.get? own' = next.get? own := by
  have hindex := d.wellFormed.numbered k node p.found
  have hread := d.reads node (Model.mem_nodes p.found)
  have hother (houtput : node.kind ≠ .output) (hinput : node.kind ≠ .input)
      (hconstant : ∀ row, node.kind ≠ .constant row) : next'.get? own' = next.get? own := by
    have hearlier : ∀ range ∈ node.ranges, range.port.index < k := by
      intro range hrange
      rcases hread range hrange with hlt | ⟨hself, -⟩
      · rwa [hindex] at hlt
      · exact absurd hself houtput
    obtain ⟨var, hvar, -⟩ := d.compiled.variable_of p.found p.home
    obtain ⟨previous, hprevious, -⟩ := p.fits.holds own var hvar
    refine d.computed_eq d' p p' hcoupled hbefore hearlier hearlier previous (fun row hrow => ?_)
      (fun row hrow => ?_) fun values => ?_
    · obtain ⟨-, rfl⟩ := Node.eq_previous_of_start hrow hinput hconstant
      exact hprevious
    · obtain ⟨hkind, rfl⟩ := Node.eq_previous_of_start hrow hinput hconstant
      rw [hcoupled k (hbegins (.inl (.inl hkind))) own own' p.home p'.home, hprevious]
    · rw [show model'.gathered = model.gathered from funext₂ hgathered]
  cases hkind : node.kind with
  | input => exact hcoupled.idle p p' (.inl hkind) (hbegins (.inr (.inl hkind)))
  | constant row =>
    exact hcoupled.idle p p' (.inr ⟨row, hkind⟩) (hbegins (.inl (.inr ⟨row, hkind⟩)))
  | output =>
    obtain ⟨var, hvar, hhome⟩ := d.compiled.variable_of p.found p.home
    obtain ⟨var', hvar', hhome'⟩ := d'.compiled.variable_of p'.found p'.home
    have hk := hbegins (.inr (.inr hkind))
    have hruns := p.runs
    have hruns' := p'.runs
    obtain ⟨slices, hreads, rfl⟩ := p.code.eq_copies hkind
    obtain ⟨slices', hreads', rfl⟩ := p'.code.eq_copies hkind
    have hkept : ∀ range ∈ node.operand 0, kept range.port.index := by
      intro range hrange
      rcases hread range (Node.mem_ranges hrange) with hlt | ⟨-, hself⟩
      · exact hbefore _ (by rwa [hindex] at hlt)
      · rwa [hself, d.wellFormed.numbered.port_id p.found]
    exact hcoupled.copies d.compiled.injective d'.compiled.injective p.home p'.home hk hvar hvar'
      (hhome'.elementType.trans hhome.elementType.symm) hreads hreads' hkept hruns hruns' k hk own
      own' p.home p'.home
  | _ => exact hother (by simp [hkind]) (by simp [hkind]) (by simp [hkind])

end

section

variable (d : Deployed model program name place function)
variable (d' : Deployed model' program' name place' function')
variable (hrewired : model.Rewired model' i)
variable (hnode : model.Computes i node) (hnode' : model'.Computes i node')
variable (hrow : i < bound → ∀ values,
  node'.row model'.gathered values [] [] = node.row model.gathered values [] [])

include d d' hrewired hnode hnode' hrow

/-- The code of the nodes at one place keeps ports below the bound coupled, their own included. -/
lemma Deployed.step_coupled {first first' : Node} (hfirst : model.nodes[k]? = some first)
    (hfirst' : model'.nodes[k]? = some first') (hown : place ⟨k⟩ = some own)
    (hown' : place' ⟨k⟩ = some own')
    (hcode : NodeCode model program.vars 0 place first own code)
    (hcode' : NodeCode model' program'.vars 0 place' first' own' code')
    (hmem : ∀ instruction ∈ code, instruction ∈ function.body)
    (hmem' : ∀ instruction ∈ code', instruction ∈ function'.body)
    (hfits : memory.Fits program.vars) (hfits' : memory'.Fits program'.vars)
    (hcoupled : Coupled place place' (model.Known bound k) memory memory') :
    ∃ next next', Runs program.vars code memory next ∧ Runs program'.vars code' memory' next' ∧
      next.Fits program.vars ∧ next'.Fits program'.vars ∧
      Coupled place place' (model.Known bound (k + 1)) next next' := by
  obtain ⟨next, p, hnext, hkeeps⟩ := d.performs hfirst hown hcode hmem hfits
  obtain ⟨next', p', hnext', hkeeps'⟩ := d'.performs hfirst' hown' hcode' hmem' hfits'
  refine ⟨next, next', p.runs, p'.runs, hnext, hnext', ?_⟩
  rintro j ⟨hj, hknown⟩ id id' hid hid'
  by_cases heq : j = k
  · subst heq
    obtain rfl := Option.some.inj (hown.symm.trans hid)
    obtain rfl := Option.some.inj (hown'.symm.trans hid')
    have hbefore : ∀ earlier < j, model.Known bound j earlier :=
      fun earlier hlt => ⟨hlt.trans hj, .inl hlt⟩
    by_cases hi : j = i
    · -- the node that is fed otherwise
      subst hi
      obtain rfl := Option.some.inj (hnode.found.symm.trans hfirst)
      obtain rfl := Option.some.inj (hnode'.found.symm.trans hfirst')
      exact d.computed_eq d' p p' hcoupled hbefore hnode.earlier hnode'.earlier []
        (fun row h => absurd (h.symm.trans (hnode.fresh [] [])) (Option.some_ne_none row))
        (fun row h => absurd (h.symm.trans (hnode'.fresh [] [])) (Option.some_ne_none row))
        (hrow hj)
    · obtain rfl : first' = first :=
        Option.some.inj (hfirst'.symm.trans ((hrewired.same j hi).trans hfirst))
      exact d.row_eq d' p p' hcoupled hrewired.gathered_eq hbefore
        fun hbegins => ⟨hj, .inr ⟨first', hfirst, hbegins⟩⟩
  · rw [hkeeps j heq id hid, hkeeps' j heq id' hid']
    refine hcoupled j ⟨hj, hknown.imp_left fun hlt => ?_⟩ id id' hid hid'
    omega

/-- The code of all nodes leaves the ports below the bound coupled. -/
lemma Deployed.run_coupled {rest rest' : List Node} {codes codes' : List (List Instruction)}
    (hrest : model.nodes.toList.drop k = rest) (hrest' : model'.nodes.toList.drop k = rest')
    (hcodes : List.Forall₂ (fun node code => ∃ id, place node.port.id = some id ∧
      NodeCode model program.vars 0 place node id code) rest codes)
    (hcodes' : List.Forall₂ (fun node code => ∃ id, place' node.port.id = some id ∧
      NodeCode model' program'.vars 0 place' node id code) rest' codes')
    (hmem : ∀ instruction ∈ codes.flatten, instruction ∈ function.body)
    (hmem' : ∀ instruction ∈ codes'.flatten, instruction ∈ function'.body)
    (hfits : memory.Fits program.vars) (hfits' : memory'.Fits program'.vars)
    (hcoupled : Coupled place place' (model.Known bound k) memory memory') :
    ∃ next next', Runs program.vars codes.flatten memory next ∧
      Runs program'.vars codes'.flatten memory' next' ∧
      next.Fits program.vars ∧ next'.Fits program'.vars ∧
      Coupled place place' (model.Known bound (k + rest.length)) next next' := by
  have hlength : rest'.length = rest.length := by
    rw [← hrest, ← hrest', List.length_drop, List.length_drop, Array.length_toList,
      Array.length_toList, hrewired.size_eq]
  induction hcodes generalizing k rest' codes' memory memory' with
  | nil =>
    obtain rfl := List.length_eq_zero_iff.mp hlength
    cases hcodes'
    exact ⟨memory, memory', .nil memory, .nil memory', hfits, hfits', hcoupled⟩
  | @cons first code rest codes hhead _ ih =>
    cases hcodes' with
    | nil => cases hlength
    | @cons first' code' rest' codes' hhead' hcodes' =>
    obtain ⟨own, hown, hcode⟩ := hhead
    obtain ⟨own', hown', hcode'⟩ := hhead'
    obtain ⟨hfirst, hdrop⟩ := Model.drop_nodes_eq_cons_iff.mp hrest
    obtain ⟨hfirst', hdrop'⟩ := Model.drop_nodes_eq_cons_iff.mp hrest'
    rw [d.wellFormed.numbered.port_id hfirst] at hown
    rw [d'.wellFormed.numbered.port_id hfirst'] at hown'
    rw [List.flatten_cons] at hmem hmem'
    obtain ⟨hmem, hothers⟩ := List.forall_mem_append.mp hmem
    obtain ⟨hmem', hothers'⟩ := List.forall_mem_append.mp hmem'
    obtain ⟨middle, middle', hruns, hruns', hfits, hfits', hcoupled⟩ :=
      d.step_coupled d' hrewired hnode hnode' hrow hfirst hfirst' hown hown' hcode hcode' hmem
        hmem' hfits hfits' hcoupled
    obtain ⟨next, next', hlast, hlast', hfits, hfits', hcoupled⟩ :=
      ih hdrop hdrop' hcodes' hothers hothers' hfits hfits' hcoupled (Nat.succ.inj hlength)
    refine ⟨next, next', hruns.append hlast, hruns'.append hlast', hfits, hfits', ?_⟩
    rwa [List.length_cons, Nat.add_comm _ 1, ← Nat.add_assoc]

end

end Dataflow
