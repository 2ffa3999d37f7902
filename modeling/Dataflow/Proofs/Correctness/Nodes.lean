import Dataflow.Proofs.Correctness.Operands

/-!
# The code of nodes is right

The code of a node leads from a memory that shows the rows of the ports before the node to one that
shows the node's row as well (`NodeCode.runs`).  Inputs and constants have no code, and a running
sum goes on from what it was, so their variables have to be right from the start (`Node.start`).
-/

namespace Dataflow

/-! ## Operators on rows -/

namespace Instruction

lemma spread_of_length_ne (count : ℕ) {row : List Float} (h : row.length ≠ 1) :
    spread count row = row := by
  match row, h with
  | [], _ => rfl
  | _ :: _ :: _, _ => rfl

end Instruction

section

variable (op : Float → Float → Float) {lhs rhs : List Float}

lemma pointwise_singleton_right (value : Float) :
    pointwise op lhs [value] = lhs.map fun entry => op entry value := by
  match lhs with
  | [] => rfl
  | [_] => rfl
  | _ :: _ :: _ => rfl

lemma pointwise_of_length_ne (hlhs : lhs.length ≠ 1) (hrhs : rhs.length ≠ 1) :
    pointwise op lhs rhs = List.zipWith op lhs rhs := by
  match lhs, rhs, hlhs, hrhs with
  | [], [], _, _ => rfl
  | [], _ :: _ :: _, _, _ => rfl
  | _ :: _ :: _, [], _, _ => rfl
  | _ :: _ :: _, _ :: _ :: _, _, _ => rfl

/-- What a machine does with two rows, one of which may be a single value, is what is done element
by element. -/
lemma zipWith_spread {size : ℕ} (h : broadcastSize? lhs.length rhs.length = some size) :
    List.zipWith op (Instruction.spread size lhs) (Instruction.spread size rhs) =
      pointwise op lhs rhs ∧ (pointwise op lhs rhs).length = size := by
  rw [broadcastSize?] at h
  by_cases hrhs : rhs.length = 1
  · rw [if_pos (.inr hrhs), Option.some.injEq] at h
    obtain ⟨value, rfl⟩ := List.length_eq_one_iff.mp hrhs
    rw [pointwise_singleton_right, List.length_map]
    refine ⟨?_, h⟩
    by_cases hlhs : lhs.length = 1
    · obtain ⟨other, rfl⟩ := List.length_eq_one_iff.mp hlhs
      rw [← h]
      rfl
    · rw [Instruction.spread_of_length_ne size hlhs, Instruction.spread, ← h, ← List.map_const',
        List.zipWith_map_right, List.zipWith_self]
  · by_cases hlhs : lhs.length = 1
    · obtain ⟨value, rfl⟩ := List.length_eq_one_iff.mp hlhs
      have hne : ¬ ([value].length = rhs.length ∨ rhs.length = 1) := by
        rw [List.length_singleton]
        omega
      rw [if_neg hne, if_pos hlhs, Option.some.injEq] at h
      have hpointwise : pointwise op [value] rhs = rhs.map fun entry => op value entry := rfl
      rw [hpointwise, List.length_map, Instruction.spread_of_length_ne size hrhs,
        Instruction.spread, ← h, ← List.map_const', List.zipWith_map_left, List.zipWith_self]
      exact ⟨rfl, rfl⟩
    · rw [pointwise_of_length_ne op hlhs hrhs, Instruction.spread_of_length_ne size hlhs,
        Instruction.spread_of_length_ne size hrhs, List.length_zipWith]
      split_ifs at h with heq
      · rw [Option.some.injEq] at h
        exact ⟨rfl, by omega⟩

end

lemma sumOfProducts_eq (lhs rhs : List Float) :
    Instruction.sumOfProducts lhs rhs = dotProduct lhs rhs := by
  rw [Instruction.sumOfProducts, dotProduct, ← List.map_uncurry_zip_eq_zipWith, List.foldl_map]
  rfl

/-! ## Writing the row of a node -/

/-- What the variable of a node holds when its code begins, if that matters. -/
def Node.start (previous supplied : List Float) (node : Node) : Option (List Float) :=
  match node.kind with
  | .input => some (supplied.map node.elementType.coerce)
  | .constant row => some (row.map node.elementType.coerce)
  | .accumulator => some previous
  | _ => none

/-- Instructions lead from one memory to another in which a variable holds a row.  The variables of
all other ports have kept theirs. -/
structure Writes (vars : VariableTable) (place : PortId → Option VarId) (own : VarId)
    (row : List Float) (code : List Instruction) (memory memory' : Memory) : Prop where
  runs : Runs vars code memory memory'
  fits : memory'.Fits vars
  row : memory'.get? own = some row
  others : ∀ port id, id ≠ own → place port = some id → memory'.get? id = memory.get? id

variable {model : Model} {vars : VariableTable} {old : ℕ} {place : PortId → Option VarId}
variable {function : Function} {values : Values} {node : Node} {own : VarId}
variable {memory memory' : Memory} {code code' : List Instruction} {row : List Float}

lemma Writes.after {last : Memory} (h : Writes vars place own row code' memory' last)
    (hruns : Runs vars code memory memory')
    (hports : ∀ port id, place port = some id → memory'.get? id = memory.get? id) :
    Writes vars place own row (code ++ code') memory last :=
  ⟨hruns.append h.runs, h.fits, h.row, fun port id hne hid =>
    (h.others port id hne hid).trans (hports port id hid)⟩

/-- What is written last counts. -/
lemma Writes.append {last : Memory} {row' : List Float}
    (hfirst : Writes vars place own row code memory memory')
    (hrest : Writes vars place own row' code' memory' last) :
    Writes vars place own row' (code ++ code') memory last :=
  ⟨hfirst.runs.append hrest.runs, hrest.fits, hrest.row, fun port id hne hid =>
    (hrest.others port id hne hid).trans (hfirst.others port id hne hid)⟩

lemma Instruction.Admissible.length_ne {instruction : Instruction}
    (h : instruction.Admissible vars) : instruction.dst.length ≠ 0 := by
  obtain ⟨_, -, -, -, hlength, -⟩ := h.dst
  exact hlength

section

variable (h : Compiled model vars old place function) (hmodel : model.WellFormed)

include h hmodel

/-- The variable of a node is read as a whole. -/
lemma Stage.read_own (hstage : Stage model vars place values node own memory)
    (hrow : memory.get? own = some row) :
    row.length = node.size ∧ memory.read ⟨own, 0, node.size⟩ = .ok row := by
  obtain ⟨var, hvar, hhome⟩ := h.variable_own hmodel hstage
  obtain ⟨row', hrow', hlength⟩ := hstage.fits.holds own var hvar
  obtain rfl : row = row' := Option.some.inj (hrow.symm.trans hrow')
  rw [← hhome.size]
  exact ⟨hlength, Memory.read_whole hrow hlength (h.word own var hvar)⟩

/-- An instruction that computes all elements of a node's variable stores them there. -/
lemma Stage.assign (hstage : Stage model vars place values node own memory)
    {instruction : Instruction} (hresult : instruction.result memory = .ok row)
    (hdst : instruction.dst = ⟨own, 0, node.size⟩) (hlength : row.length = node.size) :
    ∃ memory', Writes vars place own (row.map node.elementType.coerce) [instruction]
      memory memory' := by
  obtain ⟨var, hvar, hhome⟩ := h.variable_own hmodel hstage
  rw [← hhome.size] at hdst hlength
  have hexecute := Instruction.execute_whole hstage.fits hvar (h.word own var hvar) hdst hresult
    hlength
  refine ⟨_, .single hexecute, hstage.fits.set hvar (by rw [List.length_map, hlength]), ?_,
    fun port id hne _ => Memory.get?_set_of_ne memory hne.symm _⟩
  rw [hstage.fits.get?_set hvar, hhome.elementType]

/-- A node that copies ranges one after another. -/
lemma Stage.concatenate
    (hstage : Stage model vars place values node own memory) {slices : List Slice}
    (hreads : List.Forall₂ (Reads model place) (node.operand 0) slices)
    (hsize : node.size = (slices.map Slice.length).sum) :
    ∃ memory', Writes vars place own
      ((concatenated values (node.operand 0)).map node.elementType.coerce)
      (copies ⟨own, 0, node.size⟩ 0 slices) memory memory' := by
  obtain ⟨var, hvar, hhome⟩ := h.variable_own hmodel hstage
  rw [← hhome.size]
  have hsources : List.Forall₂ (Source values memory own) (node.operand 0) slices := by
    have hranges : ∀ range ∈ node.operand 0, range ∈ node.ranges := fun _ => Node.mem_ranges
    generalize node.operand 0 = ranges at hreads hranges
    cases hreads with
    | nil => exact .nil
    | @cons range src _ _ hread hrest =>
      -- the first range is not empty, so the node has an element
      have hpos : node.size ≠ 0 := by
        obtain ⟨_, -, rfl⟩ := hread.slice
        have hfirst := hread.nonempty
        simp only [hsize, List.map_cons, List.sum_cons]
        omega
      exact h.sources hmodel hstage hpos (.cons hread hrest) hranges
        fun range hrange slice hslice => h.ne_own hmodel hstage (hranges range hrange) hslice
  obtain ⟨memory', hruns, hfits, hget, hframe⟩ := runs_concatenation hstage.fits hvar
    (h.word own var hvar) hsources (hhome.size.trans hsize)
  refine ⟨memory', hruns, hfits, ?_, fun port id hne _ => ?_⟩
  · rw [hget, hhome.elementType]
  · refine hframe id fun instruction hmem => ?_
    rw [dst_copies instruction hmem]
    exact hne.symm

/-- What a node writes leaves the ports before it alone. -/
lemma Stage.writes (hstage : Stage model vars place values node own memory)
    (hwrites : Writes vars place own row code memory memory') :
    Stage model vars place values node own memory' := by
  refine ⟨hstage.next, hstage.home, hwrites.fits, fun i row hrow id hid => ?_, hstage.earlier⟩
  have hne : id ≠ own := by
    rintro rfl
    have hports := h.injective _ _ id hid hstage.home
    rw [hmodel.numbered.port_id hstage.next, PortId.mk.injEq] at hports
    exact absurd hports (List.getElem?_eq_some_iff.mp hrow).1.ne
  rw [hwrites.others _ id hne hid, hstage.shows i row hrow id hid]

/-- Slices are folded into the single element of a node one after another. -/
lemma Stage.fold (op : ReduceOp) (hsize : node.size = 1)
    {ranges : List PortRange} {slices : List Slice}
    (hreads : List.Forall₂ (Reads model place) ranges slices)
    (hranges : ∀ range ∈ ranges, range ∈ node.ranges)
    (hstage : Stage model vars place values node own memory) {total : Float}
    (htotal : memory.get? own = some [total]) :
    ∃ memory', Writes vars place own
      [ranges.foldl (fun total range =>
        node.elementType.coerce ((range.elements values).foldl op.combine total)) total]
      (slices.map fun src => .reduce op ⟨own, 0, node.size⟩ src) memory memory' := by
  induction hreads generalizing memory total with
  | nil => exact ⟨memory, .nil memory, hstage.fits, htotal, fun _ _ _ _ => rfl⟩
  | @cons range src _ _ hread _ ih =>
    obtain ⟨hrange, hranges⟩ := List.forall_mem_cons.mp hranges
    have hsource := h.source hmodel hstage (by omega) hrange hread
      (h.ne_own hmodel hstage hrange hread)
    have hrunning : memory.read ⟨own, 0, node.size⟩ = .ok [total] :=
      Memory.read_whole htotal hsize.symm (by rw [hsize]; decide)
    obtain ⟨memory₁, hfirst⟩ := hstage.assign h hmodel
      (Instruction.result_reduce op hrunning hsource.read) rfl hsize.symm
    obtain ⟨memory', hrest⟩ := ih hranges (hstage.writes h hmodel hfirst) hfirst.row
    exact ⟨memory', hfirst.append hrest⟩

/-- Whatever a node of one element holds, it begins with the identity of its operator. -/
lemma Stage.begin_fold (op : ReduceOp) (hsize : node.size = 1)
    (hstage : Stage model vars place values node own memory) :
    ∃ memory', Writes vars place own [node.elementType.coerce op.identity]
      [.fill ⟨own, 0, node.size⟩ op.identity] memory memory' := by
  obtain ⟨var, hvar, -⟩ := h.variable_own hmodel hstage
  obtain ⟨row, hrow, -⟩ := hstage.fits.holds own var hvar
  obtain ⟨hlength, hread⟩ := hstage.read_own h hmodel hrow
  obtain ⟨value, rfl⟩ := List.length_eq_one_iff.mp (hlength.trans hsize)
  exact hstage.assign h hmodel (Instruction.result_fill op.identity hread) rfl hlength

/-- **The code of a node is right.**  It leads to a memory in which the node's port holds its row.
-/
lemma NodeCode.runs (hstage : Stage model vars place values node own memory)
    (hcode : NodeCode model vars old place node own code)
    (hadmissible : ∀ instruction ∈ code, instruction.Admissible vars)
    {previous supplied : List Float}
    (hstart : ∀ row, node.start previous supplied = some row → memory.get? own = some row) :
    ∃ memory', Writes vars place own (node.row model.gathered values previous supplied) code
      memory memory' := by
  have hranges : ∀ index, ∀ range ∈ node.operand index, range ∈ node.ranges :=
    fun _ _ => Node.mem_ranges
  cases hcode with
  | input hkind =>
    refine ⟨memory, .nil memory, hstage.fits, ?_, fun _ _ _ _ => rfl⟩
    rw [hstart _ (by rw [Node.start, hkind]), Node.row, hkind]
  | constant hkind =>
    refine ⟨memory, .nil memory, hstage.fits, ?_, fun _ _ _ _ => rfl⟩
    rw [hstart _ (by rw [Node.start, hkind]), Node.row, hkind]
  | concatenation hkind hreads hsize =>
    have hrow : node.row model.gathered values previous supplied =
        (concatenated values (node.operand 0)).map node.elementType.coerce := by
      rcases hkind with hkind | hkind <;> rw [Node.row, hkind]
    rw [hrow]
    exact hstage.concatenate h hmodel hreads hsize
  | unary hkind hsrc =>
    obtain ⟨-, hlast⟩ := List.forall_mem_append.mp hadmissible
    have hwrite := hlast _ List.mem_cons_self
    obtain ⟨memory₁, hgathers⟩ :=
      hsrc.runs h hmodel hstage hwrite.length_ne (hranges 0)
    have hlength : _ = node.size := of_decide_eq_true hwrite.lengths
    obtain ⟨memory', hwrites⟩ := (hstage.congr hgathers.fits hgathers.ports).assign h hmodel
      (Instruction.result_unary _ hgathers.read) rfl
      (by rw [List.length_map, ← hgathers.length, hlength])
    rw [List.map_map] at hwrites
    rw [Node.row, hkind]
    exact ⟨memory', hwrites.after hgathers.runs hgathers.ports⟩
  | accumulator hkind hsrc =>
    obtain ⟨-, hlast⟩ := List.forall_mem_append.mp hadmissible
    have hwrite := hlast _ List.mem_cons_self
    obtain ⟨memory₁, hgathers⟩ :=
      hsrc.runs h hmodel hstage hwrite.length_ne (hranges 0)
    have hlength : _ = node.size := of_decide_eq_true hwrite.lengths
    have hstage₁ := hstage.congr hgathers.fits hgathers.ports
    -- what the sum has come to so far
    have hsum : memory₁.get? own = some previous := by
      rw [hgathers.ports _ own hstage.home, hstart _ (by rw [Node.start, hkind])]
    obtain ⟨hsize, hread⟩ := hstage₁.read_own h hmodel hsum
    obtain ⟨memory', hwrites⟩ := hstage₁.assign h hmodel
      (Instruction.result_accumulate hread hgathers.read) rfl
      (by rw [List.length_zipWith, ← hgathers.length, hlength, hsize, Nat.min_self])
    rw [Node.row, hkind]
    exact ⟨memory', hwrites.after hgathers.runs hgathers.ports⟩
  | binary hkind hlhs hrhs hkeep =>
    obtain ⟨-, hlast⟩ := List.forall_mem_append.mp hadmissible
    have hwrite := hlast _ List.mem_cons_self
    obtain ⟨memory₁, hruns, hstage₁, hread, hread', hlength, hlength', hports⟩ :=
      Operand.runs_two h hmodel hstage hwrite.length_ne hlhs hrhs hkeep
    have hsize : broadcastSize? _ _ = some node.size := of_decide_eq_true hwrite.lengths
    rw [hlength, hlength'] at hsize
    obtain ⟨hrow, hrows⟩ := zipWith_spread _ hsize
    obtain ⟨memory', hwrites⟩ := hstage₁.assign h hmodel
      (Instruction.result_binary _ hread hread') rfl (by rw [hrow, hrows])
    rw [hrow] at hwrites
    rw [Node.row, hkind]
    exact ⟨memory', hwrites.after hruns hports⟩
  | dot hkind hsize hlhs hrhs hkeep =>
    obtain ⟨-, hlast⟩ := List.forall_mem_append.mp hadmissible
    have hwrite := hlast _ List.mem_cons_self
    obtain ⟨memory₁, hruns, hstage₁, hread, hread', -, -, hports⟩ :=
      Operand.runs_two h hmodel hstage hwrite.length_ne hlhs hrhs hkeep
    obtain ⟨memory', hwrites⟩ := hstage₁.assign h hmodel
      (Instruction.result_dot hread hread') rfl hsize.symm
    rw [sumOfProducts_eq] at hwrites
    rw [Node.row, hkind]
    exact ⟨memory', hwrites.after hruns hports⟩
  | reduce hkind hsize hreads =>
    obtain ⟨memory₁, hbegin⟩ := hstage.begin_fold h hmodel _ hsize
    obtain ⟨memory', hfold⟩ := Stage.fold h hmodel _ hsize hreads (hranges 0)
      (hstage.writes h hmodel hbegin) hbegin.row
    rw [Node.row, hkind]
    exact ⟨memory', hbegin.append hfold⟩

/-! ## All nodes -/

/-- A memory in the middle of a call: it shows the rows that have been computed so far, and the
nodes that are still to come find their variables as they have to be. -/
structure Reached (model : Model) (vars : VariableTable) (place : PortId → Option VarId)
    (previous : Values) (inputs : List (List Float)) (values : Values) (memory : Memory) :
    Prop where
  fits : memory.Fits vars
  shows : Shows place values memory
  waiting : ∀ (i : ℕ) (node : Node), values.length ≤ i → model.nodes[i]? = some node →
    ∀ id, place ⟨i⟩ = some id → ∀ row, node.start (previous[node.port.id.index]?.getD [])
      (rowFor model.inputPorts inputs node.port.id) = some row → memory.get? id = some row

variable {previous : Values} {inputs : List (List Float)}

/-- The code of one node adds its row to those that have been computed. -/
lemma Reached.step (hback : model.Backward)
    (hreached : Reached model vars place previous inputs values memory)
    (hnode : model.nodes[values.length]? = some node) (hown : place node.port.id = some own)
    (hcode : NodeCode model vars old place node own code)
    (hadmissible : ∀ instruction ∈ code, instruction.Admissible vars) :
    ∃ memory', Runs vars code memory memory' ∧ Reached model vars place previous inputs
      (values ++ [model.rowOf model.gathered previous inputs values node]) memory' := by
  have hport := hmodel.numbered.port_id hnode
  have hhere : place ⟨values.length⟩ = some own := by rw [← hport, hown]
  have hne : ∀ i ≠ values.length, ∀ id, place ⟨i⟩ = some id → id ≠ own := by
    rintro i hi id hid rfl
    exact hi (congrArg PortId.index (h.injective _ _ id hid hhere))
  obtain ⟨memory', hwrites⟩ := hcode.runs h hmodel
    ⟨hnode, hown, hreached.fits, hreached.shows, hback _ node hnode⟩ hadmissible
    (hreached.waiting _ node (le_refl _) hnode own hhere)
  refine ⟨memory', hwrites.runs, hwrites.fits, fun i row hrow id hid => ?_,
    fun i other hi hother id hid row hrow => ?_⟩
  · rcases Nat.lt_trichotomy i values.length with hlt | rfl | hgt
    · rw [List.getElem?_append_left hlt] at hrow
      rw [hwrites.others _ id (hne i hlt.ne id hid) hid, hreached.shows i row hrow id hid]
    · rw [List.getElem?_concat_length, Option.some.injEq] at hrow
      obtain rfl : own = id := Option.some.inj (hhere.symm.trans hid)
      rw [hwrites.row, ← hrow]
      rfl
    · rw [List.getElem?_eq_none (by rw [List.length_append, List.length_singleton]; omega)] at hrow
      cases hrow
  · rw [List.length_append, List.length_singleton] at hi
    rw [hwrites.others _ id (hne i (by omega) id hid) hid]
    exact hreached.waiting i other (by omega) hother id hid row hrow

/-- The code of several nodes adds the row of each. -/
lemma Reached.run (hback : model.Backward) {rest : List Node} {codes : List (List Instruction)}
    (hcodes : List.Forall₂ (fun node code => ∃ id, place node.port.id = some id ∧
      NodeCode model vars old place node id code) rest codes)
    (hrest : model.nodes.toList.drop values.length = rest)
    (hreached : Reached model vars place previous inputs values memory)
    (hadmissible : ∀ instruction ∈ codes.flatten, instruction.Admissible vars) :
    ∃ memory', Runs vars codes.flatten memory memory' ∧ Reached model vars place previous inputs
      (model.extend model.gathered previous inputs values rest) memory' := by
  induction hcodes generalizing values memory with
  | nil => exact ⟨memory, .nil memory, hreached⟩
  | @cons node code rest codes hhead _ ih =>
    obtain ⟨own, hown, hcode⟩ := hhead
    obtain ⟨hfirst, hothers⟩ := List.forall_mem_append.mp (List.flatten_cons ▸ hadmissible)
    obtain ⟨hnode, hdrop⟩ := Model.drop_nodes_eq_cons_iff.mp hrest
    obtain ⟨memory₁, hruns, hreached₁⟩ := hreached.step h hmodel hback hnode hown hcode hfirst
    obtain ⟨memory', hruns', hreached'⟩ :=
      ih (by rw [List.length_append, List.length_singleton, hdrop]) hreached₁ hothers
    exact ⟨memory', List.flatten_cons ▸ hruns.append hruns', hreached'⟩

end

end Dataflow
