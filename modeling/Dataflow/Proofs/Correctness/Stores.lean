import Dataflow.Proofs.Acceptance.Models
import Dataflow.Proofs.Compiler.Series
import Dataflow.Proofs.Number.Reductions

/-!
# What nodes store in a call

A node of a compiled model finds the rows of the ports that it reads in their variables, and stores
its own row in its own one.  What is compiled after it leaves all of these alone, so they are still
there when the call is over (`Compiled.node_runs`).  For a node that reduces a range this is what
comes of folding the elements of the range, whatever the memory was before the call
(`Compiler.calls_reduce`).
-/

namespace Dataflow

variable {model : Model} {vars : VariableTable} {old : ℕ} {place : PortId → Option VarId}
variable {function : Function} {node : Node} {memory : Memory} {i : ℕ}

/-- The code of a node writes to no variable of another port. -/
lemma Compiled.keeps_other (h : Compiled model vars old place function) {own : VarId}
    (hown : place node.port.id = some own) {code : List Instruction}
    (hcode : NodeCode model vars old place node own code) {port : PortId} {id : VarId}
    (hid : place port = some id) (hne : port ≠ node.port.id) :
    ∀ instruction ∈ code, instruction.dst.var ≠ id := by
  rintro instruction hmem rfl
  rcases hcode.dst_home instruction hmem with hhome | ⟨var, hvar, hstorage⟩
  · rw [hhome] at hid
    exact hne (h.injective _ _ own hid hown)
  · exact h.ne_scratch hid hvar hstorage rfl

/-- The code of some nodes writes to no variable of a port of another node. -/
lemma Compiled.keeps_others (h : Compiled model vars old place function) {nodes : List Node}
    {codes : List (List Instruction)}
    (hcodes : List.Forall₂ (fun node code => ∃ id, place node.port.id = some id ∧
      NodeCode model vars old place node id code) nodes codes) {port : PortId} {id : VarId}
    (hid : place port = some id) (hothers : ∀ node ∈ nodes, port ≠ node.port.id) :
    ∀ instruction ∈ codes.flatten, instruction.dst.var ≠ id := by
  induction hcodes with
  | nil => exact fun _ hmem => absurd hmem List.not_mem_nil
  | cons hhead _ ih =>
    obtain ⟨home, hhome, hcode⟩ := hhead
    obtain ⟨hne, hothers⟩ := List.forall_mem_cons.mp hothers
    rw [List.flatten_cons]
    exact List.forall_mem_append.mpr ⟨h.keeps_other hhome hcode hid hne, ih hothers⟩

/-- The ports of the nodes before a position have smaller numbers, and those of the nodes from there
on do not. -/
lemma Model.Numbered.port_take_drop (h : model.Numbered) (i : ℕ) :
    (∀ node ∈ model.nodes.toList.take i, node.port.id.index < i) ∧
      ∀ node ∈ model.nodes.toList.drop i, i ≤ node.port.id.index := by
  constructor
  · intro node hmem
    obtain ⟨k, hk⟩ := List.getElem?_of_mem hmem
    have hlt : k < i :=
      (List.getElem?_eq_some_iff.mp hk).1.trans_le (by rw [List.length_take]; omega)
    rw [List.getElem?_take_of_lt hlt, Array.getElem?_toList] at hk
    rwa [h.port_id hk]
  · intro node hmem
    obtain ⟨k, hk⟩ := List.getElem?_of_mem hmem
    rw [List.getElem?_drop, Array.getElem?_toList] at hk
    rw [h.port_id hk]
    exact Nat.le_add_right i k

/-- Every node has a variable for its port. -/
lemma Compiled.placed (h : Compiled model vars old place function)
    (hnode : node ∈ model.nodes.toList) : ∃ id, place node.port.id = some id := by
  obtain ⟨codes, -, hcodes⟩ := h.code
  obtain ⟨i, hi, rfl⟩ := List.getElem_of_mem hnode
  obtain ⟨id, hid, -⟩ := hcodes.get hi (hcodes.length_eq ▸ hi)
  exact ⟨id, hid⟩

/-- The row of a node that starts from nothing depends on the rows before it only. -/
lemma Node.row_of_start_eq_none {gathering : Gathering} {values : Values}
    (h : ∀ previous supplied, node.start previous supplied = none) (previous : List Float) :
    node.row gathering values previous [] = node.row gathering values [] [] := by
  have hnone := h [] []
  rw [Node.start] at hnone
  rw [Node.row, Node.row]
  cases hkind : node.kind <;> first | rfl | (rw [hkind] at hnone; cases hnone)

/-- Every memory shows rows for the first ports. -/
lemma Compiled.exists_shown (h : Compiled model vars old place function)
    (hfits : memory.Fits vars) (count : ℕ) :
    ∃ values : Values, values.length = count ∧ Shows place values memory := by
  refine ⟨(List.range count).map fun j => ((place ⟨j⟩).bind memory.get?).getD [], by simp,
    fun j row hrow id hid => ?_⟩
  rw [List.getElem?_map] at hrow
  obtain ⟨k, hk, rfl⟩ := Option.map_eq_some_iff.mp hrow
  obtain ⟨-, rfl⟩ := List.getElem?_eq_some_iff.mp hk
  obtain ⟨other, var, -, hvar, -⟩ := h.home _ id hid
  obtain ⟨row, hrow, -⟩ := hfits.holds id var hvar
  rw [List.getElem_range, hid, Option.bind_some, hrow, Option.getD_some]

/-- The code of a node stands between that of the nodes before it, which writes to no port from
there on, and that of the nodes behind it, which writes to no port up to there. -/
lemma Compiled.split_code (h : Compiled model vars old place function) (hmodel : model.WellFormed)
    (hnode : model.nodes[i]? = some node) {own : VarId} (hown : place node.port.id = some own) :
    ∃ front code back : List Instruction, function.body = front ++ (code ++ back) ∧
      NodeCode model vars old place node own code ∧
      (∀ j id, i ≤ j → place ⟨j⟩ = some id →
        ∀ instruction ∈ front, instruction.dst.var ≠ id) ∧
      ∀ j id, j ≤ i → place ⟨j⟩ = some id → ∀ instruction ∈ back, instruction.dst.var ≠ id := by
  obtain ⟨codes, hbody, hcodes⟩ := h.code
  have hrest := List.forall₂_drop i hcodes
  rw [Model.drop_nodes_eq_cons_iff.mpr ⟨hnode, rfl⟩] at hrest
  obtain ⟨code, back, ⟨other, hother, hcode⟩, hback, hsplit⟩ := List.forall₂_cons_left_iff.mp hrest
  obtain rfl : own = other := Option.some.inj (hown.symm.trans hother)
  refine ⟨(codes.take i).flatten, code, back.flatten, ?_, hcode, fun j id hj hid => ?_,
    fun j id hj hid => ?_⟩
  · rw [hbody, ← List.flatten_cons, ← hsplit, ← List.flatten_append, List.take_append_drop]
  · refine h.keeps_others (List.forall₂_take i hcodes) hid fun node hmem heq => ?_
    have hlt := (hmodel.numbered.port_take_drop i).1 node hmem
    rw [← heq] at hlt
    exact absurd hj hlt.not_ge
  · refine h.keeps_others hback hid fun node hmem heq => ?_
    have hle := (hmodel.numbered.port_take_drop (i + 1)).2 node hmem
    rw [← heq] at hle
    exact absurd hj (Nat.not_le_of_lt hle)

/-- **A node has its row at the end of a call.**  The variables of the ports before it hold the rows
that the row of the node comes from.  What it starts from has to be there when the call begins. -/
lemma Compiled.node_runs (h : Compiled model vars old place function) (hmodel : model.WellFormed)
    (hsafe : ∀ instruction ∈ function.body, instruction.Safe vars) (hsized : vars.Sized)
    (hnode : model.nodes[i]? = some node) (hearlier : ∀ range ∈ node.ranges, range.port.index < i)
    {own : VarId} (hown : place node.port.id = some own) {previous supplied : List Float}
    (hstart : ∀ row, node.start previous supplied = some row → memory.get? own = some row)
    (hfits : memory.Fits vars) :
    ∃ (values : Values) (last : Memory), Runs vars function.body memory last ∧
      last.Fits vars ∧ values.length = i ∧ Shows place values last ∧
      last.get? own = some (node.row model.gathered values previous supplied) := by
  have hhere : place ⟨i⟩ = some own := by rw [← hmodel.numbered.port_id hnode, hown]
  obtain ⟨front, code, back, hbody, hcode, hfront, hback⟩ := h.split_code hmodel hnode hown
  have hadmissible := h.admissible
  rw [hbody] at hsafe hadmissible ⊢
  obtain ⟨hsafeFront, hsafe⟩ := List.forall_mem_append.mp hsafe
  obtain ⟨-, hsafeBack⟩ := List.forall_mem_append.mp hsafe
  obtain ⟨-, hadmissible⟩ := List.forall_mem_append.mp hadmissible
  obtain ⟨hadmissible, -⟩ := List.forall_mem_append.mp hadmissible
  obtain ⟨before, hruns, hfitsBefore, hframe⟩ := runs_of_safe hsafeFront hsized hfits
  -- the nodes before leave alone what this one starts from
  have hwaiting : before.get? own = memory.get? own :=
    hframe own (hfront i own (le_refl i) hhere)
  obtain ⟨values, hlength, hshows⟩ := h.exists_shown hfitsBefore i
  obtain ⟨middle, hwrites⟩ := hcode.runs h hmodel
    ⟨by rw [hlength, hnode], hown, hfitsBefore, hshows, hlength.symm ▸ hearlier⟩ hadmissible
    fun row hrow => hwaiting.trans (hstart row hrow)
  obtain ⟨last, hlast, hfitsLast, hframe⟩ := runs_of_safe hsafeBack hsized hwrites.fits
  -- the nodes behind leave alone what has been computed
  have hkept : ∀ j ≤ i, ∀ id, place ⟨j⟩ = some id → last.get? id = middle.get? id :=
    fun j hj id hid => hframe id (hback j id hj hid)
  refine ⟨values, last, hruns.append (hwrites.runs.append hlast), hfitsLast, hlength,
    fun j row hrow id hid => ?_, (hkept i (le_refl i) own hhere).trans hwrites.row⟩
  have hlt : j < i := hlength ▸ (List.getElem?_eq_some_iff.mp hrow).1
  have hne : id ≠ own := by
    rintro rfl
    exact hlt.ne (congrArg PortId.index (h.injective _ _ id hid hhere))
  rw [hkept j hlt.le id hid, hwrites.others _ id hne hid, hshows j row hrow id hid]

/-- The largest of three numbers as an integer. -/
def Model.largestInteger : Model :=
  ⟨"largest", #[⟨⟨0⟩, "x", .input, [], .real, 3⟩,
    ⟨⟨1⟩, "m", .reduce .max, [⟨"input", ⟨[⟨⟨0⟩, 0, 3⟩]⟩⟩], .int, 1⟩,
    ⟨⟨2⟩, "y", .output, [⟨"input", ⟨[⟨⟨1⟩, 0, 1⟩]⟩⟩], .int, 1⟩]⟩

/-- The largest of two truth values. -/
def Model.anyTrue : Model :=
  ⟨"any", #[⟨⟨0⟩, "x", .input, [], .bool, 2⟩,
    ⟨⟨1⟩, "m", .reduce .max, [⟨"input", ⟨[⟨⟨0⟩, 0, 2⟩]⟩⟩], .bool, 1⟩,
    ⟨⟨2⟩, "y", .output, [⟨"input", ⟨[⟨⟨1⟩, 0, 1⟩]⟩⟩], .bool, 1⟩]⟩

namespace Compiler

variable {program name : String} {policy : MergePolicy} {limit : ℕ} {options : Options}
variable {answer : CompiledFunction} {last : Compiler Assembler} {range : PortRange}

/-- What a single compilation leaves is a program of one function, which keeps to itself. -/
lemma compile_ok_modular (hmodel : model.WellFormed) (hlimit : limit < Word.count)
    (h : compile model name (fresh (Assembler.fresh program policy limit) options) =
      .ok answer last) :
    ∃ function spans, last.backend.program.functions = [function] ∧
      last.backend.program.function? name = some function ∧
      last.backend.program.Modular spans ∧
      Written model name (fresh (Assembler.fresh program policy limit) options) function last := by
  obtain ⟨function, hfunctions, hwritten, -⟩ :=
    compile_ok_written hmodel (.fresh program policy limit) (le_refl _) h
  have hmem : function ∈ last.backend.program.functions := hfunctions ▸ List.mem_cons_self
  obtain ⟨spans, hsteady⟩ : ∃ spans,
      Steady (fresh (Assembler.fresh program policy limit) options) [(model, name)] spans :=
    exists_steady hlimit (List.forall_mem_singleton.mpr hmodel)
  have hmodular := hsteady.modular
  rw [reached, transcript_cons, transcript_nil, serve, Attempt.after, h] at hmodular
  exact ⟨function, spans, hfunctions, hwritten.named ▸ hmodular.function?_eq hmem, hmodular,
    hwritten⟩

/-- The ranges of a node that is no output name earlier ports. -/
lemma compile_ok_earlier (hmodel : model.Arranged)
    (h : compile model name (fresh (Assembler.fresh program policy limit) options) =
      .ok answer last) (hnode : model.nodes[i]? = some node) (hkind : node.kind ≠ .output) :
    ∀ range ∈ node.ranges, range.port.index < i := by
  intro range hrange
  obtain ⟨hlowers, -⟩ := (compile_fresh_iff hmodel ..).mp ⟨answer, last, h⟩
  obtain ⟨-, hbefore | ⟨houtput, -⟩⟩ := (hlowers node (Model.mem_nodes hnode)).reads range hrange
  · rwa [hmodel.numbered i node hnode] at hbefore
  · exact absurd houtput hkind

/-- **A call computes every node.**  Whatever functions have been called before, with success or
without, a call with inputs of the right lengths succeeds.  The ports before a node hold the rows
then that the row of its own port comes from, together with the row that this one had before the
call. -/
lemma calls_store (hmodel : model.Arranged) (hlimit : limit < Word.count)
    (h : compile model name (fresh (Assembler.fresh program policy limit) options) =
      .ok answer last) (hnode : model.nodes[i]? = some node) (hkind : node.kind ≠ .output)
    (hstart : ∀ previous row, node.start previous [] = some row → row = previous)
    (calls : List (String × List (List Float))) {rows : List (List Float)}
    (hrows : model.Accepts rows) :
    let before := (transcript Machine.serve (Machine.start last.backend.program) calls).2
    ∃ outputs machine own previous values, before.serve (name, rows) = (.ok outputs, machine) ∧
      last.variableOf? node.port.id = some own ∧ before.read? own = some previous ∧
      values.length = i ∧ Shows last.variableOf? values machine.memory ∧
      machine.read? own = some (node.row model.gathered values previous []) := by
  obtain ⟨function, spans, hfunctions, hfunction, hmodular, hwritten⟩ :=
    compile_ok_modular hmodel.toWellFormed hlimit h
  have hcompiled := hwritten.compiled (.fresh program policy limit) rfl hlimit
  have hsound := hmodular.sound function (hfunctions ▸ List.mem_cons_self)
  obtain ⟨memory, hmemory, hfits⟩ :=
    hmodular.transcript_fits (Program.initialMemory_fits _) calls
  obtain ⟨own, hown⟩ := hcompiled.placed (Model.mem_nodes hnode)
  have hhere : last.variableOf? ⟨i⟩ = some own := by rw [← hmodel.numbered.port_id hnode, hown]
  obtain ⟨var, hvar, -⟩ := hcompiled.variable_of hnode hhere
  obtain ⟨previous, hprevious, -⟩ := hfits.holds own var hvar
  obtain ⟨bound, hbind, hbound, hports⟩ := hcompiled.begin_ok hmodel.toWellFormed hrows hfits
  -- a running sum is neither stored by the caller nor reset
  have hwaiting : ∀ row, node.start previous [] = some row → bound.get? own = some row := by
    intro row hrow
    have hinput : node.kind ≠ .input := by
      intro hinput
      have hall := fun previous => hstart previous [] (by rw [Node.start, hinput]; rfl)
      exact absurd (hall [0]) (by simp)
    obtain ⟨var', -, hhome, hget⟩ := (hports i node own hnode hhere).2 hinput
    have hlasts : var'.isReset function = false := by
      rw [Variable.isReset, hhome.storage, Node.storage_of_start hinput hrow]
    rw [hget, hlasts, if_neg Bool.false_ne_true, hprevious, hstart previous row hrow]
  obtain ⟨values, after, hruns, hfits', hlength, hshows, hrow⟩ :=
    hcompiled.node_runs hmodel.toWellFormed hsound.safe hmodular.sized hnode
      (compile_ok_earlier hmodel h hnode hkind) hown hwaiting hbound
  obtain ⟨outputs, hcollect, -⟩ :=
    Program.collectOutputs_ok (fun _ hmem => hsound.output hmem) hfits'
  have hrun := Program.run_eq_ok.mpr ⟨bound, hbind, hruns, hcollect⟩
  have hbefore : (transcript Machine.serve (Machine.start last.backend.program) calls).2 =
      ⟨last.backend.program, memory⟩ := hmemory
  refine ⟨outputs, ⟨last.backend.program, after⟩, own, previous, values, ?_, hown, ?_, hlength,
    hshows, hrow⟩
  · rw [hbefore, Machine.serve, Machine.call]
    simp only [hfunction, hrun]
  · rw [hbefore]
    exact hprevious

/-- A node that computes something anew does not depend on the row that its port had. -/
lemma calls_compute (hmodel : model.Arranged) (hlimit : limit < Word.count)
    (h : compile model name (fresh (Assembler.fresh program policy limit) options) =
      .ok answer last) (hnode : model.nodes[i]? = some node) (hkind : node.kind ≠ .output)
    (hstart : ∀ previous supplied, node.start previous supplied = none)
    (calls : List (String × List (List Float))) {rows : List (List Float)}
    (hrows : model.Accepts rows) :
    ∃ outputs machine own values,
      (transcript Machine.serve (Machine.start last.backend.program) calls).2.serve (name, rows) =
        (.ok outputs, machine) ∧
      last.variableOf? node.port.id = some own ∧ values.length = i ∧
      Shows last.variableOf? values machine.memory ∧
      machine.read? own = some (node.row model.gathered values [] []) := by
  obtain ⟨outputs, machine, own, previous, values, hserve, hown, -, hlength, hshows, hrow⟩ :=
    calls_store hmodel hlimit h hnode hkind
      (fun previous row hrow => absurd (hrow.symm.trans (hstart previous [])) (by simp))
      calls hrows
  refine ⟨outputs, machine, own, values, hserve, hown, hlength, hshows, hrow.trans ?_⟩
  rw [Node.row_of_start_eq_none hstart]

/-- **A call reduces.**  The port of a node that reduces a range holds what the elements of the
range are folded into, from the operator's identity on.  It is just the largest of truth values that
is one in any case. -/
theorem calls_reduce (hmodel : model.Arranged) (hlimit : limit < Word.count)
    (h : compile model name (fresh (Assembler.fresh program policy limit) options) =
      .ok answer last) (hnode : model.nodes[i]? = some node) {op : ReduceOp}
    (hkind : node.kind = .reduce op) (hrange : node.operand 0 = [range])
    (calls : List (String × List (List Float))) {rows : List (List Float)}
    (hrows : model.Accepts rows) :
    ∃ outputs machine own source values,
      (transcript Machine.serve (Machine.start last.backend.program) calls).2.serve (name, rows) =
        (.ok outputs, machine) ∧
      last.variableOf? node.port.id = some own ∧ last.variableOf? range.port = some source ∧
      machine.read? source = some values ∧
      machine.read? own = some [if op = .max ∧ node.elementType = .bool then 1
        else node.elementType.coerce
          (((values.drop range.start).take range.length).foldl op.combine op.identity)] := by
  have houtput : node.kind ≠ .output := by
    rw [hkind]
    nofun
  have hread : range ∈ node.ranges := Node.mem_ranges (hrange ▸ List.mem_cons_self)
  obtain ⟨outputs, machine, own, values, hserve, hown, hlength, hshows, hrow⟩ :=
    calls_compute hmodel hlimit h hnode houtput
      (fun _ _ => by rw [Node.start, hkind]) calls hrows
  -- the row of the range's port
  obtain ⟨row, hvalues⟩ : ∃ row, values[range.port.index]? = some row :=
    ⟨_, List.getElem?_eq_getElem
      (hlength ▸ compile_ok_earlier hmodel h hnode houtput range hread)⟩
  obtain ⟨source, hsource⟩ : ∃ source, last.variableOf? range.port = some source := by
    obtain ⟨_, -, -, -, -, hwritten⟩ := compile_ok_modular hmodel.toWellFormed hlimit h
    obtain ⟨other, hother, -⟩ := hmodel.exists_port (Model.mem_nodes hnode) hread
    exact Option.isSome_iff_exists.mp ((hwritten.layout.bound _ other hother).mpr
      (.inl (Array.getElem?_eq_some_iff.mp hother).1))
  refine ⟨outputs, machine, own, source, row, hserve, hown, hsource,
    hshows _ row hvalues source hsource, hrow.trans ?_⟩
  have helements : range.elements values = (row.drop range.start).take range.length := by
    rw [PortRange.elements, hvalues, Option.getD_some]
  rw [← helements, ← ReduceOp.parted_singleton, Node.row, hkind, hrange]
  rfl

theorem calls_reduce_largestInteger :
    Model.largestInteger.Arranged ∧ 10 < Word.count ∧
      Model.largestInteger.Accepts [[1.5, 2.75, -3]] ∧ ∃ answer last,
        compile Model.largestInteger "f" (fresh (Assembler.fresh "m" .always 10) .standard) =
          .ok answer last ∧
        ∃ outputs machine own source values,
          (transcript Machine.serve (Machine.start last.backend.program)
            [("f", [[5, 6, 7]]), ("g", [])]).2.serve ("f", [[1.5, 2.75, -3]]) =
              (.ok outputs, machine) ∧
          last.variableOf? ⟨1⟩ = some own ∧ last.variableOf? ⟨0⟩ = some source ∧
          machine.read? source = some values ∧ machine.read? own = some [ElementType.int.coerce
            (((values.drop 0).take 3).foldl ReduceOp.max.combine ReduceOp.max.identity)] := by
  have hmodel : Model.largestInteger.Arranged := by decide +kernel
  have hlimit : 10 < Word.count := by decide
  have hrows : Model.largestInteger.Accepts [[1.5, 2.75, -3]] := by decide +kernel
  have hcompile : (compile Model.largestInteger "f").succeeds
      (fresh (Assembler.fresh "m" .always 10) .standard) (fun _ _ => true) = true := by
    decide +kernel
  obtain ⟨answer, last, h, -⟩ := Attempt.exists_of_succeeds hcompile
  exact ⟨hmodel, hlimit, hrows, answer, last, h,
    calls_reduce (i := 1) hmodel hlimit h rfl rfl rfl [("f", [[5, 6, 7]]), ("g", [])]
      hrows⟩

/-- The largest of two truth values is one, though both are zero. -/
theorem calls_reduce_anyTrue :
    ElementType.bool.coerce ([0, 0].foldl ReduceOp.max.combine ReduceOp.max.identity) = 0 ∧
    ∃ answer last, compile Model.anyTrue "f" (fresh (Assembler.fresh "m" .always 10) .standard) =
        .ok answer last ∧
      ((Machine.start last.backend.program).serve ("f", [[0, 0]])).1 = .ok [[1]] := by
  refine ⟨by decide +kernel, ?_⟩
  have hcompile : (compile Model.anyTrue "f").succeeds
      (fresh (Assembler.fresh "m" .always 10) .standard) (fun _ last =>
        decide (((Machine.start last.backend.program).serve ("f", [[0, 0]])).1 = .ok [[1]])) =
          true := by
    decide +kernel
  obtain ⟨answer, last, h, hanswer⟩ := Attempt.exists_of_succeeds hcompile
  exact ⟨answer, last, h, of_decide_eq_true hanswer⟩

end Compiler
end Dataflow
