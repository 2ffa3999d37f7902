import Dataflow.Proofs.Correctness.Paired

/-!
# Ranges in parts

A reduction may read a range in parts, one after another (`PortRange.cut`).  The model is compiled
all the same, and the port of the node holds the same total, as far as it does not matter that each
part's total is stored (`Compiler.calls_cut`): a total that is stored between two parts is coerced
to the element type of the port.
-/

namespace Dataflow

/-- Ranges of a port of given lengths, one after another. -/
def PortRange.consecutive (port : PortId) (start : ℕ) : List ℕ → List PortRange
  | [] => []
  | length :: rest => ⟨port, start, length⟩ :: consecutive port (start + length) rest

/-- The parts of a range, which have given lengths. -/
def PortRange.cut (range : PortRange) (lengths : List ℕ) : List PortRange :=
  consecutive range.port range.start lengths

namespace PortRange

variable {port : PortId} {range part : PortRange} {lengths : List ℕ}

lemma of_mem_consecutive {start : ℕ} (h : part ∈ consecutive port start lengths) :
    part.port = port ∧ part.length ∈ lengths ∧ start ≤ part.start ∧
      part.start + part.length ≤ start + lengths.sum := by
  induction lengths generalizing start with
  | nil => exact absurd h List.not_mem_nil
  | cons length rest ih =>
    rw [List.sum_cons]
    rcases List.mem_cons.mp h with rfl | hmem
    · exact ⟨rfl, List.mem_cons_self, le_refl start, by simp only; omega⟩
    · obtain ⟨hport, hlength, hstart, hstop⟩ := ih hmem
      exact ⟨hport, List.mem_cons_of_mem _ hlength, by omega, by omega⟩

/-- The parts have the elements of the whole. -/
lemma flatten_consecutive (values : Values) (port : PortId) (start : ℕ) (lengths : List ℕ) :
    ((consecutive port start lengths).map (elements values)).flatten =
      elements values ⟨port, start, lengths.sum⟩ := by
  induction lengths generalizing start with
  | nil => simp [consecutive, elements]
  | cons length rest ih =>
    rw [consecutive, List.map_cons, List.flatten_cons, ih, List.sum_cons]
    simp only [elements]
    rw [List.take_add, List.drop_drop]

variable (hlengths : ∀ length ∈ lengths, length ≠ 0) (hsum : lengths.sum = range.length)

include hsum

lemma flatten_cut (values : Values) :
    ((range.cut lengths).map (elements values)).flatten = range.elements values := by
  rw [cut, flatten_consecutive, hsum]

lemma length_le_of_mem_cut (hpart : part ∈ range.cut lengths) : part.length ≤ range.length := by
  obtain ⟨-, -, hstart, hstop⟩ := of_mem_consecutive hpart
  omega

lemma stop_le_of_mem_cut (hpart : part ∈ range.cut lengths) :
    part.start + part.length ≤ range.start + range.length :=
  hsum ▸ (of_mem_consecutive hpart).2.2.2

lemma cut_ne_nil (hrange : range.length ≠ 0) : range.cut lengths ≠ [] := by
  cases lengths with
  | nil => exact absurd hsum.symm hrange
  | cons length rest => exact List.cons_ne_nil _ _

include hlengths

/-- A part of a range that lies inside its port does so as well. -/
lemma offers_of_mem_cut {model : Model} (h : model.Offers range)
    (hpart : part ∈ range.cut lengths) : model.Offers part := by
  obtain ⟨port, hport, -, hstop⟩ := h
  obtain ⟨hsame, hlength, -⟩ := of_mem_consecutive hpart
  refine ⟨port, hsame ▸ hport, hlengths _ hlength, le_trans ?_ hstop⟩
  exact min_le_min_right Word.top (stop_le_of_mem_cut hsum hpart)

end PortRange

/-! ## Reductions of parts -/

lemma Node.row_reduce {gathering : Gathering} {values : Values} {previous supplied : List Float}
    {node : Node} {op : ReduceOp} (hkind : node.kind = .reduce op) :
    node.row gathering values previous supplied =
      [op.parted node.elementType ((node.operand 0).map (PortRange.elements values))] := by
  rw [Node.row, hkind, ReduceOp.parted, List.foldl_map]

lemma Node.ranges_reading (node : Node) (ranges : List PortRange) :
    (node.reading ranges).ranges = ranges := List.append_nil ranges

section

variable {model : Model} {i : ℕ} {node : Node} {op : ReduceOp} {range : PortRange}
variable {lengths : List ℕ} {strict : Bool}
variable (hnode : model.nodes[i]? = some node) (hkind : node.kind = .reduce op)
variable (hrange : node.operand 0 = [range]) (hsum : lengths.sum = range.length)

include hnode hkind hrange hsum

lemma Model.arranged_cut (hmodel : model.Arranged) :
    (model.reading i (range.cut lengths)).Arranged := by
  have hread : range ∈ node.ranges := Node.mem_ranges (hrange ▸ List.mem_cons_self)
  have hmem := mem_nodes hnode
  refine (model.rewired_reading i _).arranged hmodel (getElem?_reading hnode) ?_
    fun part hpart => ?_
  · show ["input"] = node.kind.inputNames
    rw [hkind]
    rfl
  · rw [Node.ranges_reading] at hpart
    obtain ⟨hport, -⟩ := PortRange.of_mem_consecutive hpart
    rw [hport]
    have hle := PortRange.length_le_of_mem_cut hsum hpart
    exact ⟨hle.trans_lt (hmodel.words node hmem range hread), hmodel.ported node hmem range hread⟩

omit hrange hsum in
/-- Reductions do not gather. -/
lemma Model.demand_reading (ranges : List PortRange) :
    (model.reading i ranges).demand = model.demand := by
  refine (model.rewired_reading i ranges).demand_eq hnode (getElem?_reading hnode) ?_
  rw [Node.gathered, Node.gathered, hkind, show (node.reading ranges).kind = _ from hkind]

variable (hlengths : ∀ length ∈ lengths, length ≠ 0)

include hlengths

/-- The compiler asks of the parts what it asks of the whole. -/
lemma Model.lowers_cut (hmodel : model.Arranged)
    (hlowers : ∀ node ∈ model.nodes.toList, model.Lowers strict node) :
    ∀ node' ∈ (model.reading i (range.cut lengths)).nodes.toList,
      (model.reading i (range.cut lengths)).Lowers strict node' := by
  have hrewired := model.rewired_reading i (range.cut lengths)
  have hnode' : (model.reading i (range.cut lengths)).nodes[i]? = some (node.reading _) :=
    getElem?_reading hnode
  refine hrewired.forall_nodes (fun node hmem => hrewired.lowers (hlowers node hmem)) hnode' ?_
  have hnames : node.kind.inputNames = ["input"] := by
    rw [hkind]
    rfl
  obtain ⟨⟨-, hread⟩, hwords, hshape, -⟩ := (lowers_iff_single
    (hmodel.arranged node (mem_nodes hnode)) hnames).mp (hlowers node (mem_nodes hnode))
  obtain ⟨hoffers, hmay⟩ := hread range (hrange ▸ List.mem_cons_self)
  have harranged := (arranged_cut hnode hkind hrange hsum hmodel).arranged _ (mem_nodes hnode')
  refine (lowers_iff_single harranged hnames).mpr ⟨⟨?_, fun part hpart => ?_⟩,
    fun part hpart => ?_, ?_, fun _ => ?_⟩
  · exact PortRange.cut_ne_nil hsum hoffers.length_ne_zero
  · obtain ⟨hport, -⟩ := PortRange.of_mem_consecutive hpart
    refine ⟨hrewired.offers_iff.mpr (PortRange.offers_of_mem_cut hlengths hsum hoffers hpart), ?_⟩
    rw [hport]
    exact hmay
  · exact (PortRange.stop_le_of_mem_cut hsum hpart).trans
      (hwords range (hrange ▸ List.mem_cons_self))
  · rw [Node.Shaped, hkind] at hshape
    show (node.reading _).Shaped
    rw [Node.Shaped, show (node.reading (range.cut lengths)).kind = _ from hkind]
    exact hshape
  · intro part hpart other hother
    rw [typeOf?, typeOf?, (PortRange.of_mem_consecutive hpart).1,
      (PortRange.of_mem_consecutive hother).1]

end

/-- The sum of two numbers, as an integer. -/
def Model.integerSum : Model :=
  ⟨"sum", #[⟨⟨0⟩, "x", .input, [], .real, 2⟩,
    ⟨⟨1⟩, "s", .reduce .sum, [⟨"input", ⟨[⟨⟨0⟩, 0, 2⟩]⟩⟩], .int, 1⟩,
    ⟨⟨2⟩, "y", .output, [⟨"input", ⟨[⟨⟨1⟩, 0, 1⟩]⟩⟩], .int, 1⟩]⟩

namespace Compiler

variable {model : Model} {program name : String} {policy : MergePolicy} {limit : ℕ}
variable {options : Options} {answer : CompiledFunction} {last : Compiler Assembler} {i : ℕ}
variable {node : Node} {range : PortRange}

lemma compile_ok_deployed (hmodel : model.Arranged) (hlimit : limit < Word.count)
    (h : compile model name (fresh (Assembler.fresh program policy limit) options) =
      .ok answer last) :
    ∃ function, Deployed model last.backend.program name last.variableOf? function ∧
      answer = ⟨name, model.roster.map (fun entry => parameterOf entry.1 entry.2),
        model.nodes.size⟩ := by
  obtain ⟨function, hfunctions, hwritten, hanswer⟩ :=
    compile_ok_written hmodel.toWellFormed (.fresh program policy limit) (le_refl _) h
  obtain ⟨other, spans, hothers, hfound, hmodular, -⟩ :=
    compile_ok_modular hmodel.toWellFormed hlimit h
  obtain ⟨hlowers, -⟩ := (compile_fresh_iff hmodel ..).mp ⟨answer, last, h⟩
  obtain rfl : other = function := by
    have hsame : [other] = [function] := hothers.symm.trans hfunctions
    exact (List.cons.inj hsame).1
  refine ⟨other, ⟨hmodel.toWellFormed,
    fun node hnode range hrange => ((hlowers node hnode).reads range hrange).2,
    hwritten.compiled (.fresh program policy limit) rfl hlimit, hmodular.toRegular,
    ⟨_, _, hmodular.sound other (hothers ▸ List.mem_cons_self)⟩, hwritten.named, fun called => ?_⟩,
    by rw [hanswer, hwritten.parameters]⟩
  rw [Program.function?, hothers, List.find?_singleton, hwritten.named]
  by_cases hcalled : called = name
  · simp [hcalled]
  · simp [hcalled, Ne.symm hcalled]

/-- The model in which a node reads a range in parts is compiled just as well. -/
lemma compile_cut (hmodel : model.Arranged) (hlimit : limit < Word.count)
    (h : compile model name (fresh (Assembler.fresh program policy limit) options) =
      .ok answer last) (hnode : model.nodes[i]? = some node) {op : ReduceOp}
    (hkind : node.kind = .reduce op) (hrange : node.operand 0 = [range]) {lengths : List ℕ}
    (hlengths : ∀ length ∈ lengths, length ≠ 0) (hsum : lengths.sum = range.length) :
    ∃ last', compile (model.reading i (range.cut lengths)) name
      (fresh (Assembler.fresh program policy limit) options) = .ok answer last' := by
  have hrewired := model.rewired_reading i (range.cut lengths)
  have hmodel' := Model.arranged_cut hnode hkind hrange hsum hmodel
  obtain ⟨hlowers, hdemand⟩ := (compile_fresh_iff hmodel ..).mp ⟨answer, last, h⟩
  obtain ⟨answer', last', h'⟩ := (compile_fresh_iff hmodel' program name policy limit options).mpr
    ⟨Model.lowers_cut hnode hkind hrange hsum hlengths hmodel hlowers,
      (Model.demand_reading hnode hkind _).trans_le hdemand⟩
  obtain ⟨_, -, hanswer⟩ := compile_ok_deployed hmodel hlimit h
  obtain ⟨_, -, hanswer'⟩ := compile_ok_deployed hmodel' hlimit h'
  obtain rfl : answer' = answer := by
    rw [hanswer, hanswer', hrewired.roster_eq, hrewired.size_eq]
  exact ⟨last', h'⟩

/-- **Reducing a range in parts.**  If a node of a model reduces a range, then the model in which
the node reads the range in parts is compiled just as well.  Whatever is called before, a call with
inputs of the right lengths leaves the same rows in the ports before the node, and the totals in the
port of the node agree as far as that can be.  If it does not matter for the operator and the type
which totals are stored on the way, then all calls have the same answers. -/
theorem calls_cut (hmodel : model.Arranged) (hlimit : limit < Word.count)
    (h : compile model name (fresh (Assembler.fresh program policy limit) options) =
      .ok answer last) (hnode : model.nodes[i]? = some node) {op : ReduceOp}
    (hkind : node.kind = .reduce op) (hrange : node.operand 0 = [range]) {lengths : List ℕ}
    (hlengths : ∀ length ∈ lengths, length ≠ 0) (hsum : lengths.sum = range.length) :
    ∃ last', compile (model.reading i (range.cut lengths)) name
        (fresh (Assembler.fresh program policy limit) options) = .ok answer last' ∧
      (op.Seamless node.elementType → ∀ calls : List (String × List (List Float)),
        (transcript Machine.serve (Machine.start last.backend.program) calls).1 =
          (transcript Machine.serve (Machine.start last'.backend.program) calls).1) ∧
      ∀ (calls : List (String × List (List Float))) (rows : List (List Float)), model.Accepts rows →
        ∃ outputs outputs' machine machine' own own' values total total',
          (transcript Machine.serve (Machine.start last.backend.program) calls).2.serve
              (name, rows) = (.ok outputs, machine) ∧
          (transcript Machine.serve (Machine.start last'.backend.program) calls).2.serve
              (name, rows) = (.ok outputs', machine') ∧
          last.variableOf? node.port.id = some own ∧
          last'.variableOf? node.port.id = some own' ∧
          values.length = i ∧ Shows last.variableOf? values machine.memory ∧
          Shows last'.variableOf? values machine'.memory ∧
          machine.read? own = some [total] ∧ machine'.read? own' = some [total'] ∧
          op.Agree node.elementType ((range.cut lengths).map (PortRange.elements values)) total
            total' := by
  have hrewired := model.rewired_reading i (range.cut lengths)
  have hmodel' := Model.arranged_cut hnode hkind hrange hsum hmodel
  have hnode' : (model.reading i (range.cut lengths)).nodes[i]? = some (node.reading _) :=
    Model.getElem?_reading hnode
  have hkind' : (node.reading (range.cut lengths)).kind = .reduce op := hkind
  have hfresh {node : Node} (hkind : node.kind = .reduce op) (previous supplied : List Float) :
      node.start previous supplied = none := by rw [Node.start, hkind]
  have houtput {node : Node} (hkind : node.kind = .reduce op) : node.kind ≠ .output := by
    simp [hkind]
  have hwhole (values : Values) : node.row model.gathered values [] [] =
      [op.parted node.elementType [range.elements values]] := by
    rw [Node.row_reduce hkind, hrange, List.map_singleton]
  have hparts (values : Values) : (node.reading (range.cut lengths)).row
      (model.reading i (range.cut lengths)).gathered values [] [] =
        [op.parted node.elementType ((range.cut lengths).map (PortRange.elements values))] :=
    Node.row_reduce hkind'
  obtain ⟨last', h'⟩ := compile_cut hmodel hlimit h hnode hkind hrange hlengths hsum
  obtain ⟨function, d, -⟩ := compile_ok_deployed hmodel hlimit h
  obtain ⟨function', d', -⟩ := compile_ok_deployed hmodel' hlimit h'
  have hcomputes : model.Computes i node :=
    ⟨hnode, hfresh hkind, compile_ok_earlier hmodel h hnode (houtput hkind)⟩
  have hcomputes' : (model.reading i (range.cut lengths)).Computes i (node.reading _) :=
    ⟨hnode', hfresh hkind', compile_ok_earlier hmodel' h' hnode' (houtput hkind')⟩
  refine ⟨last', h', fun hseamless calls => ?_, fun calls rows haccepts => ?_⟩
  · refine Paired.answers_eq d d' hrewired hcomputes hcomputes' (fun _ values => ?_) (le_refl _)
      calls
    rw [hwhole, hparts, hseamless.parted_eq, PortRange.flatten_cut hsum]
  · have haccepts' := hrewired.accepts_iff.mpr haccepts
    obtain ⟨outputs, machine, own, values, hserve, hown, hlength, hshows, hread⟩ :=
      calls_compute hmodel hlimit h hnode (houtput hkind) (hfresh hkind) calls haccepts
    obtain ⟨outputs', machine', own', values', hserve', hown', hlength', hshows', hread'⟩ :=
      calls_compute hmodel' hlimit h' hnode' (houtput hkind') (hfresh hkind') calls
        haccepts'
    obtain rfl : values' = values := Paired.values_eq d d' hrewired hcomputes hcomputes' calls
      haccepts hserve hserve' hshows hshows' hlength hlength'
    rw [hwhole] at hread
    rw [hparts] at hread'
    refine ⟨outputs, outputs', machine, machine', own, own', values', _, _, hserve, hserve', hown,
      hown', hlength, hshows, hshows', hread, hread', ?_⟩
    rw [← PortRange.flatten_cut hsum]
    exact op.agree_parted _ _

theorem calls_cut_largestInteger :
    Model.largestInteger.Arranged ∧ 10 < Word.count ∧
      (∀ length ∈ [1, 2], length ≠ 0) ∧ [1, 2].sum = 3 ∧ ∃ answer last last',
        compile Model.largestInteger "f" (fresh (Assembler.fresh "m" .always 10) .standard) =
          .ok answer last ∧
        compile (Model.largestInteger.reading 1 [⟨⟨0⟩, 0, 1⟩, ⟨⟨0⟩, 1, 2⟩]) "f"
          (fresh (Assembler.fresh "m" .always 10) .standard) = .ok answer last' ∧
        ∀ calls : List (String × List (List Float)),
          (transcript Machine.serve (Machine.start last.backend.program) calls).1 =
            (transcript Machine.serve (Machine.start last'.backend.program) calls).1 := by
  have hmodel : Model.largestInteger.Arranged := by decide +kernel
  have hlimit : 10 < Word.count := by decide
  have hlengths : ∀ length ∈ [1, 2], length ≠ 0 := by decide
  have hcompile : (compile Model.largestInteger "f").succeeds
      (fresh (Assembler.fresh "m" .always 10) .standard) (fun _ _ => true) = true := by
    decide +kernel
  obtain ⟨answer, last, h, -⟩ := Attempt.exists_of_succeeds hcompile
  obtain ⟨last', h', hanswers, -⟩ := calls_cut (i := 1) hmodel hlimit h rfl rfl rfl
    hlengths rfl
  exact ⟨hmodel, hlimit, hlengths, rfl, answer, last, last', h, h',
    hanswers (by decide)⟩

/-- As an integer, two halves are one, but a half and a half are zero. -/
theorem calls_cut_integerSum :
    ∃ answer last answer' last',
      compile Model.integerSum "f" (fresh (Assembler.fresh "m" .always 10) .standard) =
        .ok answer last ∧
      compile (Model.integerSum.reading 1 ((⟨⟨0⟩, 0, 2⟩ : PortRange).cut [1, 1])) "f"
        (fresh (Assembler.fresh "m" .always 10) .standard) = .ok answer' last' ∧
      ((Machine.start last.backend.program).serve ("f", [[0.5, 0.5]])).1 = .ok [[1]] ∧
      ((Machine.start last'.backend.program).serve ("f", [[0.5, 0.5]])).1 = .ok [[0]] := by
  have hwhole : (compile Model.integerSum "f").succeeds
      (fresh (Assembler.fresh "m" .always 10) .standard) (fun _ last => decide
        (((Machine.start last.backend.program).serve ("f", [[0.5, 0.5]])).1 = .ok [[1]])) =
          true := by
    decide +kernel
  have hparts : (compile (Model.integerSum.reading 1
        ((⟨⟨0⟩, 0, 2⟩ : PortRange).cut [1, 1])) "f").succeeds
      (fresh (Assembler.fresh "m" .always 10) .standard) (fun _ last => decide
        (((Machine.start last.backend.program).serve ("f", [[0.5, 0.5]])).1 = .ok [[0]])) =
          true := by
    decide +kernel
  obtain ⟨answer, last, h, hone⟩ := Attempt.exists_of_succeeds hwhole
  obtain ⟨answer', last', h', hzero⟩ := Attempt.exists_of_succeeds hparts
  exact ⟨answer, last, answer', last', h, h', of_decide_eq_true hone, of_decide_eq_true hzero⟩

end Compiler

end Dataflow
