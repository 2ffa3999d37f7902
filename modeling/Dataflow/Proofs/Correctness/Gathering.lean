import Dataflow.Proofs.Correctness
import Dataflow.Proofs.Correctness.Stores
import Dataflow.Proofs.Machine.Typed

/-!
# What gathering loses

An operand that is fed by several ranges is put together in storage of the first one's element type.
This loses nothing if that type holds all the elements already (`Model.Lossless`), as it does if all
ranges have it: what is stored in a port has the port's element type.  So a compiler that compares
element types gathers without a loss, and a compiler that does not coerces the elements of the other
ranges (`Compiler.calls_gather`).
-/

namespace Dataflow

/-- The kinds of nodes that need each of their operands in one piece. -/
def NodeKind.Gathers : NodeKind → Prop
  | .unary _ | .binary _ | .dot | .accumulator => True
  | .input | .output | .constant _ | .reduce _ | .concat => False

/-- The element type of the first range holds the elements of all ranges. -/
def Model.Lossless (model : Model) (values : Values) (ranges : List PortRange) : Prop :=
  (model.leadingType ranges).Holds (concatenated values ranges)

/-- Two integers, added to what they have come to so far. -/
def Model.runningPair : Model :=
  ⟨"sums", #[⟨⟨0⟩, "a", .input, [], .int, 1⟩, ⟨⟨1⟩, "b", .input, [], .int, 1⟩,
    ⟨⟨2⟩, "s", .accumulator, [⟨"input", ⟨[⟨⟨0⟩, 0, 1⟩, ⟨⟨1⟩, 0, 1⟩]⟩⟩], .int, 2⟩,
    ⟨⟨3⟩, "y", .output, [⟨"input", ⟨[⟨⟨2⟩, 0, 2⟩]⟩⟩], .int, 2⟩]⟩

variable {model : Model} {node : Node} {values : Values} {ranges : List PortRange} {i : ℕ}

lemma Model.Lossless.gathered_eq (h : model.Lossless values ranges) :
    model.gathered values ranges = concatenated values ranges := by
  by_cases hlength : ranges.length = 1
  · obtain ⟨range, rfl⟩ := List.length_eq_one_iff.mp hlength
    rw [gathered_singleton, concatenated, List.flatMap_singleton]
  · rw [model.gathered_of_length_ne values hlength, h.map_coerce]

lemma NodeKind.Gathers.ne_output {kind : NodeKind} (h : kind.Gathers) : kind ≠ .output := by
  rintro rfl
  exact h

/-- A node that gathers starts from the row of the call before, if from any. -/
lemma NodeKind.Gathers.start_eq (h : node.kind.Gathers) {previous row : List Float}
    (hrow : node.start previous [] = some row) : row = previous := by
  rw [Node.start] at hrow
  cases hkind : node.kind with
  | accumulator =>
    rw [hkind] at hrow
    exact (Option.some.inj hrow).symm
  | input | constant =>
    rw [hkind] at h
    exact h.elim
  | unary | binary | dot | reduce | concat | output =>
    rw [hkind] at hrow
    cases hrow

/-- The row of a node depends on its operands as they are gathered. -/
lemma Node.row_congr {gathering gathering' : Gathering}
    (h : ∀ index, gathering values (node.operand index) = gathering' values (node.operand index))
    (previous supplied : List Float) :
    node.row gathering values previous supplied = node.row gathering' values previous supplied := by
  simp only [row, h]

/-- The ranges of each operand have one element type if the types of the node fit. -/
lemma Model.TypesFit.operand (h : model.TypesFit node) (index : ℕ) :
    model.OneType (node.operand index) := by
  rw [Node.operand]
  cases hinput : node.inputs[index]? with
  | none => exact fun _ hrange => absurd hrange List.not_mem_nil
  | some input => exact h.1 input (List.mem_of_getElem? hinput)

/-- Ranges of one element type are gathered without a loss if each port holds values of its type. -/
lemma Model.OneType.lossless (h : model.OneType ranges)
    (hholds : ∀ range ∈ ranges, ∃ elementType, model.typeOf? range = some elementType ∧
      elementType.Holds (range.elements values)) : model.Lossless values ranges := by
  intro value hvalue
  obtain ⟨range, hrange, helement⟩ := List.mem_flatMap.mp hvalue
  obtain ⟨elementType, htype, hheld⟩ := hholds range hrange
  obtain ⟨first, rest, rfl⟩ := List.exists_cons_of_ne_nil (List.ne_nil_of_mem hrange)
  have hleading : model.leadingType (first :: rest) = elementType := by
    have hfirst : model.typeOf? first = some elementType :=
      (h first List.mem_cons_self range hrange).trans htype
    rw [leadingType, List.head?_cons, Option.bind_some]
    exact congrArg (Option.getD · _) hfirst
  rw [hleading]
  exact hheld value helement

/-- If all variables hold values of their types, so do the ports that a node reads. -/
lemma Compiled.source_holds {vars : VariableTable} {old : ℕ} {place : PortId → Option VarId}
    {function : Function} {memory : Memory} (h : Compiled model vars old place function)
    (hmodel : model.Arranged) (htyped : memory.Typed vars) (hshows : Shows place values memory)
    (hnode : node ∈ model.nodes.toList) {range : PortRange} (hrange : range ∈ node.ranges)
    (hearlier : range.port.index < values.length) :
    ∃ source row port, place range.port = some source ∧ memory.get? source = some row ∧
      values[range.port.index]? = some row ∧ model.port? range.port = some port ∧
      port.elementType.Holds row := by
  obtain ⟨row, hvalues⟩ : ∃ row, values[range.port.index]? = some row :=
    ⟨_, List.getElem?_eq_getElem hearlier⟩
  obtain ⟨other, hother, hport⟩ := hmodel.exists_port hnode hrange
  obtain ⟨source, hsource⟩ := h.placed (Model.mem_nodes hother)
  have hhere : place range.port = some source := by
    rw [hmodel.numbered.port_id hother] at hsource
    exact hsource
  have hread := hshows _ row hvalues source hhere
  obtain ⟨var, hvar, hhome⟩ := h.variable_of hother hhere
  have hholds := htyped source var row hvar hread
  rw [hhome.elementType] at hholds
  exact ⟨source, row, other.port, hhere, hread, hvalues, hport, hholds⟩

namespace Compiler

variable {program name : String} {policy : MergePolicy} {limit : ℕ} {options : Options}
variable {answer : CompiledFunction} {last : Compiler Assembler}

/-- **Gathering coerces to the element type of the first range.**  Whatever functions have been
called before, a call with inputs of the right lengths succeeds, and the port of a node that needs
its operands in one piece holds what comes of the elements that the ranges hold then, coerced so.
Nothing is lost of an operand if the elements are of that type, which they are if all ranges of the
operand have the same type, and if the compiler compares element types. -/
theorem calls_gather (hmodel : model.Arranged) (hlimit : limit < Word.count)
    (h : compile model name (fresh (Assembler.fresh program policy limit) options) =
      .ok answer last) (hnode : model.nodes[i]? = some node) (hkind : node.kind.Gathers)
    (calls : List (String × List (List Float))) {rows : List (List Float)}
    (hrows : model.Accepts rows) :
    let before := (transcript Machine.serve (Machine.start last.backend.program) calls).2
    ∃ outputs machine own previous values, before.serve (name, rows) = (.ok outputs, machine) ∧
      last.variableOf? node.port.id = some own ∧ before.read? own = some previous ∧
      (∀ range ∈ node.ranges, ∃ source row, last.variableOf? range.port = some source ∧
        machine.read? source = some row ∧ values[range.port.index]? = some row) ∧
      machine.read? own = some (node.row model.gathered values previous []) ∧
      ((∀ index, model.Lossless values (node.operand index)) →
        machine.read? own = some (node.row concatenated values previous [])) ∧
      ∀ index, options.checkElementTypes = true ∨ model.OneType (node.operand index) →
        model.Lossless values (node.operand index) := by
  have houtput := hkind.ne_output
  obtain ⟨outputs, machine, own, previous, values, hserve, hown, hprevious, hlength, hshows,
      hrow⟩ :=
    calls_store hmodel hlimit h hnode houtput (fun _ _ => hkind.start_eq) calls hrows
  obtain ⟨function, spans, -, -, hmodular, hwritten⟩ :=
    compile_ok_modular hmodel.toWellFormed hlimit h
  have hcompiled := hwritten.compiled (.fresh program policy limit) rfl hlimit
  -- all values in the memory are typed
  have htyped : machine.memory.Typed last.backend.program.vars := by
    obtain ⟨memory, hbefore, hmemory⟩ := hmodular.keeps_typed.transcript calls
    obtain ⟨_, after, hserve', hafter⟩ := hmodular.keeps_typed.serve hmemory (name, rows)
    rw [hbefore, hserve'] at hserve
    obtain ⟨-, rfl⟩ := Prod.mk.inj hserve
    exact hafter
  have hsources := fun range hrange =>
    hcompiled.source_holds hmodel htyped hshows (Model.mem_nodes hnode) hrange
      (hlength ▸ compile_ok_earlier hmodel h hnode houtput range hrange)
  refine ⟨outputs, machine, own, previous, values, hserve, hown, hprevious,
    fun range hrange => ?_, hrow, fun hlossless => ?_, fun index htypes => ?_⟩
  · obtain ⟨source, row, -, hsource, hread, hvalues, -⟩ := hsources range hrange
    exact ⟨source, row, hsource, hread, hvalues⟩
  · rw [hrow, Node.row_congr fun index => (hlossless index).gathered_eq]
  · have hone : model.OneType (node.operand index) := by
      rcases htypes with hchecked | hone
      · obtain ⟨hlowers, -⟩ := (compile_fresh_iff hmodel ..).mp ⟨answer, last, h⟩
        have htypes : model.TypesFit node := (hlowers node (Model.mem_nodes hnode)).types hchecked
        exact htypes.operand index
      · exact hone
    refine hone.lossless fun range hrange => ?_
    obtain ⟨_, row, other, -, -, hvalues, hport, hholds⟩ := hsources range (Node.mem_ranges hrange)
    refine ⟨other.elementType, by rw [Model.typeOf?, hport, Option.map_some], ?_⟩
    rw [PortRange.elements, hvalues, Option.getD_some]
    exact hholds.mono fun value hvalue => List.mem_of_mem_drop (List.mem_of_mem_take hvalue)

theorem calls_gather_runningPair :
    Model.runningPair.Arranged ∧ 10 < Word.count ∧
      NodeKind.accumulator.Gathers ∧ Model.runningPair.Accepts [[3], [4]] ∧ ∃ answer last,
        compile Model.runningPair "f" (fresh (Assembler.fresh "m" .always 10) .standard) =
          .ok answer last ∧
        let before := (transcript Machine.serve (Machine.start last.backend.program)
          [("f", [[1], [2]]), ("f", []), ("g", [])]).2
        ∃ outputs machine own previous values,
          before.serve ("f", [[3], [4]]) = (.ok outputs, machine) ∧
          last.variableOf? ⟨2⟩ = some own ∧ before.read? own = some previous ∧
          machine.read? own = some (List.zipWith (· + ·) previous
            (concatenated values [⟨⟨0⟩, 0, 1⟩, ⟨⟨1⟩, 0, 1⟩]) |>.map ElementType.int.coerce) := by
  have hmodel : Model.runningPair.Arranged := by decide +kernel
  have hlimit : 10 < Word.count := by decide
  have hrows : Model.runningPair.Accepts [[3], [4]] := by decide +kernel
  have hcompile : (compile Model.runningPair "f").succeeds
      (fresh (Assembler.fresh "m" .always 10) .standard) (fun _ _ => true) = true := by
    decide +kernel
  obtain ⟨answer, last, h, -⟩ := Attempt.exists_of_succeeds hcompile
  obtain ⟨outputs, machine, own, previous, values, hserve, hown, hprevious, -, -, hgather,
      htypes⟩ :=
    calls_gather (i := 2) hmodel hlimit h rfl trivial
      [("f", [[1], [2]]), ("f", []), ("g", [])] hrows
  exact ⟨hmodel, hlimit, trivial, hrows, answer, last, h, outputs, machine, own, previous,
    values, hserve, hown, hprevious, hgather fun index => htypes index (.inl rfl)⟩

/-- An integer and a real number that are negated together are gathered as integers, if element
types are not compared: the port of the node does not hold what comes of the values of its two
ranges. -/
theorem calls_gather_truncated :
    ∃ answer last machine, compile Model.mixedOperand "f"
        (fresh (Assembler.fresh "m" .always 10) ⟨true, false, false⟩) = .ok answer last ∧
      (Machine.start last.backend.program).serve ("f", [[1], [0.5]]) =
        (.ok [[-1, -0.0]], machine) ∧
      (last.variableOf? ⟨0⟩).bind machine.read? = some [1] ∧
      (last.variableOf? ⟨1⟩).bind machine.read? = some [0.5] ∧
      (last.variableOf? ⟨2⟩).bind machine.read? ≠
        some ((concatenated [[1], [0.5]] [⟨⟨0⟩, 0, 1⟩, ⟨⟨1⟩, 0, 1⟩]).map
          fun value => ElementType.real.coerce (UnaryOp.neg.apply value)) := by
  have hcompile : (compile Model.mixedOperand "f").succeeds
      (fresh (Assembler.fresh "m" .always 10) ⟨true, false, false⟩) (fun _ last =>
        let served := (Machine.start last.backend.program).serve ("f", [[1], [0.5]])
        decide (served.1 = .ok [[-1, -0.0]] ∧
          (last.variableOf? ⟨0⟩).bind served.2.read? = some [1] ∧
          (last.variableOf? ⟨1⟩).bind served.2.read? = some [0.5] ∧
          (last.variableOf? ⟨2⟩).bind served.2.read? ≠
            some ((concatenated [[1], [0.5]] [⟨⟨0⟩, 0, 1⟩, ⟨⟨1⟩, 0, 1⟩]).map
              fun value => ElementType.real.coerce (UnaryOp.neg.apply value)))) = true := by
    decide +kernel
  obtain ⟨answer, last, h, htest⟩ := Attempt.exists_of_succeeds hcompile
  obtain ⟨hanswer, hreads⟩ := of_decide_eq_true htest
  exact ⟨answer, last, _, h, Prod.ext hanswer rfl, hreads⟩

end Compiler
end Dataflow
