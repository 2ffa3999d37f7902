import Dataflow.Proofs.Correctness.Calls
import Dataflow.Proofs.Transcript

/-!
# Compiled models compute what models say

A machine that starts with the program of a compiled model answers every call as the model responds
when it is evaluated node by node: with the rows of its outputs, where running sums go on from call
to call (`Compiler.calls_respond`).  Operands that are fed by several ranges have these gathered in
storage of the first one's element type.  Taking the elements as they are would be something else
(`Compiler.calls_mixedOperand`), which shows when a compiler is told not to compare element types.
-/

namespace Dataflow

variable {model : Model} {old : ℕ} {place : PortId → Option VarId} {function : Function}

/-- Before the first call every running sum is zero. -/
lemma Compiled.start_resting {program : Program}
    (h : Compiled model program.vars old place function) (hmodel : model.WellFormed) :
    Resting model program.vars place model.zeros program.initialMemory := by
  refine ⟨program.initialMemory_fits,
    fun i node hnode hglobal id hid supplied row hstart => ?_⟩
  obtain ⟨var, hvar, hhome⟩ := h.variable_of hnode hid
  rw [Program.get?_initialMemory hvar, Option.some.injEq]
  rw [Node.start] at hstart
  cases hkind : node.kind with
  | constant entries =>
    obtain ⟨hdata, hlength⟩ := hhome.data entries hkind
    rw [hkind] at hstart
    rw [Variable.initialContents_data hdata (hlength.trans hhome.size.symm),
      ← Option.some.inj hstart, hhome.elementType]
  | accumulator =>
    have hzeros :
        model.zeros[i]? = some (List.replicate node.size (node.elementType.coerce 0)) := by
      rw [Model.zeros, List.getElem?_map, Array.getElem?_toList, hnode, Option.map_some]
    rw [hkind, hmodel.numbered.port_id hnode, hzeros] at hstart
    rw [Variable.initialContents_zero (hhome.zero (.inl hkind)), ← Option.some.inj hstart,
      hhome.elementType, hhome.size, Option.getD_some]
  | input =>
    rw [hkind] at hglobal
    cases hglobal
  | _ =>
    rw [hkind] at hstart
    cases hstart

namespace Machine

/-- Calls one after another answer what the model responds. -/
lemma calls_ok {program : Program} {memory : Memory} {name : String}
    (h : Compiled model program.vars old place function)
    (hfunction : program.function? name = some function) (hmodel : model.WellFormed)
    (hback : model.Backward) {previous : Values}
    (hresting : Resting model program.vars place previous memory)
    {calls : List (List (List Float))} (hcalls : ∀ rows ∈ calls, model.Accepts rows) :
    (transcript (fun machine rows => call machine name rows) ⟨program, memory⟩ calls).1 =
      (transcript (model.respond model.gathered) previous calls).1.map .ok := by
  induction calls generalizing memory previous with
  | nil => rfl
  | cons rows rest ih =>
    obtain ⟨haccepts, hrest⟩ := List.forall_mem_cons.mp hcalls
    obtain ⟨memory', hrun, hresting'⟩ := h.run_ok hmodel hback haccepts hresting
    have hcall : call ⟨program, memory⟩ name rows =
        (.ok (model.respond model.gathered previous rows).1, ⟨program, memory'⟩) := by
      rw [call, hfunction]
      simp only [hrun]
    simp only [transcript_cons, hcall, List.map_cons]
    exact congrArg _ (ih hresting' hrest)

end Machine

/-- **Compiled models compute what models say.**  If a model whose ranges name earlier ports is
compiled on a fresh compiler, with any options, merge policy and limit, then every call of the
function in any sequence of calls succeeds and answers what the model responds. -/
theorem Compiler.calls_respond (hmodel : model.WellFormed) (hback : model.Backward)
    {name program : String} {policy : MergePolicy} {limit : ℕ} (hlimit : limit < Word.count)
    {options : Options} {function : CompiledFunction} {last : Compiler Assembler}
    (h : compile model name (fresh (Assembler.fresh program policy limit) options) =
      .ok function last)
    {calls : List (List (List Float))} (hcalls : ∀ rows ∈ calls, model.Accepts rows) :
    (transcript (fun machine rows => machine.call name rows)
        (Machine.start last.backend.program) calls).1 =
      (transcript (model.respond model.gathered) model.zeros calls).1.map .ok := by
  obtain ⟨_, hfunction, hcompiled⟩ := compile_ok_compiled hmodel hlimit h
  exact Machine.calls_ok hcompiled hfunction hmodel hback
    (hcompiled.start_resting hmodel) hcalls

/-- The sum of an input over all calls. -/
def Model.runningSum : Model :=
  ⟨"sum", #[⟨⟨0⟩, "x", .input, [], .real, 1⟩,
    ⟨⟨1⟩, "s", .accumulator, [⟨"input", ⟨[⟨⟨0⟩, 0, 1⟩]⟩⟩], .real, 1⟩,
    ⟨⟨2⟩, "y", .output, [⟨"input", ⟨[⟨⟨1⟩, 0, 1⟩]⟩⟩], .real, 1⟩]⟩

theorem Compiler.calls_respond_runningSum :
    Model.runningSum.WellFormed ∧ Model.runningSum.Backward ∧ 10 < Word.count ∧
      (∀ rows ∈ [[[1]], [[2]]], Model.runningSum.Accepts rows) ∧ ∃ function last,
        compile Model.runningSum "f" (fresh (Assembler.fresh "m" .always 10) .standard) =
          .ok function last ∧
        (transcript (fun machine rows => machine.call "f" rows)
            (Machine.start last.backend.program) [[[1]], [[2]]]).1 =
          (transcript (Model.runningSum.respond Model.runningSum.gathered) Model.runningSum.zeros
            [[[1]], [[2]]]).1.map .ok := by
  have hmodel : Model.runningSum.WellFormed := by decide +kernel
  have hback : Model.runningSum.Backward := by decide +kernel
  have hlimit : 10 < Word.count := by decide
  have hcalls : ∀ rows ∈ [[[1]], [[2]]], Model.runningSum.Accepts rows := by
    decide +kernel
  have hcompile : (compile Model.runningSum "f").succeeds
      (fresh (Assembler.fresh "m" .always 10) .standard) (fun _ _ => true) = true := by
    decide +kernel
  obtain ⟨function, last, h, -⟩ := Attempt.exists_of_succeeds hcompile
  exact ⟨hmodel, hback, hlimit, hcalls, function, last, h,
    calls_respond hmodel hback hlimit h hcalls⟩

/-! ## Operands of mixed types -/

/-- An integer and a real number, negated together. -/
def Model.mixedOperand : Model :=
  ⟨"mixed", #[⟨⟨0⟩, "a", .input, [], .int, 1⟩, ⟨⟨1⟩, "b", .input, [], .real, 1⟩,
    ⟨⟨2⟩, "n", .unary .neg, [⟨"input", ⟨[⟨⟨0⟩, 0, 1⟩, ⟨⟨1⟩, 0, 1⟩]⟩⟩], .real, 2⟩,
    ⟨⟨3⟩, "y", .output, [⟨"input", ⟨[⟨⟨2⟩, 0, 2⟩]⟩⟩], .real, 2⟩]⟩

/-- Gathering several ranges is not the same as taking their elements as they are: a compiler that
does not compare element types stores the real number as an integer. -/
theorem Compiler.calls_mixedOperand :
    Model.mixedOperand.WellFormed ∧ Model.mixedOperand.Backward ∧
      Model.mixedOperand.Accepts [[1], [0.5]] ∧ ∃ function last,
        compile Model.mixedOperand "f"
            (fresh (Assembler.fresh "m" .always 10) ⟨true, false, false⟩) = .ok function last ∧
        (transcript (fun machine rows => machine.call "f" rows)
            (Machine.start last.backend.program) [[[1], [0.5]]]).1 ≠
          (transcript (Model.mixedOperand.respond concatenated) Model.mixedOperand.zeros
            [[[1], [0.5]]]).1.map .ok := by
  refine ⟨by decide +kernel, by decide +kernel, by decide +kernel, ?_⟩
  have hcompile : (compile Model.mixedOperand "f").succeeds
      (fresh (Assembler.fresh "m" .always 10) ⟨true, false, false⟩) (fun _ last =>
        decide ((transcript (fun machine rows => machine.call "f" rows)
            (Machine.start last.backend.program) [[[1], [0.5]]]).1 ≠
          (transcript (Model.mixedOperand.respond concatenated) Model.mixedOperand.zeros
            [[[1], [0.5]]]).1.map .ok)) = true := by
    decide +kernel
  obtain ⟨function, last, h, hne⟩ := Attempt.exists_of_succeeds hcompile
  exact ⟨function, last, h, of_decide_eq_true hne⟩

end Dataflow
