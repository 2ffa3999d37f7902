import Dataflow.Proofs.Backend.Alike

/-!
# Merging regions does not show

Whether regions are merged is up to the policy of the assembler, to an option of the compiler and to
whoever stands between the two.  None of this can be seen from outside: a compilation ends in the
same way, successfully or not, and leaves the same variables, functions, storage and counts, those
of merges apart (`Conduct.observe_eq`).

The reason is `compile_related`: each way to conduct a compilation goes in step with the compilation
in which nothing about merges was changed.
-/

namespace Dataflow

open Attempt

/-- The counts without those of merges. -/
def Statistics.withoutMerges (stats : Statistics) : Statistics :=
  { stats with regionsMerged := 0, mergesRefused := 0 }

lemma Statistics.robust_withoutMerges :
    Robust fun stats stats' => stats.withoutMerges = stats'.withoutMerges where
  functionCompiled name nodes s s' h := by
    simp only [withoutMerges, functionCompiled, mk.injEq] at h ⊢
    split <;> split <;> simp_all
  functionDiscarded h := by
    simp only [withoutMerges, functionDiscarded, mk.injEq] at h ⊢
    simp [h]
  nodeCompiled kind s s' h := by
    simp only [withoutMerges, nodeCompiled, mk.injEq] at h ⊢
    simp [h]
  regionCreated h := by
    simp only [withoutMerges, regionCreated, mk.injEq] at h ⊢
    simp [h]
  variableAllocated h := by
    simp only [withoutMerges, variableAllocated, mk.injEq] at h ⊢
    simp [h]
  instructionEmitted h := by
    simp only [withoutMerges, instructionEmitted, mk.injEq] at h ⊢
    simp [h]
  mergeLeft merged s s' h := by cases merged <;> exact h
  mergeRight merged s s' h := by cases merged <;> exact h

/-- What decides about merges while a model is compiled. -/
structure Conduct where
  /-- The policy of the assembler. -/
  policy : MergePolicy
  /-- Whether the compiler asks for merges. -/
  mergeRegions : Bool
  /-- If a recorder stands between compiler and assembler, the merges that it refuses without
  asking, by their number. -/
  refusal : Option (ℕ → Bool)

/-- What a compilation returns and leaves. -/
structure Observation where
  /-- The function or the error. -/
  outcome : Except CompileError CompiledFunction
  /-- The variables. -/
  vars : VariableTable
  /-- The functions. -/
  functions : List Function
  /-- The number of elements that are allocated. -/
  used : ℕ
  /-- The counts without those of merges. -/
  statistics : Statistics

/-- What can be seen of a compilation, given where the assembler is. -/
def observation {β : Type} (assembler : β → Assembler)
    (compilation : Attempt (Compiler β) CompiledFunction) (compiler : Compiler β) : Observation :=
  let last := compilation.after compiler
  { outcome := compilation.outcome compiler
    vars := (assembler last.backend).vars
    functions := (assembler last.backend).program.functions
    used := (assembler last.backend).used
    statistics := last.session.statistics.withoutMerges }

namespace Conduct

variable {β : Type} (conduct : Conduct) (compiler : Compiler Assembler)

/-- The assembler with the policy of the conduct. -/
def assembler : Assembler := { compiler.backend with policy := conduct.policy }

/-- A compiler with another backend, which asks for merges if the conduct says so. -/
def prepare (backend : β) : Compiler β :=
  { compiler with
    backend
    options := { compiler.options with mergeRegions := conduct.mergeRegions } }

/-- Compiles a model and looks at the result. -/
def observe (model : Model) (name : String) : Observation :=
  match conduct.refusal with
  | none =>
    observation id (Compiler.compile model name)
      (conduct.prepare compiler (conduct.assembler compiler))
  | some refusal =>
    observation Recorder.inner (Compiler.compile model name)
      (conduct.prepare compiler (.around (conduct.assembler compiler) ⟨fun _ => none, refusal⟩))

end Conduct

/-! ## Comparing observations -/

/-- Assemblers whose policies may differ. -/
abbrev Assembler.Agree (a b : Assembler) : Prop := a.Alike (fun _ _ => True) b

lemma observation_eq {β : Type} [Backend β] {B : Assembler → β → Prop} (hB : Parallel B)
    {assembler : β → Assembler} (hassembler : ∀ {a b}, B a b → a.Agree (assembler b))
    {c : Compiler Assembler} {d : Compiler β}
    (h : Compiler.Alike B (fun s s' => s.withoutMerges = s'.withoutMerges) c d) (model : Model)
    (name : String) :
    observation id (Compiler.compile model name) c =
      observation assembler (Compiler.compile model name) d := by
  have hrun := Compiler.compile_related hB Statistics.robust_withoutMerges model name c d h
  unfold observation Attempt.after Attempt.outcome
  generalize Compiler.compile model name c = result at hrun ⊢
  generalize Compiler.compile model name d = result' at hrun ⊢
  cases hrun with
  | ok function h =>
    have hagree := hassembler h.backend
    simp only [id, hagree.vars_eq, hagree.program, hagree.used, h.statistics]
  | error e h =>
    have hagree := hassembler h.backend
    simp only [id, hagree.vars_eq, hagree.program, hagree.used, h.statistics]

namespace Conduct

/-- Every conduct goes in step with a compilation in which nothing was changed. -/
lemma observe_eq_observation (model : Model) (name : String) {compiler : Compiler Assembler}
    (hidle : compiler.backend.pending = none) (conduct : Conduct) :
    conduct.observe compiler model name =
      observation id (Compiler.compile model name) compiler := by
  have hagree : compiler.backend.Agree (conduct.assembler compiler) :=
    ⟨rfl, trivial, rfl, rfl, rfl, by rw [assembler, hidle]; exact .none⟩
  obtain ⟨policy, mergeRegions, refusal⟩ := conduct
  cases refusal with
  | none =>
    have halike : Compiler.Alike Assembler.Agree (fun s s' => s.withoutMerges = s'.withoutMerges)
      compiler (prepare ⟨policy, mergeRegions, none⟩ compiler _) := ⟨hagree, rfl, rfl⟩
    exact (observation_eq (Assembler.parallel _) (fun h => h) halike model name).symm
  | some refusal =>
    have halike : Compiler.Alike (Recorder.Hides Assembler.Agree)
      (fun s s' => s.withoutMerges = s'.withoutMerges) compiler
      (prepare ⟨policy, mergeRegions, some refusal⟩ compiler
        (.around _ ⟨fun _ => none, refusal⟩)) := ⟨⟨hagree, rfl⟩, rfl, rfl⟩
    exact (observation_eq (Recorder.parallel (Assembler.parallel _)) (fun h => h.inner) halike
      model name).symm

/-- **Merging regions does not show in the result.**  From a state without an open function, a
compilation returns the same function or error and leaves the same variables, functions, storage and
counts, whatever decides about merges. -/
theorem observe_eq (model : Model) (name : String) {compiler : Compiler Assembler}
    (hidle : compiler.backend.pending = none) (conduct conduct' : Conduct) :
    conduct.observe compiler model name = conduct'.observe compiler model name := by
  rw [observe_eq_observation model name hidle, observe_eq_observation model name hidle]

/-- An input is added to itself and the sum is negated, with different merges. -/
theorem observe_eq_sum :
    let compiler := Compiler.fresh (Assembler.fresh "m" .never 10) .standard
    let model : Model := ⟨"sum", #[⟨⟨0⟩, "x", .input, [], .real, 1⟩,
      ⟨⟨1⟩, "y", .binary .add, [⟨"lhs", ⟨[⟨⟨0⟩, 0, 1⟩]⟩⟩, ⟨"rhs", ⟨[⟨⟨0⟩, 0, 1⟩]⟩⟩], .real, 1⟩,
      ⟨⟨2⟩, "z", .unary .neg, [⟨"input", ⟨[⟨⟨1⟩, 0, 1⟩]⟩⟩], .real, 1⟩]⟩
    compiler.backend.pending = none ∧
      (⟨.always, true, none⟩ : Conduct).observe compiler model "f" =
        (⟨.atMost 1, true, some fun merge => merge == 0⟩ : Conduct).observe compiler model
          "f" :=
  ⟨rfl, observe_eq _ "f" rfl _ _⟩

end Conduct
end Dataflow
