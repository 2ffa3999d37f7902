import Dataflow.Proofs.Compiler.Counting
import Dataflow.Proofs.Compiler.Grouping
import Dataflow.Proofs.Failure

/-!
# Counting what a compilation adds

A variable is counted after its storage is reserved, and an instruction before it is emitted, so the
counts agree with what there is unless one of them is refused, which ends the compilation.  A
compilation that succeeds has therefore counted all variables and all instructions that it has added
(`Tallied`), and its instructions are those of the function (`compile_ok_counts`).
-/

namespace Dataflow

open Attempt

namespace Statistics

/-- The variables and the instructions that have been counted. -/
def additions (s : Statistics) : ℕ × ℕ := (s.variablesAllocated, s.instructionsEmitted)

lemma additions_mergeAttempted (s : Statistics) (merged : Bool) :
    (s.mergeAttempted merged).additions = s.additions := by
  cases merged <;> rfl

lemma additions_functionCompiled (s : Statistics) (name : String) (nodes : ℕ) :
    (s.functionCompiled name nodes).additions = s.additions := by
  rw [functionCompiled]
  split <;> rfl

end Statistics

namespace Compiler

variable {c d e : Compiler Assembler}

/-- All variables and instructions that have been added since have been counted. -/
structure Tallied (c d : Compiler Assembler) : Prop where
  tidy : d.backend.Tidy
  vars : ∃ added, d.backend.vars.toList = c.backend.vars.toList ++ added ∧
    d.statistics.variablesAllocated = c.statistics.variablesAllocated + added.length
  code : ∃ added, d.backend.code = c.backend.code ++ added ∧
    d.statistics.instructionsEmitted = c.statistics.instructionsEmitted + added.length

namespace Tallied

/-- Nothing has been added, and nothing of it counted. -/
lemma same (htidy : d.backend.Tidy) (hvars : d.backend.vars = c.backend.vars)
    (hcode : d.backend.code = c.backend.code)
    (hcounts : d.statistics.additions = c.statistics.additions) : Tallied c d :=
  ⟨htidy, ⟨[], by rw [hvars, List.append_nil], congrArg Prod.fst hcounts⟩,
    ⟨[], by rw [hcode, List.append_nil], congrArg Prod.snd hcounts⟩⟩

lemma refl (h : c.backend.Tidy) : Tallied c c := same h rfl rfl rfl

lemma trans (h : Tallied c d) (h' : Tallied d e) : Tallied c e := by
  obtain ⟨vars, hvars, hallocated⟩ := h.vars
  obtain ⟨vars', hvars', hallocated'⟩ := h'.vars
  obtain ⟨code, hcode, hemitted⟩ := h.code
  obtain ⟨code', hcode', hemitted'⟩ := h'.code
  refine ⟨h'.tidy, ⟨vars ++ vars', ?_, ?_⟩, ⟨code ++ code', ?_, ?_⟩⟩
  · rw [hvars', hvars, List.append_assoc]
  · rw [hallocated', hallocated, List.length_append, Nat.add_assoc]
  · rw [hcode', hcode, List.append_assoc]
  · rw [hemitted', hemitted, List.length_append, Nat.add_assoc]

/-- A step that adds no instruction nor variable. -/
lemma of_step (hstep : c.Step [] d) (hvars : d.backend.vars = c.backend.vars)
    (hcounts : d.statistics.additions = c.statistics.additions) : Tallied c d :=
  same hstep.tidy hvars (by rw [hstep.backend.code, List.append_nil]) hcounts

end Tallied

/-- What the attempt adds, it counts, if it succeeds. -/
def Tallies {α : Type} (x : Attempt (Compiler Assembler) α) : Prop :=
  ∀ ⦃c a d⦄, c.backend.Tidy → x c = .ok a d → Tallied c d

namespace Tallies

variable {α γ : Type} {x : Attempt (Compiler Assembler) α}

lemma pure (a : α) : Tallies (Pure.pure a) := by
  intro c a d hc h
  obtain ⟨-, rfl⟩ := EStateM.Result.ok.inj h
  exact .refl hc

lemma ofExcept (result : Except CompileError α) : Tallies (MonadExcept.ofExcept result) := by
  intro c a d hc h
  obtain ⟨-, rfl⟩ := ofExcept_eq_ok.mp h
  exact .refl hc

lemma bind {f : α → Attempt (Compiler Assembler) γ} (hx : Tallies x) (hf : ∀ a, Tallies (f a)) :
    Tallies (x >>= f) := by
  intro c b e hc h
  obtain ⟨a, d, hrun, hrest⟩ := bind_eq_ok.mp h
  have hfirst := hx hc hrun
  exact hfirst.trans (hf a hfirst.tidy hrest)

lemma get : Tallies (MonadState.get : Attempt (Compiler Assembler) (Compiler Assembler)) := by
  intro c a d hc h
  obtain ⟨-, rfl⟩ := EStateM.Result.ok.inj h
  exact .refl hc

lemma onBehalfOf (name : String) (hx : Tallies x) : Tallies (x.onBehalfOf name) :=
  fun _ _ _ hc h => hx hc (onBehalfOf_eq_ok.mp h)

/-- The state may be changed where it has nothing to do with storage or instructions. -/
lemma modify {change : Compiler Assembler → Compiler Assembler}
    (hbackend : ∀ c, (change c).backend = c.backend)
    (hcounts : ∀ c, (change c).statistics.additions = c.statistics.additions) :
    Tallies (modify change) := by
  intro c a d hc h
  obtain ⟨-, rfl⟩ := EStateM.Result.ok.inj h
  have hsame := hbackend c
  exact .same (hsame ▸ hc) (by rw [hsame]) (by rw [hsame]) (hcounts c)

lemma allocate (spec : VariableSpec) : Tallies (allocate spec) := by
  intro c var d hc h
  obtain ⟨hstep, -, hvars⟩ := allocate_ok hc h
  obtain ⟨backend, -, -, rfl⟩ := allocate_eq_ok.mp h
  exact ⟨hstep.tidy, ⟨_, hvars, rfl⟩, ⟨[], hstep.backend.code, rfl⟩⟩

lemma emit (instruction : Instruction) : Tallies (emit instruction) := by
  intro c a d hc h
  obtain ⟨hstep, hvars⟩ := emit_ok hc h
  obtain ⟨backend, -, rfl⟩ := emit_eq_ok.mp h
  exact ⟨hstep.tidy, ⟨[], by rw [hvars, List.append_nil], rfl⟩, ⟨_, hstep.backend.code, rfl⟩⟩

/-- Compiling is made of such attempts. -/
lemma congruence : Congruence id fun α _ x (_ : Attempt (Compiler Assembler) α) => Tallies x where
  pure := pure
  ofExcept _ := ofExcept _
  bind := bind
  look hf := bind get fun seen => hf seen.scene
  elementType _ _ := bind get fun _ => ofExcept _
  checkOperands _ := bind get fun _ => ofExcept _
  allocate spec _ := allocate spec
  bindPort _ _ := modify (fun _ => rfl) fun _ => rfl
  emit := emit
  onBehalfOf name _ _ := onBehalfOf name
  openRegion node c _ d hc h := by
    obtain ⟨hstep, hvars⟩ := openRegion_ok hc h
    obtain ⟨backend, -, rfl⟩ := onBackend_change_eq_ok.mp h
    exact .of_step hstep hvars rfl
  regionCreated := modify (fun _ => rfl) fun _ => rfl
  finishNode _ := bind (modify (fun _ => rfl) fun _ => rfl) fun _ =>
    modify (fun _ => rfl) fun _ => rfl
  mergeStep node isFirst c _ d hc h := by
    obtain ⟨hstep, hvars⟩ := mergeStep_ok hc h
    rw [mergeStep_run] at h
    obtain ⟨-, rfl⟩ := EStateM.Result.ok.inj h
    refine .of_step hstep hvars ?_
    split
    · exact Statistics.additions_mergeAttempted _ _
    · rfl
  notify _ _ := modify (fun _ => rfl) fun _ => rfl

end Tallies

/-! ## A whole compilation -/

variable {model : Model} {name : String}

/-- Beginning a function adds no instructions. -/
lemma tallies_beginFunction (name : String) (parameters : List Parameter) :
    Tallies (onBackend (Backend.beginFunction name parameters)) := by
  intro c a d hc h
  obtain ⟨backend, hbackend, rfl⟩ := onBackend_change_eq_ok.mp h
  obtain ⟨hpending, -, vars, -, rfl⟩ := Assembler.beginFunction_eq_ok.mp hbackend
  refine .same { hc with sound := fun _ h => Option.some.inj h ▸ RegionTable.Sound.empty _ } rfl ?_
    rfl
  simp only [Assembler.code, hpending]
  rfl

/-- **What a compilation counts that succeeds.** -/
lemma compile_ok_counts (htidy : c.backend.Tidy) (hpending : c.backend.pending = none)
    {function : CompiledFunction} (h : compile model name c = .ok function d) :
    c.statistics.Grows model.nodes.size model.nodes.size (c.options.attempts model.nodes.size)
        d.statistics ∧
      (∃ added, d.backend.vars.toList = c.backend.vars.toList ++ added ∧
        d.statistics.variablesAllocated = c.statistics.variablesAllocated + added.length) ∧
      (∃ registered, d.backend.program.functions = c.backend.program.functions ++ [registered] ∧
        d.statistics.instructionsEmitted =
          c.statistics.instructionsEmitted + registered.body.length) ∧
      function.name = name ∧ function.nodeCount = model.nodes.size ∧
      ∃ s : Statistics, s.closing = c.statistics.closing ∧
        d.statistics = s.functionCompiled name model.nodes.size := by
  obtain ⟨parameters, opened, backend, hopen, hend, rfl, rfl⟩ := compile_eq_ok h
  have hgoes := compileOpen_goes hopen
  obtain ⟨-, ⟨added, hvars, hallocated⟩, ⟨code, hcode, hemitted⟩⟩ :=
    Tallies.congruence.compileOpen model (Tallies.congruence.beginModel model name
      fun parameters => tallies_beginFunction name parameters) (c := c.enter name) htidy hopen
  have hfunctions := (compileOpen_upholds (functions_preserved c.backend.program.functions) rfl
    model name).backend
  rw [Attempt.after, hopen] at hfunctions
  obtain ⟨pending, hopened, rfl⟩ := Assembler.endFunction_eq_ok.mp hend
  have hcounts := opened.statistics.additions_functionCompiled name model.nodes.size
  refine ⟨hgoes.grows.functionCompiled name _, ⟨added, hvars, ?_⟩,
    ⟨pending.finish, congrArg (· ++ [pending.finish]) hfunctions, ?_⟩, rfl, rfl,
    opened.statistics, hgoes.closing, rfl⟩
  · exact (congrArg Prod.fst hcounts).trans hallocated
  · -- no function was open at first, so all instructions are those of the function
    have hbody : pending.finish.body = code := by
      have hnone : c.backend.code = [] := by rw [Assembler.code, hpending]; rfl
      have hall : opened.backend.code = pending.finish.body := by
        rw [Assembler.code, hopened]
        rfl
      rw [← hall, hcode]
      exact congrArg (· ++ code) hnone
    rw [hbody]
    exact (congrArg Prod.snd hcounts).trans hemitted

end Compiler
end Dataflow
