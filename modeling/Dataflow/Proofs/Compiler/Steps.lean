import Dataflow.Proofs.Backend.Operations
import Dataflow.Proofs.Compiler.Congruence

/-!
# The steps of a compiler that drives an assembler

Compiling is made of a few steps.  Here is what each of them does if the backend is an assembler:
the run of a step is given in full where it may fail in different states, and otherwise there is a
lemma for the case that it succeeds.
-/

namespace Dataflow
namespace Compiler

open Attempt

variable {β : Type}

lemma onBackend_change_run (next : β → Except BackendFault β) (compiler : Compiler β) :
    onBackend (Attempt.change next) compiler =
      match next compiler.backend with
      | .ok backend => .ok () { compiler with backend }
      | .error fault => .error (.refusal fault) compiler := by
  rw [onBackend, zoom, Attempt.change]
  cases next compiler.backend <;> rfl

lemma onBackend_change_eq_ok {next : β → Except BackendFault β} {c d : Compiler β} :
    onBackend (Attempt.change next) c = .ok () d ↔
      ∃ backend, next c.backend = .ok backend ∧ { c with backend } = d := by
  rw [onBackend_change_run]
  cases next c.backend <;> simp

lemma onBackend_change_eq_error {next : β → Except BackendFault β} {c d : Compiler β}
    {e : CompileError} : onBackend (Attempt.change next) c = .error e d ↔
      ∃ fault, next c.backend = .error fault ∧ .refusal fault = e ∧ c = d := by
  rw [onBackend_change_run]
  cases next c.backend <;> simp

/-- A refused allocation leaves the declared variable behind. -/
lemma allocate_run (spec : VariableSpec) (compiler : Compiler Assembler) :
    allocate spec compiler =
      match (compiler.backend.declare spec).allocate compiler.vars.next with
      | .ok backend => .ok compiler.vars.next
          { compiler with backend, session := compiler.session.count Statistics.variableAllocated }
      | .error fault => .error (.refusal fault)
          { compiler with backend := compiler.backend.declare spec } := by
  have hdeclare : Backend.declare spec compiler.backend = compiler.backend.declare spec := rfl
  have hstep : ∀ c : Compiler Assembler, onBackend (Backend.allocate compiler.vars.next) c = _ :=
    fun c => onBackend_change_run (fun a => Assembler.allocate a compiler.vars.next) c
  rw [allocate]
  simp only [bind_run, get_run, modify_run, hstep, hdeclare]
  cases (compiler.backend.declare spec).allocate compiler.vars.next <;> rfl

lemma allocate_eq_ok {spec : VariableSpec} {var : VarId} {c d : Compiler Assembler} :
    allocate spec c = .ok var d ↔
      ∃ backend, (c.backend.declare spec).allocate c.vars.next = .ok backend ∧ c.vars.next = var ∧
        { c with backend, session := c.session.count Statistics.variableAllocated } = d := by
  rw [allocate_run]
  cases (c.backend.declare spec).allocate c.vars.next <;> simp

lemma emit_eq_ok {instruction : Instruction} {c d : Compiler Assembler} :
    emit instruction c = .ok () d ↔
      ∃ backend, c.backend.emit instruction = .ok backend ∧
        { c with backend, session := c.session.count Statistics.instructionEmitted } = d :=
  onBackend_change_eq_ok (c := { c with session := c.session.count Statistics.instructionEmitted })

lemma emit_eq_error {instruction : Instruction} {c d : Compiler Assembler} {e : CompileError} :
    emit instruction c = .error e d ↔
      ∃ fault, c.backend.emit instruction = .error fault ∧ .refusal fault = e ∧
        { c with session := c.session.count Statistics.instructionEmitted } = d :=
  onBackend_change_eq_error
    (c := { c with session := c.session.count Statistics.instructionEmitted })

/-- A model is compiled into an open function by beginning the function and compiling the nodes. -/
lemma compileOpen_eq_ok {model : Model} {name : String} {c d : Compiler Assembler}
    {parameters : List Parameter} (h : compileOpen model name c = .ok parameters d) :
    ∃ begun, beginModel model name c = .ok parameters begun ∧
      compileNodes model model.nodes.toList true begun = .ok () d := by
  rw [compileOpen_split] at h
  obtain ⟨_, begun, hbegin, h₁⟩ := bind_eq_ok.mp h
  obtain ⟨_, reached, hnodes, h₂⟩ := bind_eq_ok.mp h₁
  obtain ⟨_, _, hnotify, h₃⟩ := bind_eq_ok.mp h₂
  obtain ⟨-, rfl⟩ := EStateM.Result.ok.inj hnotify
  obtain ⟨rfl, rfl⟩ := EStateM.Result.ok.inj h₃
  exact ⟨begun, hbegin, hnodes⟩

lemma close_run (model : Model) (name : String) (parameters : List Parameter)
    (compiler : Compiler Assembler) :
    close model name parameters compiler =
      match compiler.backend.endFunction with
      | .ok backend => .ok ⟨name, parameters, model.nodes.size⟩ { compiler with backend }
      | .error fault => .error ((CompileError.refusal fault).withOrigin name) compiler := by
  have hstep : onBackend Backend.endFunction compiler = _ :=
    onBackend_change_run Assembler.endFunction compiler
  rw [close, bind_run, onBehalfOf, hstep]
  cases compiler.backend.endFunction <;> rfl

/-- A compilation that succeeds compiles the model into an open function and ends it. -/
lemma compile_eq_ok {model : Model} {name : String} {compiler last : Compiler Assembler}
    {function : CompiledFunction} (h : compile model name compiler = .ok function last) :
    ∃ parameters opened backend,
      compileOpen model name (compiler.enter name) = .ok parameters opened ∧
      opened.backend.endFunction = .ok backend ∧
      function = ⟨name, parameters, model.nodes.size⟩ ∧
      last = ({ opened with backend }.leave.succeed function) := by
  rw [compile, compileBody_eq, bind_run] at h
  cases hopen : compileOpen model name (compiler.enter name) with
  | error e reached =>
    rw [hopen] at h
    cases h
  | ok parameters opened =>
    rw [hopen] at h
    simp only [close_run] at h
    cases hend : opened.backend.endFunction with
    | error fault =>
      rw [hend] at h
      cases h
    | ok backend =>
      rw [hend] at h
      obtain ⟨rfl, rfl⟩ := EStateM.Result.ok.inj h
      exact ⟨parameters, opened, backend, rfl, hend, rfl, rfl⟩

/-- Compiling a model into an open function and ending it is all that a compilation does. -/
lemma compile_of_compileOpen {model : Model} {name : String} {compiler opened : Compiler Assembler}
    {parameters : List Parameter} {backend : Assembler}
    (hopen : compileOpen model name (compiler.enter name) = .ok parameters opened)
    (hend : opened.backend.endFunction = .ok backend) :
    compile model name compiler = .ok ⟨name, parameters, model.nodes.size⟩
      ({ opened with backend }.leave.succeed ⟨name, parameters, model.nodes.size⟩) := by
  have hclose := close_run model name parameters opened
  rw [hend] at hclose
  rw [compile, compileBody_eq, bind_run, hopen]
  simp only [hclose]

/-- A compilation that fails is abandoned where compiling the model into an open function ends. -/
lemma compile_eq_error {model : Model} {name : String} {compiler last : Compiler Assembler}
    {e : CompileError} (h : compile model name compiler = .error e last) :
    last = ((compileOpen model name).after (compiler.enter name)).leave.abandon := by
  rw [compile, compileBody_eq, bind_run] at h
  rw [Attempt.after]
  cases hopen : compileOpen model name (compiler.enter name) with
  | error e reached =>
    rw [hopen] at h
    exact (EStateM.Result.error.inj h).2.symm
  | ok parameters opened =>
    rw [hopen] at h
    simp only [close_run] at h
    cases hend : opened.backend.endFunction with
    | error fault =>
      rw [hend] at h
      exact (EStateM.Result.error.inj h).2.symm
    | ok backend =>
      rw [hend] at h
      cases h

end Compiler
end Dataflow
