import Dataflow.Proofs.Backend.Alike
import Dataflow.Proofs.Compiler.Invariant
import Dataflow.Proofs.Storage.Table
import Dataflow.Proofs.Transcript

/-!
# Failed compilations leave no trace

Between compilations everything an assembler holds is committed (`Assembler.Settled`).  While a
compilation runs it only adds: the variables grow at the end, and nothing that was there before
changes (`Assembler.Extends`), whatever step fails.  So cutting the assembler back to what was
committed restores it exactly, and a compiler that has failed goes on as if the failed compilation
had not been asked for (`Compiler.failures_leave_no_trace`).
-/

namespace Dataflow

open Attempt

namespace Assembler

/-- No function is open, and everything is committed. -/
structure Settled (a : Assembler) : Prop where
  pending : a.pending = none
  committed : a.committed = ⟨a.vars.size, a.used⟩

/-- An assembler that has only been added to. -/
structure Extends (base a : Assembler) : Prop where
  name : a.program.name = base.program.name
  functions : a.program.functions = base.program.functions
  policy : a.policy = base.policy
  limit : a.limit = base.limit
  committed : a.committed = base.committed
  vars : a.vars.truncate base.vars.size = base.vars

variable {base a next : Assembler}

namespace Extends

lemma refl (a : Assembler) : a.Extends a := ⟨rfl, rfl, rfl, rfl, rfl, a.vars.truncate_size⟩

lemma size_le (h : base.Extends a) : base.vars.size ≤ a.vars.size := by
  have := congrArg VariableTable.size h.vars
  rw [VariableTable.size_truncate] at this
  omega

/-- Dropping what was added gives back what there was. -/
lemma discardFunction (h : base.Extends a) (hbase : base.Settled) : a.discardFunction = base := by
  obtain ⟨⟨name, vars, functions⟩, policy, limit, used, committed, pending⟩ := base
  obtain ⟨rfl, rfl, rfl, rfl, rfl, hvars⟩ := h
  obtain ⟨hpending, hcommitted⟩ := hbase
  simp only at hpending hcommitted
  simp only [Assembler.vars] at hvars hcommitted
  simp only [Assembler.discardFunction, truncate, withVars, Assembler.vars, hcommitted, hvars,
    hpending]

lemma withPending (h : base.Extends a) (pending : PendingFunction) :
    base.Extends (a.withPending pending) := { h with }

/-- A new variable stands behind those that were there before. -/
lemma declare (h : base.Extends a) (spec : VariableSpec) : base.Extends (a.declare spec) :=
  { h with vars := (a.vars.truncate_declare spec h.size_le).trans h.vars }

lemma allocate (h : base.Extends a) {id : VarId} (hid : base.vars.size ≤ id.index)
    (hnext : a.allocate id = .ok next) : base.Extends next := by
  obtain ⟨var, -, -, -, rfl⟩ := allocate_eq_ok.mp hnext
  exact { h with vars := (a.vars.truncate_setAllocated true hid).trans h.vars }

lemma mergeRegion (h : base.Extends a) (node : NodeId) :
    base.Extends (a.accept (a.mergeRegion? node)).2 := by
  cases hnext : a.mergeRegion? node with
  | none => exact h
  | some next =>
    obtain ⟨pending, table, source, -, -, -, rfl⟩ := mergeRegion?_eq_some.mp hnext
    exact h.withPending _

/-- Compiling only adds. -/
lemma preserved (base : Assembler) : Preserved base.Extends where
  declare spec h := h.declare spec
  allocate h hnext := (h.declare _).allocate h.size_le hnext
  beginFunction h hnext := by
    obtain ⟨-, -, vars, -, rfl⟩ := beginFunction_eq_ok.mp hnext
    exact h.withPending _
  openRegion h hnext := by
    obtain ⟨pending, table, -, -, rfl⟩ := openRegion_eq_ok.mp hnext
    exact h.withPending _
  emit h hnext := by
    obtain ⟨-, pending, table, -, -, rfl⟩ := emit_eq_ok.mp hnext
    exact h.withPending _
  mergeRegion node h := h.mergeRegion node

end Extends
end Assembler

namespace Compiler

/-! ## One compilation -/

variable {compiler last : Compiler Assembler} {model : Model} {name : String}

lemma compileOpen_extends (model : Model) (name : String) (compiler : Compiler Assembler) :
    Upholds compiler.backend.Extends compiler.options
      ((compileOpen model name).after (compiler.enter name)) :=
  compileOpen_upholds (Assembler.Extends.preserved _) (.refl _) model name

/-- A failed compilation gives the assembler back as it was. -/
lemma compile_error (hsettled : compiler.backend.Settled) {e : CompileError}
    (h : compile model name compiler = .error e last) :
    last.backend = compiler.backend ∧ last.options = compiler.options ∧ last.scopes = .root ∧
      last.compiled = [] := by
  obtain ⟨hbackend, hoptions⟩ := compileOpen_extends model name compiler
  rw [compile_eq_error h]
  exact ⟨hbackend.discardFunction hsettled, hoptions, rfl, rfl⟩

/-- After a successful compilation everything is committed. -/
lemma compile_ok {function : CompiledFunction}
    (h : compile model name compiler = .ok function last) :
    last.backend.Settled ∧ last.options = compiler.options := by
  obtain ⟨parameters, opened, backend, hrun, hend, -, rfl⟩ := compile_eq_ok h
  have hopen := (compileOpen_extends model name compiler).options
  rw [Attempt.after, hrun] at hopen
  obtain ⟨pending, -, rfl⟩ := Assembler.endFunction_eq_ok.mp hend
  exact ⟨⟨rfl, rfl⟩, hopen⟩

/-! ## Compilations one after another -/

/-- Compiles a model into a function of the given name. -/
def serve {β : Type} [Backend β] (compiler : Compiler β) (request : Model × String) :
    Except CompileError CompiledFunction × Compiler β :=
  ((compile request.1 request.2).outcome compiler, (compile request.1 request.2).after compiler)

/-- The requests that were served with success. -/
def successful (requests : List (Model × String))
    (answers : List (Except CompileError CompiledFunction)) : List (Model × String) :=
  ((requests.zip answers).filter fun served => served.2.isOk).map Prod.fst

section

variable {request : Model × String} {answer : Except CompileError CompiledFunction}
variable (requests : List (Model × String))
variable (answers : List (Except CompileError CompiledFunction))

lemma successful_cons_of_ok (h : answer.isOk = true) :
    successful (request :: requests) (answer :: answers) =
      request :: successful requests answers := by
  simp [successful, h]

lemma successful_cons_of_failed (h : ¬ answer.isOk = true) :
    successful (request :: requests) (answer :: answers) = successful requests answers := by
  simp [successful, h]

end

lemma serve_settled (h : compiler.backend.Settled) (request : Model × String) :
    (serve compiler request).2.backend.Settled := by
  rw [serve, Attempt.after]
  cases hrun : compile request.1 request.2 compiler with
  | ok function last => exact (compile_ok hrun).1
  | error e last =>
    simp only
    rwa [(compile_error h hrun).1]

lemma serve_failed {request : Model × String} (hsettled : compiler.backend.Settled)
    (h : (serve compiler request).1.isOk = false) :
    (serve compiler request).2.backend = compiler.backend ∧
      (serve compiler request).2.options = compiler.options ∧
      (serve compiler request).2.scopes = .root ∧ (serve compiler request).2.compiled = [] := by
  rw [serve, Attempt.outcome] at h
  rw [serve, Attempt.after]
  cases hrun : compile request.1 request.2 compiler with
  | ok function last =>
    rw [hrun] at h
    cases h
  | error e last => exact compile_error hsettled hrun

/-- Two compilers with the same assembler between compilations.  Their counts may differ. -/
structure Twin (c d : Compiler Assembler) : Prop where
  backend : c.backend = d.backend
  checks : c.options.checkElementTypes = d.options.checkElementTypes
  settled : c.backend.Settled

namespace Twin

variable {c d : Compiler Assembler}

/-- Assemblers that differ in nothing but an open function are equal if none is open. -/
lemma eq_of_alike {a b : Assembler} (h : a.Alike Eq b) (ha : a.Settled) (hb : b.Settled) :
    a = b := by
  have hpending := ha.pending.trans hb.pending.symm
  obtain ⟨hprogram, hpolicy, hlimit, hused, hcommitted, -⟩ := h
  cases a
  cases b
  simp only at hprogram hpolicy hlimit hused hcommitted hpending
  rw [hprogram, hpolicy, hlimit, hused, hcommitted, hpending]

/-- Twins compile alike and stay twins. -/
lemma serve (h : Twin c d) (request : Model × String) :
    (serve c request).1 = (serve d request).1 ∧ Twin (serve c request).2 (serve d request).2 := by
  have hdsettled : d.backend.Settled := h.backend ▸ h.settled
  have hcnext := serve_settled h.settled request
  have hdnext := serve_settled hdsettled request
  have hpending : Option.Rel (PendingFunction.Alike id) c.backend.pending d.backend.pending := by
    rw [h.settled.pending, hdsettled.pending]
    exact .none
  have hrun := compile_related (S := fun _ _ => True) (Assembler.parallel Eq)
    ⟨fun _ _ _ _ _ => trivial, fun _ => trivial, fun _ _ _ _ => trivial, fun _ => trivial,
      fun _ => trivial, fun _ => trivial, fun _ _ _ _ => trivial, fun _ _ _ _ => trivial⟩
    request.1 request.2 c d ⟨⟨congrArg _ h.backend, congrArg _ h.backend, congrArg _ h.backend,
      congrArg _ h.backend, congrArg _ h.backend, hpending⟩, trivial, h.checks⟩
  unfold Compiler.serve Attempt.after Attempt.outcome at hcnext hdnext ⊢
  generalize compile request.1 request.2 c = result at hrun hcnext hdnext ⊢
  generalize compile request.1 request.2 d = result' at hrun hcnext hdnext ⊢
  cases hrun with
  | ok function hnext =>
    exact ⟨rfl, eq_of_alike hnext.backend hcnext hdnext, hnext.checks, hcnext⟩
  | error e hnext =>
    exact ⟨rfl, eq_of_alike hnext.backend hcnext hdnext, hnext.checks, hcnext⟩

/-- A compiler that has failed is the twin of one that has not tried. -/
lemma serve_failed (h : Twin c d) {request : Model × String}
    (hfailed : (Compiler.serve c request).1.isOk = false) :
    Twin (Compiler.serve c request).2 d := by
  obtain ⟨hbackend, hoptions, -⟩ := Compiler.serve_failed h.settled hfailed
  exact ⟨hbackend.trans h.backend, by rw [hoptions, h.checks], hbackend ▸ h.settled⟩

/-- Leaving out the requests that fail changes nothing for the others. -/
lemma transcript_successful (h : Twin c d) (requests : List (Model × String)) :
    let run := transcript Compiler.serve c requests
    let others := transcript Compiler.serve d (successful requests run.1)
    others.1 = run.1.filter Except.isOk ∧ Twin run.2 others.2 := by
  induction requests generalizing c d with
  | nil => exact ⟨rfl, h⟩
  | cons request rest ih =>
    by_cases hok : (Compiler.serve c request).1.isOk = true
    · obtain ⟨hanswer, hnext⟩ := h.serve request
      obtain ⟨hanswers, hlast⟩ := ih hnext
      simp only [transcript_cons, successful_cons_of_ok _ _ hok, List.filter_cons_of_pos hok]
      exact ⟨by rw [hanswers, hanswer], hlast⟩
    · obtain ⟨hanswers, hlast⟩ := ih (h.serve_failed (Bool.not_eq_true _ ▸ hok))
      simp only [transcript_cons, successful_cons_of_failed _ _ hok, List.filter_cons_of_neg hok]
      exact ⟨hanswers, hlast⟩

end Twin

lemma settled_fresh (name : String) (policy : MergePolicy) (limit : ℕ) :
    (Assembler.fresh name policy limit).Settled := ⟨rfl, rfl⟩

/-- **Failed compilations leave no trace.**  Whatever is compiled on a fresh compiler, a failure
leaves the assembler as it was, without an open function, and the compiler without bindings and
compiled nodes.  The successful compilations alone have the same outcomes and leave the same
assembler, and so the same program. -/
theorem failures_leave_no_trace (name : String) (policy : MergePolicy) (limit : ℕ)
    (options : Options) (requests : List (Model × String)) :
    let start := fresh (Assembler.fresh name policy limit) options
    let run := transcript serve start requests
    let others := transcript serve start (successful requests run.1)
    (∀ request, (serve run.2 request).1.isOk = false →
      (serve run.2 request).2.backend = run.2.backend ∧ run.2.backend.pending = none ∧
        (serve run.2 request).2.scopes = .root ∧ (serve run.2 request).2.compiled = []) ∧
      others.1 = run.1.filter Except.isOk ∧ others.2.backend = run.2.backend := by
  have hfresh := settled_fresh name policy limit
  refine ⟨fun request hfailed => ?_, ?_⟩
  · have hreached : (transcript serve (fresh (Assembler.fresh name policy limit) options)
        requests).2.backend.Settled :=
      transcript_invariant (P := fun compiler : Compiler Assembler => compiler.backend.Settled)
        (fun _ request h => serve_settled h request) hfresh requests
    obtain ⟨hbackend, -, hscopes, hcompiled⟩ := serve_failed hreached hfailed
    exact ⟨hbackend, hreached.pending, hscopes, hcompiled⟩
  · have htwin : Twin (fresh (Assembler.fresh name policy limit) options)
        (fresh (Assembler.fresh name policy limit) options) := ⟨rfl, rfl, hfresh⟩
    obtain ⟨hanswers, hlast⟩ := htwin.transcript_successful requests
    exact ⟨hanswers, hlast.backend.symm⟩

end Compiler
end Dataflow
