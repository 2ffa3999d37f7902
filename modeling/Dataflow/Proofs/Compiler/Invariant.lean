import Dataflow.Proofs.Compiler.Steps

/-!
# Invariants of compilations

What every operation of an assembler preserves (`Assembler.Preserved`), a compilation preserves,
wherever it fails (`Compiler.compileOpen_upholds`).  A whole compilation then ends or discards its
function (`Compiler.compile_upholds`).  The options of the compiler never change.
-/

namespace Dataflow

open Attempt

/-- A property of assemblers that no step of a compilation destroys. -/
structure Assembler.Preserved (J : Assembler → Prop) : Prop where
  declare : ∀ {a} spec, J a → J (a.declare spec)
  allocate : ∀ {a next} {spec : VariableSpec}, J a →
    (a.declare spec).allocate a.vars.next = .ok next → J next
  beginFunction : ∀ {a next} {name : String} {parameters : List Parameter}, J a →
    a.beginFunction name parameters = .ok next → J next
  openRegion : ∀ {a next} {node : NodeId}, J a → a.openRegion node = .ok next → J next
  emit : ∀ {a next} {instruction : Instruction}, J a → a.emit instruction = .ok next → J next
  mergeRegion : ∀ {a} (node : NodeId), J a → J (a.accept (a.mergeRegion? node)).2

/-- A property that does not depend on the open function has to be checked for storage only. -/
lemma Assembler.Preserved.of_frame {J : Assembler → Prop}
    (hframe : ∀ {a : Assembler} pending, J a → J { a with pending })
    (hdeclare : ∀ {a} spec, J a → J (a.declare spec))
    (hallocate : ∀ {a next} {spec : VariableSpec}, J a →
      (a.declare spec).allocate a.vars.next = .ok next → J next) : Assembler.Preserved J where
  declare := hdeclare
  allocate := hallocate
  beginFunction h hnext := by
    obtain ⟨pending, rfl⟩ := Assembler.beginFunction_frame hnext
    exact hframe pending h
  openRegion h hnext := by
    obtain ⟨pending, rfl⟩ := Assembler.openRegion_frame hnext
    exact hframe pending h
  emit h hnext := by
    obtain ⟨pending, rfl⟩ := Assembler.emit_frame hnext
    exact hframe pending h
  mergeRegion {a} node h := by
    obtain ⟨pending, hnext⟩ := a.mergeRegion_frame node
    exact hnext ▸ hframe pending h

lemma Attempt.Keeps.ofChange {σ : Type} {I : σ → Prop} {next : σ → Except BackendFault σ}
    (h : ∀ s t, I s → next s = .ok t → I t) : Keeps I Unit (Attempt.change next) := by
  intro s hs
  rw [Attempt.after, Attempt.change]
  cases hnext : next s with
  | error fault => exact hs
  | ok t => exact h s t hs hnext

namespace Compiler

/-- A compiler with given options whose assembler has a property. -/
structure Upholds (J : Assembler → Prop) (options : Options) (compiler : Compiler Assembler) :
    Prop where
  backend : J compiler.backend
  options : compiler.options = options

variable {J : Assembler → Prop} {options : Options}

lemma keeps_onBackend {α : Type} {step : Attempt Assembler α} (hstep : Keeps J α step) :
    Keeps (Upholds J options) α (onBackend step) := by
  intro compiler h
  rw [onBackend, after_zoom]
  exact { h with backend := hstep _ h.backend }

lemma keeps_modify {change : Compiler Assembler → Compiler Assembler}
    (hbackend : ∀ compiler, (change compiler).backend = compiler.backend)
    (hoptions : ∀ compiler, (change compiler).options = compiler.options) :
    Keeps (Upholds J options) Unit (modify change) :=
  fun compiler h => ⟨(hbackend compiler).symm ▸ h.backend, (hoptions compiler).trans h.options⟩

/-- A refused allocation leaves the declaration behind, a successful one the variable. -/
lemma keeps_allocate {spec : VariableSpec} (hdeclare : ∀ {a}, J a → J (a.declare spec))
    (hallocate : ∀ {a next}, J a → (a.declare spec).allocate a.vars.next = .ok next → J next) :
    Keeps (Upholds J options) VarId (allocate spec) := by
  intro compiler h
  have hdeclared := hdeclare h.backend
  rw [Attempt.after, allocate_run]
  cases hnext : (compiler.backend.declare spec).allocate compiler.vars.next with
  | error fault => exact { h with backend := hdeclared }
  | ok next => exact { h with backend := hallocate h.backend hnext }

lemma keeps_mergeStep {node : NodeId}
    (hmerge : ∀ {a}, J a → J (a.accept (a.mergeRegion? node)).2) (isFirst : Bool) :
    Keeps (Upholds J options) Unit (mergeStep node isFirst) := by
  intro compiler h
  rw [Attempt.after, mergeStep_run]
  simp only
  split
  · exact ⟨hmerge h.backend, h.options⟩
  · exact h

variable (hJ : Assembler.Preserved J)

include hJ

lemma congruence_keeps (options : Options) :
    Congruence id fun α _ x (_ : Attempt (Compiler Assembler) α) =>
      Keeps (Upholds J options) α x where
  pure := .pure
  ofExcept _ := .ofExcept _
  bind := .bind
  onBehalfOf name _ _ := .onBehalfOf name
  look hf := .bind (fun _ h => h) fun compiler => hf compiler.scene
  elementType _ _ := .bind (fun _ h => h) fun _ => .ofExcept _
  checkOperands _ := .bind (fun _ h => h) fun _ => .ofExcept _
  allocate spec _ := keeps_allocate (fun h => hJ.declare spec h) fun h => hJ.allocate h
  bindPort _ _ := keeps_modify (fun _ => rfl) fun _ => rfl
  openRegion _ := keeps_onBackend <| .ofChange fun _ _ => hJ.openRegion
  regionCreated := keeps_modify (fun _ => rfl) fun _ => rfl
  emit _ := .bind (keeps_modify (fun _ => rfl) fun _ => rfl) fun _ =>
    keeps_onBackend <| .ofChange fun _ _ => hJ.emit
  finishNode _ := .bind (keeps_modify (fun _ => rfl) fun _ => rfl) fun _ =>
    keeps_modify (fun _ => rfl) fun _ => rfl
  mergeStep node := keeps_mergeStep (hJ.mergeRegion node)
  notify _ _ := keeps_modify (fun _ => rfl) fun _ => rfl

/-- The state that compiling a model into an open function ends in, even if it fails. -/
lemma compileOpen_upholds {compiler : Compiler Assembler} (h : J compiler.backend) (model : Model)
    (name : String) :
    Upholds J compiler.options ((compileOpen model name).after (compiler.enter name)) := by
  have hcongruence := congruence_keeps hJ compiler.options
  have hbegin := hcongruence.beginModel model name fun parameters =>
    keeps_onBackend (.ofChange fun _ _ => hJ.beginFunction)
  exact hcongruence.compileOpen model hbegin _ ⟨h, rfl⟩

/-- A whole compilation ends or discards its function. -/
lemma compile_upholds {K : Assembler → Prop}
    (hend : ∀ {a next}, J a → a.endFunction = .ok next → K next)
    (hdiscard : ∀ {a}, J a → K a.discardFunction) {compiler : Compiler Assembler}
    (h : Upholds J options compiler) (model : Model) (name : String) :
    Upholds K options ((compile model name).after compiler) := by
  have hopen := compileOpen_upholds hJ h.backend model name
  rw [h.options] at hopen
  rw [Attempt.after]
  cases hrun : compile model name compiler with
  | ok function last =>
    obtain ⟨parameters, opened, backend, hopened, hended, -, rfl⟩ := compile_eq_ok hrun
    rw [Attempt.after, hopened] at hopen
    exact ⟨hend hopen.backend hended, hopen.options⟩
  | error e last =>
    rw [compile_eq_error hrun]
    exact ⟨hdiscard hopen.backend, hopen.options⟩

end Compiler
end Dataflow
