import Dataflow.Compiler.Error

/-!
# Attempts

Compiling changes a state step by step, and every step may fail.  A step that fails leaves the state
that it has reached, so that what it did up to then can be seen, and taken back.
-/

namespace Dataflow

/-- A step on a state that may fail with a compile error. -/
abbrev Attempt (σ α : Type) := EStateM CompileError σ α

namespace Attempt

/-- A step that changes the state as a whole, or fails and leaves it alone. -/
def change {σ : Type} (next : σ → Except BackendFault σ) : Attempt σ Unit := fun state =>
  match next state with
  | .ok state => .ok () state
  | .error fault => .error (.refusal fault) state

/-- A step that cannot fail. -/
def always {σ α : Type} (next : σ → α × σ) : Attempt σ α := fun state =>
  let (result, state) := next state
  .ok result state

/-- A step on a part of the state. -/
def zoom {σ τ α : Type} (part : σ → τ) (replace : τ → σ → σ) (step : Attempt τ α) :
    Attempt σ α := fun state =>
  match step (part state) with
  | .ok result next => .ok result (replace next state)
  | .error error next => .error error (replace next state)

/-- A step whose refusals by the backend are put down to somebody, unless they are already. -/
def onBehalfOf {σ α : Type} (name : String) (step : Attempt σ α) : Attempt σ α := fun state =>
  match step state with
  | .ok result next => .ok result next
  | .error error next => .error (error.withOrigin name) next

/-- The state that a step leaves, whether or not it fails. -/
def after {σ α : Type} (step : Attempt σ α) (state : σ) : σ :=
  match step state with
  | .ok _ next => next
  | .error _ next => next

/-- What a step returns. -/
def outcome {σ α : Type} (step : Attempt σ α) (state : σ) : Except CompileError α :=
  match step state with
  | .ok result _ => .ok result
  | .error error _ => .error error

@[simp] theorem after_onBehalfOf {σ α : Type} (name : String) (step : Attempt σ α) (state : σ) :
    (step.onBehalfOf name).after state = step.after state := by
  simp only [after, onBehalfOf]
  cases step state <;> rfl

@[simp] theorem after_zoom {σ τ α : Type} (part : σ → τ) (replace : τ → σ → σ)
    (step : Attempt τ α) (state : σ) :
    (step.zoom part replace).after state = replace (step.after (part state)) state := by
  simp only [after, zoom]
  cases step (part state) <;> rfl

end Attempt
end Dataflow
