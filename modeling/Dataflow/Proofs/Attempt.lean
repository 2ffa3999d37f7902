import Mathlib
import Dataflow.Compiler.Attempt

/-!
# Reasoning about attempts

Attempts are compared and analysed run by run.  `bind_eq_ok` and `bind_eq_error` take a run of two
steps apart.  `Attempt.Related R x y` says that two attempts, from states that are related by `R`,
end in the same way in states that are related; `Attempt.Keeps I x` says that an attempt leaves an
invariant intact, whether or not it fails.
-/

namespace Dataflow
namespace Attempt

variable {σ τ α γ : Type}

/-! ## Runs -/

lemma get_run (s : σ) : (get : Attempt σ σ) s = .ok s s := rfl

lemma modify_run (change : σ → σ) (s : σ) :
    (modify change : Attempt σ Unit) s = .ok () (change s) := rfl

lemma ofExcept_run (x : Except CompileError α) (s : σ) :
    (MonadExcept.ofExcept x : Attempt σ α) s =
      match x with
      | .ok a => .ok a s
      | .error e => .error e s := by
  cases x <;> rfl

lemma bind_run (x : Attempt σ α) (f : α → Attempt σ γ) (s : σ) :
    (x >>= f) s = match x s with
      | .ok a t => f a t
      | .error e t => .error e t := by
  show EStateM.bind x f s = _
  rw [EStateM.bind]
  cases x s <;> rfl

variable {x : Attempt σ α} {f : α → Attempt σ γ} {s u : σ}

/-- A run of two steps succeeds if both do. -/
lemma bind_eq_ok {b : γ} :
    (x >>= f) s = .ok b u ↔ ∃ a t, x s = .ok a t ∧ f a t = .ok b u := by
  rw [bind_run]
  cases x s <;> simp

/-- A run of two steps fails with the first one that does. -/
lemma bind_eq_error {e : CompileError} :
    (x >>= f) s = .error e u ↔
      x s = .error e u ∨ ∃ a t, x s = .ok a t ∧ f a t = .error e u := by
  rw [bind_run]
  cases x s <;> simp

lemma ofExcept_eq_ok {y : Except CompileError α} {a : α} :
    (MonadExcept.ofExcept y : Attempt σ α) s = .ok a u ↔ y = .ok a ∧ s = u := by
  rw [ofExcept_run]
  cases y <;> simp

lemma ofExcept_eq_error {y : Except CompileError α} {e : CompileError} :
    (MonadExcept.ofExcept y : Attempt σ α) s = .error e u ↔ y = .error e ∧ s = u := by
  rw [ofExcept_run]
  cases y <;> simp

/-- Whether an attempt succeeds with a result and a state that pass a test. -/
def succeeds (x : Attempt σ α) (s : σ) (test : α → σ → Bool) : Bool :=
  match x s with
  | .ok a t => test a t
  | .error .. => false

lemma exists_of_succeeds {test : α → σ → Bool} (h : x.succeeds s test = true) :
    ∃ a t, x s = .ok a t ∧ test a t = true := by
  rw [succeeds] at h
  cases hrun : x s with
  | ok a t =>
    rw [hrun] at h
    exact ⟨a, t, rfl, h⟩
  | error e t =>
    rw [hrun] at h
    cases h

/-- The error that an attempt fails with, if it does. -/
def error? (x : Attempt σ α) (s : σ) : Option CompileError :=
  match x s with
  | .ok _ _ => none
  | .error e _ => some e

lemma exists_of_error? {e : CompileError} (h : x.error? s = some e) : ∃ t, x s = .error e t := by
  rw [error?] at h
  cases hrun : x s with
  | ok a t =>
    rw [hrun] at h
    cases h
  | error e' t =>
    rw [hrun] at h
    exact ⟨t, Option.some.inj h ▸ rfl⟩

lemma onBehalfOf_eq_ok {name : String} {a : α} :
    x.onBehalfOf name s = .ok a u ↔ x s = .ok a u := by
  rw [onBehalfOf]
  cases x s <;> simp

lemma onBehalfOf_eq_error {name : String} {e : CompileError} :
    x.onBehalfOf name s = .error e u ↔ ∃ e', x s = .error e' u ∧ e'.withOrigin name = e := by
  rw [onBehalfOf]
  cases x s <;> simp [and_comm]

/-! ## Two attempts -/

/-- Two results that are the same but for the states, which are related. -/
inductive Matches (R : σ → τ → Prop) :
    EStateM.Result CompileError σ α → EStateM.Result CompileError τ α → Prop
  /-- Both succeed. -/
  | ok (a : α) {s : σ} {t : τ} : R s t → Matches R (.ok a s) (.ok a t)
  /-- Both fail. -/
  | error (e : CompileError) {s : σ} {t : τ} : R s t → Matches R (.error e s) (.error e t)

/-- From related states both attempts end in the same way, in related states. -/
def Related (R : σ → τ → Prop) (α : Type) (x : Attempt σ α) (y : Attempt τ α) : Prop :=
  ∀ s t, R s t → Matches R (x s) (y t)

namespace Related

variable {R : σ → τ → Prop} {y : Attempt τ α} {g : α → Attempt τ γ}

lemma pure (a : α) : Related R α (Pure.pure a) (Pure.pure a) := fun _ _ h => .ok a h

lemma ofExcept (x : Except CompileError α) :
    Related R α (MonadExcept.ofExcept x) (MonadExcept.ofExcept x) := by
  intro s t h
  cases x with
  | ok a => exact .ok a h
  | error e => exact .error e h

lemma bind (hx : Related R α x y) (hf : ∀ a, Related R γ (f a) (g a)) :
    Related R γ (x >>= f) (y >>= g) := by
  intro s t h
  have hxy := hx s t h
  rw [bind_run, bind_run]
  generalize x s = rx at hxy ⊢
  generalize y t = ry at hxy ⊢
  cases hxy with
  | ok a h => exact hf a _ _ h
  | error e h => exact .error e h

lemma onBehalfOf (name : String) (hx : Related R α x y) :
    Related R α (x.onBehalfOf name) (y.onBehalfOf name) := by
  intro s t h
  have hxy := hx s t h
  unfold Attempt.onBehalfOf
  generalize x s = rx at hxy ⊢
  generalize y t = ry at hxy ⊢
  cases hxy with
  | ok a h => exact .ok a h
  | error e h => exact .error _ h

lemma change {next : σ → σ} {next' : τ → τ} (h : ∀ s t, R s t → R (next s) (next' t)) :
    Related R Unit (modify next) (modify next') :=
  fun s t hst => .ok () (h s t hst)

end Related

/-! ## Invariants -/

/-- The attempt leaves the invariant intact, whether or not it fails. -/
def Keeps (I : σ → Prop) (α : Type) (x : Attempt σ α) : Prop :=
  ∀ s, I s → I (x.after s)

namespace Keeps

variable {I : σ → Prop}

lemma pure (a : α) : Keeps I α (Pure.pure a) := fun _ h => h

lemma ofExcept (x : Except CompileError α) : Keeps I α (MonadExcept.ofExcept x) := by
  intro s h
  cases x <;> exact h

lemma bind (hx : Keeps I α x) (hf : ∀ a, Keeps I γ (f a)) : Keeps I γ (x >>= f) := by
  intro s hs
  have hkept := hx s hs
  rw [after, bind_run]
  rw [after] at hkept
  generalize x s = result at hkept ⊢
  cases result with
  | ok a t => exact hf a t hkept
  | error e t => exact hkept

lemma onBehalfOf (name : String) (hx : Keeps I α x) : Keeps I α (x.onBehalfOf name) := by
  intro s hs
  rw [after_onBehalfOf]
  exact hx s hs

end Keeps

end Attempt
end Dataflow
