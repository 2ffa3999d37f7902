import Dataflow.Proofs.Compiler.Congruence
import Dataflow.Proofs.Storage.Table

/-!
# The same with other numbers

Variables are numbered in the order of their declaration, and their numbers show in two more places:
in the names of variables that were declared without one, and in some faults of the backend.  Here
it is said when a fault or an error is the same but for the numbers (`BackendFault.Renumbered`,
`CompileError.Renumbered`), and when an attempt does the same as another one but for the numbers, as
long as it does not run out of storage (`Attempt.Replays`).
-/

namespace Dataflow

open Renames

/-- The number of a variable before which `count` variables more are declared. -/
def VarId.shift (count : ℕ) (id : VarId) : VarId := ⟨id.index + count⟩

/-- A variable with another number.  Unless it is a parameter, its name is made of its number. -/
def Variable.renumber (ρ : VarId → VarId) (var : Variable) : Variable :=
  { var with
    id := ρ var.id
    name := if var.storage.isParameter then var.name
      else var.storage.letter ++ "_" ++ toString (ρ var.id).index }

/-- What a proper specification describes is renumbered by giving it another number. -/
lemma VariableSpec.Proper.renumber {spec : VariableSpec} (h : spec.Proper) (ρ : VarId → VarId)
    (id : VarId) (allocated : Bool) :
    ((spec.variable id).withAllocated allocated).renumber ρ =
      (spec.variable (ρ id)).withAllocated allocated := by
  obtain ⟨name, storage, elementType, size, initializer⟩ := spec
  cases name <;> cases storage <;> first | rfl | cases h

/-- The name of a parameter does not depend on its number. -/
lemma VariableSpec.Proper.name_eq {spec : VariableSpec} (h : spec.Proper)
    (hparameter : spec.storage.isParameter = true) (id id' : VarId) :
    (spec.variable id).name = (spec.variable id').name := by
  obtain ⟨name, hname⟩ := Option.isSome_iff_exists.mp (h.trans hparameter)
  rw [VariableSpec.variable, VariableSpec.variable, hname]
  rfl

/-! ## Errors -/

/-- The second fault is the first one with other numbers of variables, and other names of variables
where these are made of the numbers. -/
inductive BackendFault.Renumbered (ρ : VarId → VarId) : BackendFault → BackendFault → Prop
  /-- A fault that mentions no number. -/
  | anonymous {fault : BackendFault} : fault.Anonymous → Renumbered ρ fault fault
  /-- A variable that does not exist. -/
  | unknownVariable (id : VarId) : Renumbered ρ (.unknownVariable id) (.unknownVariable (ρ id))
  /-- A slice of a variable that was declared in the same way. -/
  | sliceOutOfBounds (slice : Slice) {spec : VariableSpec} : spec.Proper →
    Renumbered ρ (.sliceOutOfBounds slice (spec.variable slice.var).name spec.size)
      (.sliceOutOfBounds (rename ρ slice) (spec.variable (ρ slice.var)).name spec.size)
  /-- An instruction. -/
  | lengthMismatch (instruction : Instruction) :
    Renumbered ρ (.lengthMismatch instruction) (.lengthMismatch (rename ρ instruction))

/-- The second error is the first one with other numbers of variables, and other names of variables
where these are made of the numbers. -/
inductive CompileError.Renumbered (ρ : VarId → VarId) : CompileError → CompileError → Prop
  /-- An error in the graph, which mentions no variables of the backend. -/
  | graph {e : CompileError} : e.BlamesGraph → Renumbered ρ e e
  /-- A refusal by the backend, for the same origin. -/
  | backend (origin : String) {fault fault' : BackendFault} : fault.Renumbered ρ fault' →
    Renumbered ρ (.backend origin fault) (.backend origin fault')

/-- The storage limit was reached. -/
def CompileError.Exhausted (e : CompileError) : Prop :=
  ∃ origin limit name size, e = .backend origin (.storageExhausted limit name size)

/-- An error that quotes no number of a variable, unless it says that the storage limit was reached.
-/
def CompileError.Portable : CompileError → Prop
  | structural .. | unboundReference .. => True
  | backend _ fault =>
    fault.Anonymous ∨ ∃ limit name size, fault = .storageExhausted limit name size

namespace CompileError

variable {ρ : VarId → VarId} {e e' : CompileError}

lemma Renumbered.withOrigin (h : e.Renumbered ρ e') (name : String) :
    (e.withOrigin name).Renumbered ρ (e'.withOrigin name) := by
  cases h with
  | graph hgraph =>
    rw [hgraph.withOrigin_eq]
    exact .graph hgraph
  | backend origin hfault =>
    by_cases horigin : origin = ""
    · simp only [CompileError.withOrigin, if_pos horigin]
      exact .backend name hfault
    · simp only [CompileError.withOrigin, if_neg horigin]
      exact .backend origin hfault

lemma Exhausted.withOrigin (h : e.Exhausted) (name : String) : (e.withOrigin name).Exhausted := by
  obtain ⟨origin, limit, var, size, rfl⟩ := h
  by_cases horigin : origin = ""
  · exact ⟨name, limit, var, size, if_pos horigin⟩
  · exact ⟨origin, limit, var, size, if_neg horigin⟩

lemma BlamesGraph.portable (h : e.BlamesGraph) : e.Portable := by
  cases e with
  | structural | unboundReference => trivial
  | backend => exact h.elim

lemma Portable.withOrigin (h : e.Portable) (name : String) : (e.withOrigin name).Portable := by
  cases e with
  | structural | unboundReference => trivial
  | backend origin fault =>
    by_cases horigin : origin = ""
    · rw [CompileError.withOrigin, if_pos horigin]
      exact h
    · rw [CompileError.withOrigin, if_neg horigin]
      exact h

/-- An error that quotes no number is the same with other numbers. -/
lemma Renumbered.eq (h : e.Renumbered ρ e') (hportable : e.Portable) : e' = e := by
  cases h with
  | graph => rfl
  | backend origin hfault =>
    cases hfault with
    | anonymous => rfl
    | unknownVariable | sliceOutOfBounds | lengthMismatch =>
      obtain hanonymous | ⟨limit, name, size, heq⟩ := hportable
      · exact hanonymous.elim
      · cases heq

end CompileError

/-! ## Answers of the backend -/

/-- Two requests that are granted with related results, or refused with the same fault but for the
numbers of variables. -/
inductive AnsweredAlike (ρ : VarId → VarId) {α γ : Type} (R : α → γ → Prop) :
    Except BackendFault α → Except BackendFault γ → Prop
  /-- Both are granted. -/
  | granted {a : α} {b : γ} : R a b → AnsweredAlike ρ R (.ok a) (.ok b)
  /-- Both are refused. -/
  | refused {fault fault' : BackendFault} : fault.Renumbered ρ fault' →
    AnsweredAlike ρ R (.error fault) (.error fault')

namespace AnsweredAlike

variable {ρ : VarId → VarId} {α γ : Type} {R : α → γ → Prop}

lemma andThen {x x' : Except BackendFault Unit} {y : Except BackendFault α}
    {y' : Except BackendFault γ} (h : AnsweredAlike ρ Eq x x') (hy : AnsweredAlike ρ R y y') :
    AnsweredAlike ρ R (x >>= fun _ => y) (x' >>= fun _ => y') := by
  cases h with
  | granted _ => exact hy
  | refused hfault => exact .refused hfault

lemma forM {ι : Type} [Renames ι] {f g : ι → Except BackendFault Unit}
    (h : ∀ a, AnsweredAlike ρ Eq (f a) (g (rename ρ a))) (list : List ι) :
    AnsweredAlike ρ Eq (list.forM f) ((rename ρ list).forM g) := by
  induction list with
  | nil => exact .granted rfl
  | cons a rest ih => exact (h a).andThen ih

end AnsweredAlike

/-! ## Attempts -/

namespace Attempt

variable {σ τ α γ : Type}

/-- The second result is the first one but for the numbers of variables, unless storage was
exhausted on the way to it.  The states are related if both attempts have succeeded. -/
inductive Repeats (R : σ → τ → Prop) (ρ : VarId → VarId) [Renames α] :
    EStateM.Result CompileError σ α → EStateM.Result CompileError τ α → Prop
  /-- Both succeed. -/
  | ok (a : α) {s : σ} {t : τ} : R s t → Repeats R ρ (.ok a s) (.ok (rename ρ a) t)
  /-- Both fail. -/
  | error {e e' : CompileError} {s : σ} {t : τ} : e.Renumbered ρ e' →
    Repeats R ρ (.error e s) (.error e' t)
  /-- The storage limit was reached. -/
  | exhausted {result : EStateM.Result CompileError σ α} {e : CompileError} {t : τ} : e.Exhausted →
    Repeats R ρ result (.error e t)

/-- From related states the second attempt repeats what the first one does. -/
def Replays (R : σ → τ → Prop) (ρ : VarId → VarId) (α : Type) [Renames α] (x : Attempt σ α)
    (y : Attempt τ α) : Prop :=
  ∀ s t, R s t → Repeats R ρ (x s) (y t)

variable {R R' : σ → τ → Prop} {ρ : VarId → VarId} [Renames α] [Renames γ]
variable {x : Attempt σ α} {y : Attempt τ α} {f : α → Attempt σ γ} {g : α → Attempt τ γ}

/-- What follows a step has to be compared for the results of that step only. -/
lemma Repeats.bind {s : σ} {t : τ} (hx : Repeats R ρ (x s) (y t))
    (hf : ∀ a s' t', x s = .ok a s' → R s' t' → Repeats R' ρ (f a s') (g (rename ρ a) t')) :
    Repeats R' ρ ((x >>= f) s) ((y >>= g) t) := by
  rw [bind_run, bind_run]
  generalize hs : x s = result at hx hf ⊢
  generalize y t = result' at hx ⊢
  cases hx with
  | ok a h => exact hf a _ _ rfl h
  | error he => exact .error he
  | exhausted he => exact .exhausted he

lemma Repeats.onBehalfOf {s : σ} {t : τ} (h : Repeats R ρ (x s) (y t)) (name : String) :
    Repeats R ρ (x.onBehalfOf name s) (y.onBehalfOf name t) := by
  unfold Attempt.onBehalfOf
  generalize x s = result at h ⊢
  generalize y t = result' at h ⊢
  cases h with
  | ok a h => exact .ok a h
  | error he => exact .error (he.withOrigin name)
  | exhausted he => exact .exhausted (he.withOrigin name)

namespace Replays

lemma pure (a : α) : Replays R ρ α (Pure.pure a) (Pure.pure (rename ρ a)) :=
  fun _ _ h => .ok a h

lemma ofExcept {x : Except CompileError α} (hx : GraphCheck x) :
    Replays R ρ α (MonadExcept.ofExcept x) (MonadExcept.ofExcept (x.map (rename ρ))) := by
  intro s t h
  cases x with
  | ok a => exact .ok a h
  | error e => exact .error (.graph (hx e rfl))

lemma bind (hx : Replays R ρ α x y) (hf : ∀ a, Replays R ρ γ (f a) (g (rename ρ a))) :
    Replays R ρ γ (x >>= f) (y >>= g) :=
  fun s t h => (hx s t h).bind fun a s' t' _ h' => hf a s' t' h'

lemma onBehalfOf (hx : Replays R ρ α x y) (name : String) :
    Replays R ρ α (x.onBehalfOf name) (y.onBehalfOf name) :=
  fun s t h => (hx s t h).onBehalfOf name

lemma modify {change : σ → σ} {change' : τ → τ} (h : ∀ s t, R s t → R (change s) (change' t)) :
    Replays R ρ Unit (modify change) (modify change') :=
  fun s t hst => .ok () (h s t hst)

end Replays
end Attempt
end Dataflow
