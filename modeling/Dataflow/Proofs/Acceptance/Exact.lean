import Dataflow.Proofs.Compiler.Renumbering

/-!
# Exact conditions for success

`Attempt.Exact x s p Q` says when an attempt succeeds, in both directions: from the state `s` the
attempt `x` succeeds just under the condition `p`, and then ends with a result and a state that `Q`
describes.  If it fails, the error quotes no number of a variable, unless storage has run out.
Conditions of steps that follow each other are joined by `Exact.bind`, so what a program checks on
its way is read off its text.  The condition of a later step may not depend on the result of an
earlier one; what it needs to know of that result has to be in `Q`.
-/

namespace Dataflow
namespace Attempt

variable {σ α γ : Type}

/-- The attempt succeeds just under a condition, and then ends in a certain way. -/
structure Exact (x : Attempt σ α) (s : σ) (p : Prop) (Q : α → σ → Prop) : Prop where
  sound : ∀ {a t}, x s = .ok a t → p ∧ Q a t
  complete : p → ∃ a t, x s = .ok a t
  portable : ∀ {e t}, x s = .error e t → e.Portable

namespace Exact

variable {x : Attempt σ α} {s t : σ} {p q : Prop} {Q : α → σ → Prop} {R : γ → σ → Prop}

/-- Under its condition an attempt succeeds as described. -/
lemma run (h : Exact x s p Q) (hp : p) : ∃ a t, x s = .ok a t ∧ Q a t := by
  obtain ⟨a, t, hrun⟩ := h.complete hp
  exact ⟨a, t, hrun, (h.sound hrun).2⟩

lemma congr {Q' : α → σ → Prop} (h : Exact x s p Q) (hpq : p ↔ q)
    (hQ : p → ∀ a t, Q a t → Q' a t) : Exact x s q Q' where
  sound hrun := ⟨hpq.mp (h.sound hrun).1, hQ (h.sound hrun).1 _ _ (h.sound hrun).2⟩
  complete hq := h.complete (hpq.mpr hq)
  portable := h.portable

/-- The condition may be said in another way. -/
lemma iff (h : Exact x s p Q) (hpq : p ↔ q) : Exact x s q Q := h.congr hpq fun _ _ _ hQ => hQ

/-- Less may be said of the end. -/
lemma mono {Q' : α → σ → Prop} (h : Exact x s p Q) (hQ : p → ∀ a t, Q a t → Q' a t) :
    Exact x s p Q' := h.congr Iff.rfl hQ

/-- More may be known of the end if the condition is true. -/
lemma and {P : α → σ → Prop} (h : Exact x s p Q) (hP : ∀ {a t}, x s = .ok a t → P a t) :
    Exact x s p fun a t => Q a t ∧ P a t where
  sound hrun := ⟨(h.sound hrun).1, (h.sound hrun).2, hP hrun⟩
  complete := h.complete
  portable := h.portable

/-- An attempt that succeeds has a condition that is true. -/
lemma of_ok {a : α} (h : x s = .ok a t) (hQ : Q a t) : Exact x s True Q where
  sound hrun := by
    obtain ⟨rfl, rfl⟩ := EStateM.Result.ok.inj (h.symm.trans hrun)
    exact ⟨trivial, hQ⟩
  complete _ := ⟨a, t, h⟩
  portable hrun := nomatch h.symm.trans hrun

/-- An attempt that fails has a condition that is not true. -/
lemma of_error {e : CompileError} (hp : ¬ p) (h : x s = .error e t) (he : e.Portable) :
    Exact x s p Q where
  sound hrun := nomatch h.symm.trans hrun
  complete hp' := absurd hp' hp
  portable hrun := (EStateM.Result.error.inj (h.symm.trans hrun)).1 ▸ he

lemma pure (a : α) : Exact (Pure.pure a) s True fun b t => b = a ∧ t = s := .of_ok rfl ⟨rfl, rfl⟩

/-- A check succeeds or blames the graph. -/
lemma ofExcept {y : Except CompileError α} (hy : GraphCheck y) :
    Exact (MonadExcept.ofExcept y) s (∃ a, y = .ok a) fun a t => y = .ok a ∧ t = s where
  sound hrun := by
    obtain ⟨hy, rfl⟩ := ofExcept_eq_ok.mp hrun
    exact ⟨⟨_, hy⟩, hy, rfl⟩
  complete hy := by
    obtain ⟨a, ha⟩ := hy
    exact ⟨a, s, ofExcept_eq_ok.mpr ⟨ha, rfl⟩⟩
  portable hrun := (hy _ (ofExcept_eq_error.mp hrun).1).portable

lemma change (next : σ → σ) :
    Exact (modify next : Attempt σ Unit) s True fun _ t => t = next s := .of_ok rfl rfl

lemma bind {f : α → Attempt σ γ} (hx : Exact x s p Q)
    (hf : p → ∀ a t, Q a t → Exact (f a) t q R) : Exact (x >>= f) s (p ∧ q) R where
  sound hrun := by
    obtain ⟨a, t, ha, hb⟩ := bind_eq_ok.mp hrun
    obtain ⟨hp, hQ⟩ := hx.sound ha
    obtain ⟨hq, hR⟩ := (hf hp a t hQ).sound hb
    exact ⟨⟨hp, hq⟩, hR⟩
  complete hpq := by
    obtain ⟨a, t, ha, hQ⟩ := hx.run hpq.1
    obtain ⟨b, u, hb⟩ := (hf hpq.1 a t hQ).complete hpq.2
    exact ⟨b, u, bind_eq_ok.mpr ⟨a, t, ha, hb⟩⟩
  portable hrun := by
    rcases bind_eq_error.mp hrun with hfirst | ⟨a, t, ha, hnext⟩
    · exact hx.portable hfirst
    · obtain ⟨hp, hQ⟩ := hx.sound ha
      exact (hf hp a t hQ).portable hnext

/-- After a check the state is what it was. -/
lemma check_bind {f : α → Attempt σ γ} (hx : Exact x s p Q) (hkeeps : ∀ {a t}, Q a t → t = s)
    (hf : p → ∀ a, Q a s → Exact (f a) s q R) : Exact (x >>= f) s (p ∧ q) R :=
  hx.bind fun hp a t hQ => by
    obtain rfl : t = s := hkeeps hQ
    exact hf hp a hQ

/-- A step that always succeeds adds no condition. -/
lemma bind_always {f : α → Attempt σ γ} (hx : Exact x s p Q)
    (hf : p → ∀ a t, Q a t → Exact (f a) t True R) : Exact (x >>= f) s p R :=
  (hx.bind hf).iff (and_iff_left trivial)

lemma always_bind {f : α → Attempt σ γ} (hx : Exact x s True Q)
    (hf : ∀ a t, Q a t → Exact (f a) t q R) : Exact (x >>= f) s q R :=
  (hx.bind fun _ => hf).iff (iff_of_eq (true_and q))

lemma of_run {y : Attempt σ α} (h : x s = y s) (hy : Exact y s p Q) : Exact x s p Q where
  sound hrun := hy.sound (h ▸ hrun)
  complete hp := by
    rw [h]
    exact hy.complete hp
  portable hrun := hy.portable (h ▸ hrun)

/-- Reading the state is no step. -/
lemma look {f : σ → Attempt σ γ} (hf : Exact (f s) s p R) : Exact (get >>= f) s p R :=
  ⟨hf.sound, hf.complete, hf.portable⟩

lemma onBehalfOf {name : String} (h : Exact x s p Q) : Exact (x.onBehalfOf name) s p Q where
  sound hrun := h.sound (onBehalfOf_eq_ok.mp hrun)
  complete hp := by
    obtain ⟨a, t, hrun⟩ := h.complete hp
    exact ⟨a, t, onBehalfOf_eq_ok.mpr hrun⟩
  portable hrun := by
    obtain ⟨e, hfailed, rfl⟩ := onBehalfOf_eq_error.mp hrun
    exact (h.portable hfailed).withOrigin name

lemma discard (h : Exact x s p Q) : Exact (Functor.discard x) s p fun _ t => ∃ a, Q a t := by
  rw [discard_eq]
  refine (h.bind (q := True) (R := fun _ t => ∃ a, Q a t) fun _ a t hQ =>
    (Exact.pure ()).mono ?_).iff (and_iff_left trivial)
  rintro - _ _ ⟨-, rfl⟩
  exact ⟨a, hQ⟩

end Exact
end Attempt
end Dataflow
