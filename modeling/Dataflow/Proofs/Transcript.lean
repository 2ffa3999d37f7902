import Mathlib

/-!
# Transcripts

A machine serves one request after another: it answers each and moves on to another state.  Its
transcript is the list of answers together with the state it ends in.  Two machines that agree from
step to step have the same answers in all transcripts.
-/

namespace Dataflow

variable {σ τ ρ α : Type}

/-- The answers of a machine to a list of requests, and the state it ends in. -/
def transcript (serve : σ → ρ → α × σ) : σ → List ρ → List α × σ
  | state, [] => ([], state)
  | state, request :: rest =>
    let (answer, next) := serve state request
    let (answers, last) := transcript serve next rest
    (answer :: answers, last)

variable {serve : σ → ρ → α × σ} {serve' : τ → ρ → α × τ}

@[simp] lemma transcript_nil (state : σ) : transcript serve state [] = ([], state) := rfl

@[simp] lemma transcript_cons (state : σ) (request : ρ) (rest : List ρ) :
    transcript serve state (request :: rest) =
      ((serve state request).1 :: (transcript serve (serve state request).2 rest).1,
        (transcript serve (serve state request).2 rest).2) := rfl

lemma transcript_append (state : σ) (requests later : List ρ) :
    transcript serve state (requests ++ later) =
      ((transcript serve state requests).1 ++
          (transcript serve (transcript serve state requests).2 later).1,
        (transcript serve (transcript serve state requests).2 later).2) := by
  induction requests generalizing state with
  | nil => rfl
  | cons first rest ih =>
    rw [List.cons_append, transcript_cons, ih (serve state first).2]
    rfl

lemma transcript_concat (state : σ) (requests : List ρ) (request : ρ) :
    (transcript serve state (requests ++ [request])).2 =
      (serve (transcript serve state requests).2 request).2 := by
  rw [transcript_append]
  rfl

/-- What every step preserves holds of the last state. -/
lemma transcript_invariant {P : σ → Prop} (hstep : ∀ s r, P s → P (serve s r).2) {s : σ}
    (hs : P s) (requests : List ρ) : P (transcript serve s requests).2 := by
  induction requests generalizing s with
  | nil => exact hs
  | cons request rest ih => exact ih (hstep s request hs)

/-- What every step preserves holds of the requests, the answers and the last state. -/
lemma transcript_accumulate {P : List ρ → List α → σ → Prop} {start : σ} (hstart : P [] [] start)
    (hstep : ∀ requests answers s r, P requests answers s →
      P (requests ++ [r]) (answers ++ [(serve s r).1]) (serve s r).2) (requests : List ρ) :
    P requests (transcript serve start requests).1 (transcript serve start requests).2 := by
  induction requests using List.reverseRecOn with
  | nil => exact hstart
  | append_singleton requests request ih =>
    rw [transcript_append]
    exact hstep _ _ _ request ih

/-- What every pair of steps preserves holds of the two last states. -/
lemma transcript_related {R : σ → τ → Prop}
    (hstep : ∀ s t r, R s t → R (serve s r).2 (serve' t r).2) {s : σ} {t : τ} (h : R s t)
    (requests : List ρ) : R (transcript serve s requests).2 (transcript serve' t requests).2 := by
  induction requests generalizing s t with
  | nil => exact h
  | cons request rest ih => exact ih (hstep s t request h)

/-- Machines whose steps agree, from states that are related to states that are related, have the
same answers and end in related states. -/
lemma transcript_simulation {R : σ → τ → Prop}
    (hstep : ∀ s t r, R s t → (serve s r).1 = (serve' t r).1 ∧ R (serve s r).2 (serve' t r).2)
    {s : σ} {t : τ} (h : R s t) (requests : List ρ) :
    (transcript serve s requests).1 = (transcript serve' t requests).1 ∧
      R (transcript serve s requests).2 (transcript serve' t requests).2 := by
  induction requests generalizing s t with
  | nil => exact ⟨rfl, h⟩
  | cons request rest ih =>
    obtain ⟨hanswer, hnext⟩ := hstep s t request h
    obtain ⟨hanswers, hlast⟩ := ih hnext
    exact ⟨by simp only [transcript_cons, hanswer, hanswers], hlast⟩

/-! ## Some of the requests -/

/-- The requests whose answers pass a test. -/
def answered (test : α → Bool) (requests : List ρ) (answers : List α) : List ρ :=
  ((requests.zip answers).filter fun served => test served.2).map Prod.fst

/-- If a request leaves the state alone unless its answer passes the test, then the others may be
left out. -/
lemma transcript_answered {test : α → Bool}
    (hkeep : ∀ s r, test (serve s r).1 = false → (serve s r).2 = s) (s : σ) (requests : List ρ) :
    transcript serve s (answered test requests (transcript serve s requests).1) =
      ((transcript serve s requests).1.filter test, (transcript serve s requests).2) := by
  induction requests generalizing s with
  | nil => rfl
  | cons request rest ih =>
    have hrest := ih (serve s request).2
    rw [answered] at hrest
    cases htest : test (serve s request).1 with
    | true =>
      simp only [answered, transcript_cons, List.zip_cons_cons, htest, List.filter_cons_of_pos,
        List.map_cons, hrest]
    | false =>
      rw [hkeep s request htest] at hrest
      simpa only [answered, transcript_cons, List.zip_cons_cons, htest, List.filter_cons_of_neg,
        Bool.false_eq_true, not_false_eq_true, hkeep s request htest] using hrest

end Dataflow
