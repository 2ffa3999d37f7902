import Dataflow.Proofs.Backend.Operations

/-!
# Histories of an assembler

Whoever has an assembler at hand may ask it for anything in any order.  `Assembler.run` is what it
has become after a list of operations, refused ones included.  Most operations work on the open
function only (`Operation.isInner`, `perform_inner`): the storage is a matter of declaring and
allocating variables and of ending and discarding functions.
-/

namespace Dataflow
namespace Assembler

/-- What can be asked of an assembler. -/
inductive Operation where
  /-- To add a variable to the table. -/
  | declare (spec : VariableSpec)
  /-- To reserve storage for a variable. -/
  | allocate (id : VarId)
  /-- To begin a function. -/
  | beginFunction (name : String) (parameters : List Parameter)
  /-- To open the region of a node. -/
  | openRegion (node : NodeId)
  /-- To append an instruction. -/
  | emit (instruction : Instruction)
  /-- To fold the region of a node into the region before it. -/
  | mergeRegion (node : NodeId)
  /-- To fold the region of a source node into that of a target node. -/
  | mergeRegions (target source : NodeId)
  /-- To end the open function. -/
  | endFunction
  /-- To discard the open function. -/
  | discardFunction

/-- What an operation makes of an assembler, whether or not it is refused. -/
def perform (a : Assembler) : Operation → Assembler
  | .declare spec => Backend.declare spec a
  | .allocate id => (Backend.allocate id).after a
  | .beginFunction name parameters => (Backend.beginFunction name parameters).after a
  | .openRegion node => (Backend.openRegion node).after a
  | .emit instruction => (Backend.emit instruction).after a
  | .mergeRegion node => (Backend.mergeRegion node a).2
  | .mergeRegions target source => (Backend.mergeRegions target source a).2
  | .endFunction => Backend.endFunction.after a
  | .discardFunction => Backend.discardFunction a

/-- What a list of operations makes of an assembler. -/
def run (a : Assembler) (history : List Operation) : Assembler := history.foldl perform a

variable {a next : Assembler}

/-- What every operation preserves holds at the end of a history. -/
lemma run_invariant {J : Assembler → Prop} (hstep : ∀ a operation, J a → J (a.perform operation))
    (h : J a) (history : List Operation) : J (a.run history) := by
  induction history generalizing a with
  | nil => exact h
  | cons operation rest ih => exact ih (hstep a operation h)

/-! ## Single operations -/

/-- A step that is refused leaves the assembler alone. -/
lemma after_change (step : Assembler → Except BackendFault Assembler) (a : Assembler) :
    (Attempt.change step).after a = (step a).toOption.getD a := by
  rw [Attempt.after, Attempt.change]
  cases step a <;> rfl

lemma perform_allocate (a : Assembler) (id : VarId) :
    a.perform (.allocate id) = (a.allocate id).toOption.getD a :=
  after_change (fun a => Assembler.allocate a id) a

lemma perform_endFunction (a : Assembler) :
    a.perform .endFunction = a.endFunction.toOption.getD a := after_change Assembler.endFunction a

namespace Operation

/-- Whether an operation works on the open function only. -/
def isInner : Operation → Bool
  | beginFunction .. | openRegion _ | emit _ | mergeRegion _ | mergeRegions .. => true
  | declare _ | allocate _ | endFunction | discardFunction => false

end Operation

/-- An operation that works on the open function only changes nothing else. -/
lemma perform_inner (a : Assembler) {operation : Operation} (h : operation.isInner = true) :
    ∃ pending, a.perform operation = { a with pending } := by
  have hchange : ∀ step : Assembler → Except BackendFault Assembler,
      (∀ next, step a = .ok next → ∃ pending, next = { a with pending }) →
      ∃ pending, (Attempt.change step).after a = { a with pending } := by
    intro step hstep
    rw [after_change]
    cases hnext : step a with
    | error fault => exact ⟨a.pending, rfl⟩
    | ok next => exact hstep next hnext
  cases operation with
  | declare | allocate | endFunction | discardFunction => cases h
  | beginFunction name parameters =>
    exact hchange (fun a => a.beginFunction name parameters) fun _ => beginFunction_frame
  | openRegion node => exact hchange (fun a => a.openRegion node) fun _ => openRegion_frame
  | emit instruction => exact hchange (fun a => a.emit instruction) fun _ => emit_frame
  | mergeRegion node => exact a.mergeRegion_frame node
  | mergeRegions target source => exact a.mergeRegions_frame target source

/-- **What a single operation does.**  A property of an operation and what it leads to holds if it
holds in each of these cases. -/
theorem perform_cases {P : Operation → Assembler → Prop} (a : Assembler)
    (inner : ∀ {operation pending}, operation.isInner = true → P operation { a with pending })
    (declare : ∀ spec, P (.declare spec) (a.declare spec))
    (allocate : ∀ {id next}, a.allocate id = .ok next → P (.allocate id) next)
    (allocateRefused : ∀ {id fault}, a.allocate id = .error fault → P (.allocate id) a)
    (endFunction : ∀ {next}, a.endFunction = .ok next → P .endFunction next)
    (endRefused : ∀ {fault}, a.endFunction = .error fault → P .endFunction a)
    (discardFunction : P .discardFunction a.discardFunction) (operation : Operation) :
    P operation (a.perform operation) := by
  -- five of the nine operations touch the open function only, so one case covers them
  by_cases hinner : operation.isInner = true
  · obtain ⟨pending, hperform⟩ := a.perform_inner hinner
    rw [hperform]
    exact inner hinner
  cases operation with
  | beginFunction | openRegion | emit | mergeRegion | mergeRegions => exact absurd rfl hinner
  | declare spec => exact declare spec
  | discardFunction => exact discardFunction
  | allocate id =>
    rw [perform_allocate]
    cases hnext : a.allocate id with
    | error fault => exact allocateRefused hnext
    | ok next => exact allocate hnext
  | endFunction =>
    rw [perform_endFunction]
    cases hnext : a.endFunction with
    | error fault => exact endRefused hnext
    | ok next => exact endFunction hnext

lemma limit_perform (a : Assembler) (operation : Operation) :
    (a.perform operation).limit = a.limit := by
  refine perform_cases (P := fun _ b => b.limit = a.limit) a (fun _ => rfl) (fun _ => rfl)
    (fun hnext => ?_) (fun _ => rfl) (fun hnext => ?_) (fun _ => rfl) rfl operation
  · obtain ⟨_, -, -, -, rfl⟩ := allocate_eq_ok.mp hnext
    rfl
  · obtain ⟨_, -, rfl⟩ := endFunction_eq_ok.mp hnext
    rfl

lemma limit_run (a : Assembler) (history : List Operation) : (a.run history).limit = a.limit :=
  run_invariant (J := fun b => b.limit = a.limit)
    (fun b operation h => (b.limit_perform operation).trans h) rfl history

end Assembler
end Dataflow
