import Dataflow.Proofs.Backend.Stepwise

/-!
# Refused operations leave no trace

Whoever uses an assembler may ask for anything in any order, and some of it will be refused.  A
refused operation changes nothing, so leaving out all of them changes neither the other answers nor
what the assembler has become (`Assembler.refusals_leave_no_trace`).  That holds of the operations
update by update as well.

Functions that are finished stay.  No two of them have the same name: a name is compared with those
of the finished functions when a function begins, and none is finished until that one is.
-/

namespace Dataflow
namespace Assembler

variable {a : Assembler}

/-! ## Answers -/

lemma serve_snd (a : Assembler) (operation : Operation) :
    (a.serve operation).2 = a.perform operation := by
  have hrun : ∀ {α : Type} (reply : α → Reply) (step : Attempt Assembler α),
      (Reply.ofRun reply (step a)).2 = step.after a := by
    intro α reply step
    rw [Attempt.after]
    cases step a <;> rfl
  cases operation with
  | declare | mergeRegion | mergeRegions | discardFunction => rfl
  | allocate | beginFunction | openRegion | emit | endFunction => exact hrun _ _

/-- A refused operation leaves the assembler as it was. -/
lemma serve_refused {operation : Operation} (h : (a.serve operation).1.refused = true) :
    (a.serve operation).2 = a := by
  have hrun : ∀ {reply : Unit → Reply} {step : Assembler → Except BackendFault Assembler},
      (∀ result, (reply result).refused = false) →
      (Reply.ofRun reply (Attempt.change step a)).1.refused = true →
      (Reply.ofRun reply (Attempt.change step a)).2 = a := by
    intro reply step hreply hrefused
    rw [Attempt.change] at hrefused ⊢
    cases hstep : step a with
    | ok next =>
      rw [hstep] at hrefused
      exact absurd hrefused (by rw [Reply.ofRun, hreply]; exact Bool.false_ne_true)
    | error fault => rfl
  have hmerge : ∀ {next : Option Assembler},
      ((a.accept next).map Reply.merged id).1.refused = true →
      ((a.accept next).map Reply.merged id).2 = a := by
    intro next hrefused
    cases next with
    | none => rfl
    | some next => cases hrefused
  cases operation with
  | declare | discardFunction => cases h
  | allocate | beginFunction | openRegion | emit | endFunction => exact hrun (fun _ => rfl) h
  | mergeRegion | mergeRegions => exact hmerge h

/-! ## Finished functions -/

/-- Finished functions stay as they are. -/
lemma functions_perform (a : Assembler) (operation : Operation) :
    a.program.functions <+: (a.perform operation).program.functions := by
  refine perform_cases (P := fun _ b => a.program.functions <+: b.program.functions) a
    (fun _ => List.prefix_rfl) (fun _ => List.prefix_rfl) (fun hnext => ?_)
    (fun _ => List.prefix_rfl) (fun hnext => ?_) (fun _ => List.prefix_rfl) List.prefix_rfl
    operation
  · obtain ⟨_, -, -, -, rfl⟩ := allocate_eq_ok.mp hnext
    exact List.prefix_rfl
  · obtain ⟨pending, -, rfl⟩ := endFunction_eq_ok.mp hnext
    exact List.prefix_append _ _

/-- What an operation on the open function makes of it: nothing, a new one, or the same with a
request to its regions served. -/
inductive Reopened (a : Assembler) : Assembler → Prop
  /-- Nothing has changed. -/
  | same : Reopened a a
  /-- A function has begun. -/
  | begun (name : String) (parameters : List Parameter) (vars : List VarId) :
    a.program.function? name = none →
    Reopened a (a.withPending ⟨name, parameters, vars, .empty a.policy⟩)
  /-- A request to the regions has been served. -/
  | served {pending : PendingFunction} (request : RegionRequest) : a.pending = some pending →
    Reopened a (a.withPending { pending with regions := (pending.regions.serve request).2 })

lemma reopened_perform {operation : Operation} (h : operation.isInner = true) :
    a.Reopened (a.perform operation) := by
  have hchange : ∀ step : Assembler → Except BackendFault Assembler,
      (∀ next, step a = .ok next → a.Reopened next) →
      a.Reopened ((Attempt.change step).after a) := by
    intro step hstep
    rw [after_change]
    cases hnext : step a with
    | error fault => exact .same
    | ok next => exact hstep next hnext
  have hmerge : ∀ answer : Option Assembler, (∀ next, answer = some next → a.Reopened next) →
      a.Reopened (a.accept answer).2 := by
    intro answer hanswer
    cases answer with
    | none => exact .same
    | some next => exact hanswer next rfl
  cases operation with
  | declare | allocate | endFunction | discardFunction => cases h
  | beginFunction name parameters =>
    refine hchange (fun a => a.beginFunction name parameters) fun next hnext => ?_
    obtain ⟨-, hname, vars, -, rfl⟩ := beginFunction_eq_ok.mp hnext
    exact .begun name parameters vars hname
  | openRegion node =>
    refine hchange (fun a => a.openRegion node) fun next hnext => ?_
    obtain ⟨pending, table, hpending, htable, rfl⟩ := openRegion_eq_ok.mp hnext
    have hserved := Reopened.served (.create node) hpending
    rwa [RegionTable.serve, htable] at hserved
  | emit instruction =>
    refine hchange (fun a => a.emit instruction) fun next hnext => ?_
    obtain ⟨-, pending, table, hpending, htable, rfl⟩ := emit_eq_ok.mp hnext
    have hserved := Reopened.served (.emit instruction) hpending
    rwa [RegionTable.serve, htable] at hserved
  | mergeRegion node =>
    refine hmerge _ fun next hnext => ?_
    obtain ⟨pending, table, source, hpending, -, htable, rfl⟩ := mergeRegion?_eq_some.mp hnext
    have hserved := Reopened.served (.mergeWithPredecessor source) hpending
    rwa [RegionTable.serve, htable] at hserved
  | mergeRegions target source =>
    refine hmerge _ fun next hnext => ?_
    obtain ⟨pending, table, into, region, hpending, -, -, htable, rfl⟩ :=
      mergeRegions?_eq_some.mp hnext
    have hserved := Reopened.served (.mergeWithTarget into region) hpending
    rwa [RegionTable.serve, htable] at hserved

/-- What holds of every assembler that operations have led to. -/
structure Proper (a : Assembler) : Prop where
  sound : ∀ pending ∈ a.pending, pending.regions.Sound
  nodup : (a.program.functions.map Function.name).Nodup
  fresh : ∀ pending ∈ a.pending, a.program.function? pending.name = none

namespace Proper

lemma reopened {b : Assembler} (h : a.Proper) (hb : a.Reopened b) : b.Proper := by
  cases hb with
  | same => exact h
  | begun name parameters vars hname =>
    exact ⟨fun _ hmem => Option.some.inj hmem ▸ RegionTable.Sound.empty _, h.nodup,
      fun _ hmem => Option.some.inj hmem ▸ hname⟩
  | @served pending request hpending =>
    have hrefines := RegionTable.refines_serve ⟨h.sound _ hpending, rfl, rfl⟩ request
    have hfresh : a.program.function? pending.name = none := h.fresh _ hpending
    exact ⟨fun _ hmem => Option.some.inj hmem ▸ hrefines.2.sound, h.nodup,
      fun _ hmem => Option.some.inj hmem ▸ hfresh⟩

/-- No finished function has the name of the open one. -/
lemma endFunction {next : Assembler} (h : a.Proper) (hnext : a.endFunction = .ok next) :
    next.Proper := by
  obtain ⟨pending, hpending, rfl⟩ := endFunction_eq_ok.mp hnext
  refine ⟨fun _ hmem => (nomatch hmem), ?_, fun _ hmem => (nomatch hmem)⟩
  have hfresh := h.fresh pending hpending
  rw [Program.function?, List.find?_eq_none] at hfresh
  have hnot : pending.name ∉ a.program.functions.map Function.name := by
    intro hmem
    obtain ⟨function, hfunction, hname⟩ := List.mem_map.mp hmem
    exact hfresh function hfunction (decide_eq_true hname)
  rw [List.map_append]
  refine List.nodup_append.mpr ⟨h.nodup, List.nodup_singleton _, ?_⟩
  rintro name hname other hother rfl
  obtain rfl : name = pending.name := List.mem_singleton.mp hother
  exact hnot hname

lemma perform (h : a.Proper) (operation : Operation) : (a.perform operation).Proper := by
  by_cases hinner : operation.isInner = true
  · exact h.reopened (reopened_perform hinner)
  · refine perform_cases (P := fun operation b => ¬ operation.isInner = true → b.Proper) a
      (fun hinner hnot => absurd hinner hnot) (fun _ _ => ⟨h.sound, h.nodup, h.fresh⟩)
      (fun hnext _ => ?_) (fun _ _ => h) (fun hnext _ => h.endFunction hnext) (fun _ _ => h)
      (fun _ => ⟨fun _ hmem => (nomatch hmem), h.nodup, fun _ hmem => (nomatch hmem)⟩)
      operation hinner
    obtain ⟨_, -, -, -, rfl⟩ := allocate_eq_ok.mp hnext
    exact ⟨h.sound, h.nodup, h.fresh⟩

lemma fresh_start (name : String) (policy : MergePolicy) (limit : ℕ) :
    (Assembler.fresh name policy limit).Proper :=
  ⟨fun _ hmem => (nomatch hmem), List.nodup_nil, fun _ hmem => (nomatch hmem)⟩

lemma serve (h : a.Proper) (operation : Operation) : (a.serve operation).2.Proper := by
  rw [serve_snd]
  exact h.perform operation

end Proper

/-- **Refused operations leave no trace.**  Whatever is asked of a fresh assembler, what it becomes
and the other answers are the same without the operations that are refused, and all answers are the
same update by update.  The finished functions have different names, and whatever is asked
afterwards, they stay where and as they are. -/
theorem refusals_leave_no_trace (name : String) (policy : MergePolicy) (limit : ℕ)
    (history : List Operation) :
    let start := Assembler.fresh name policy limit
    let run := transcript serve start history
    let others := answered (fun reply => !reply.refused) history run.1
    transcript serveStepwise start history = run ∧
      transcript serve start others = (run.1.filter fun reply => !reply.refused, run.2) ∧
      (run.2.program.functions.map Function.name).Nodup ∧
      ∀ later, run.2.program.functions <+: (transcript serve run.2 later).2.program.functions := by
  intro start run others
  have hstart : start.Proper := .fresh_start name policy limit
  refine ⟨?_, ?_, ?_, fun later => ?_⟩
  · have hsame : ∀ a b operation, a = b ∧ Proper a →
        (serveStepwise a operation).1 = (serve b operation).1 ∧
          (serveStepwise a operation).2 = (serve b operation).2 ∧
          (serveStepwise a operation).2.Proper := by
      rintro a _ operation ⟨rfl, hproper⟩
      rw [serveStepwise_eq hproper.sound]
      exact ⟨rfl, rfl, hproper.serve operation⟩
    have hrun := transcript_simulation hsame ⟨rfl, hstart⟩ history
    exact Prod.ext hrun.1 hrun.2.1
  · exact transcript_answered (fun a operation h => serve_refused (by simpa using h)) start history
  · exact (transcript_invariant (P := Proper) (fun a operation h => h.serve operation) hstart
      history).nodup
  · refine transcript_invariant (P := fun a : Assembler =>
      run.2.program.functions <+: a.program.functions) (fun a operation h => ?_)
      List.prefix_rfl later
    rw [serve_snd]
    exact h.trans (functions_perform a operation)

end Assembler
end Dataflow
