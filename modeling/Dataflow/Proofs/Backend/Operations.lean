import Dataflow.Backend.Assembler
import Dataflow.Proofs.Except

/-!
# What the operations of an assembler do

One lemma for each operation that may fail says when it succeeds and what the assembler looks like
then.  All that is known about an operation can be read off its lemma.
-/

namespace Dataflow

namespace Assembler

variable {a next : Assembler}

/-- The assembler with another open function. -/
def withPending (a : Assembler) (pending : PendingFunction) : Assembler :=
  { a with pending := some pending }

lemma regions?_eq_some {table : RegionTable} :
    a.regions? = some table ↔ ∃ pending, a.pending = some pending ∧ pending.regions = table := by
  rw [regions?, Option.map_eq_some_iff]

lemma withRegions_eq {pending : PendingFunction} (h : a.pending = some pending)
    (regions : RegionTable) :
    a.withRegions regions = a.withPending { pending with regions } := by
  rw [withRegions, h]
  rfl

lemma allocate_eq_ok {id : VarId} :
    a.allocate id = .ok next ↔ ∃ var, a.vars.get? id = some var ∧ var.allocated = false ∧
      a.used + var.size ≤ a.limit ∧
      { a.withVars (a.vars.setAllocated id true) with used := a.used + var.size } = next := by
  rw [allocate]
  cases a.vars.get? id with
  | none => simp [Except.throw_ne_ok]
  | some var =>
    simp only [Except.guard_eq_ok, Except.pure_eq_ok, Option.some.injEq, exists_eq_left',
      Bool.not_eq_true, not_lt]

lemma beginFunction_eq_ok {name : String} {parameters : List Parameter} :
    a.beginFunction name parameters = .ok next ↔ a.pending = none ∧
      a.program.function? name = none ∧
      ∃ vars, parameters.mapM a.variableFor = .ok vars ∧
        a.withPending ⟨name, parameters, vars, .empty a.policy⟩ = next := by
  rw [beginFunction]
  cases a.pending with
  | some pending => simp [Except.throw_bind_ne_ok]
  | none =>
    simp only [Except.guard_eq_ok, Option.not_isSome_iff_eq_none, Except.bind_eq_ok,
      Except.pure_eq_ok, true_and, withPending]

lemma endFunction_eq_ok :
    a.endFunction = .ok next ↔ ∃ pending, a.pending = some pending ∧
      { a with
        program := { a.program with functions := a.program.functions ++ [pending.finish] }
        committed := ⟨a.vars.size, a.used⟩
        pending := none } = next := by
  rw [endFunction]
  cases a.pending with
  | none => simp [Except.throw_ne_ok]
  | some pending => simp [Except.pure_eq_ok]

lemma openRegion_eq_ok {node : NodeId} :
    a.openRegion node = .ok next ↔ ∃ pending table, a.pending = some pending ∧
      pending.regions.create? node = some table ∧
      a.withPending { pending with regions := table } = next := by
  rw [openRegion]
  simp only [regions?]
  cases hpending : a.pending with
  | none => simp [Except.throw_ne_ok]
  | some pending =>
    simp only [Option.map_some]
    cases hcreate : pending.regions.create? node with
    | none => simp [Except.throw_ne_ok, hcreate]
    | some table => simp [withRegions_eq hpending, Except.pure_eq_ok, hcreate]

lemma emit_eq_ok {instruction : Instruction} :
    a.emit instruction = .ok next ↔ a.checkInstruction instruction = .ok () ∧
      ∃ pending table, a.pending = some pending ∧
      pending.regions.emit? instruction = some table ∧
      a.withPending { pending with regions := table } = next := by
  rw [emit]
  simp only [Except.bind_eq_ok, regions?]
  cases hpending : a.pending with
  | none => simp [Except.throw_ne_ok]
  | some pending =>
    simp only [Option.map_some]
    cases hemit : pending.regions.emit? instruction with
    | none => simp [Except.throw_ne_ok, hemit]
    | some table =>
      simp [withRegions_eq hpending, Except.pure_eq_ok, hemit, Unique.exists_iff]

lemma mergeRegion?_eq_some {node : NodeId} :
    a.mergeRegion? node = some next ↔ ∃ pending table source, a.pending = some pending ∧
      pending.regions.regionOf? node = some source ∧
      pending.regions.mergeWithPredecessor? source = some table ∧
      a.withPending { pending with regions := table } = next := by
  simp only [mergeRegion?, Option.bind_eq_bind, Option.bind_eq_some_iff, Option.pure_def,
    Option.some.injEq, regions?_eq_some]
  constructor
  · rintro ⟨_, ⟨pending, hpending, rfl⟩, source, hsource, table, htable, rfl⟩
    exact ⟨pending, table, source, hpending, hsource, htable, (withRegions_eq hpending _).symm⟩
  · rintro ⟨pending, table, source, hpending, hsource, htable, rfl⟩
    exact ⟨_, ⟨pending, hpending, rfl⟩, source, hsource, table, htable, withRegions_eq hpending _⟩

lemma mergeRegions?_eq_some {target source : NodeId} :
    a.mergeRegions? target source = some next ↔ ∃ pending table into region,
      a.pending = some pending ∧ pending.regions.regionOf? target = some into ∧
      pending.regions.regionOf? source = some region ∧
      pending.regions.mergeWithTarget? into region = some table ∧
      a.withPending { pending with regions := table } = next := by
  simp only [mergeRegions?, Option.bind_eq_bind, Option.bind_eq_some_iff, Option.pure_def,
    Option.some.injEq, regions?_eq_some]
  constructor
  · rintro ⟨_, ⟨pending, hpending, rfl⟩, into, hinto, region, hregion, table, htable, rfl⟩
    exact ⟨pending, table, into, region, hpending, hinto, hregion, htable,
      (withRegions_eq hpending _).symm⟩
  · rintro ⟨pending, table, into, region, hpending, hinto, hregion, htable, rfl⟩
    exact ⟨_, ⟨pending, hpending, rfl⟩, into, hinto, region, hregion, table, htable,
      withRegions_eq hpending _⟩

/-! ## Operations on the open function only -/

lemma beginFunction_frame {name : String} {parameters : List Parameter}
    (h : a.beginFunction name parameters = .ok next) : ∃ pending, next = { a with pending } := by
  obtain ⟨-, -, _, -, rfl⟩ := beginFunction_eq_ok.mp h
  exact ⟨_, rfl⟩

lemma openRegion_frame {node : NodeId} (h : a.openRegion node = .ok next) :
    ∃ pending, next = { a with pending } := by
  obtain ⟨_, _, -, -, rfl⟩ := openRegion_eq_ok.mp h
  exact ⟨_, rfl⟩

lemma emit_frame {instruction : Instruction} (h : a.emit instruction = .ok next) :
    ∃ pending, next = { a with pending } := by
  obtain ⟨-, _, _, -, -, rfl⟩ := emit_eq_ok.mp h
  exact ⟨_, rfl⟩

lemma accept_frame {answer : Option Assembler}
    (h : ∀ next ∈ answer, ∃ pending, next = { a with pending }) :
    ∃ pending, (a.accept answer).2 = { a with pending } := by
  cases answer with
  | none => exact ⟨a.pending, rfl⟩
  | some next => exact h next rfl

lemma mergeRegion_frame (a : Assembler) (node : NodeId) :
    ∃ pending, (a.accept (a.mergeRegion? node)).2 = { a with pending } := by
  refine accept_frame fun next hnext => ?_
  obtain ⟨_, _, _, -, -, -, rfl⟩ := mergeRegion?_eq_some.mp hnext
  exact ⟨_, rfl⟩

lemma mergeRegions_frame (a : Assembler) (target source : NodeId) :
    ∃ pending, (a.accept (a.mergeRegions? target source)).2 = { a with pending } := by
  refine accept_frame fun next hnext => ?_
  obtain ⟨_, _, _, _, -, -, -, -, rfl⟩ := mergeRegions?_eq_some.mp hnext
  exact ⟨_, rfl⟩

end Assembler
end Dataflow
