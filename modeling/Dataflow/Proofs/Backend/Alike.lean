import Dataflow.Backend.Recorder
import Dataflow.Proofs.Backend.Operations
import Dataflow.Proofs.Compiler.Alike
import Dataflow.Proofs.Region.Refinement

/-!
# Assemblers that answer alike

Two assemblers answer alike if they differ at most in where the open function keeps its
instructions: the same nodes have regions, and the instructions come out in the same order
(`Assembler.Alike`).  This survives every operation, and a merge on one side only, since merging
keeps the order of the instructions (`Assembler.parallel`).  Nothing changes if one of the
assemblers is wrapped in a recorder that refuses merges of its own accord (`Recorder.parallel`).
-/

namespace Dataflow

open Attempt Renames

lemma Attempt.Related.ofChange {σ τ : Type} {R : σ → τ → Prop} {next : σ → Except BackendFault σ}
    {next' : τ → Except BackendFault τ}
    (h : ∀ s t, R s t → (∃ fault, next s = .error fault ∧ next' t = .error fault) ∨
      ∃ s' t', next s = .ok s' ∧ next' t = .ok t' ∧ R s' t') :
    Related R Unit (Attempt.change next) (Attempt.change next') := by
  intro s t hst
  unfold Attempt.change
  obtain ⟨fault, hs, ht⟩ | ⟨s', t', hs, ht, hnext⟩ := h s t hst
  · rw [hs, ht]
    exact .error _ hst
  · rw [hs, ht]
    exact .ok () hnext

/-! ## Regions -/

/-- Two region tables that hold the same instructions in the same order, but for the names of
variables, for the same nodes. -/
structure RegionTable.Alike (ρ : VarId → VarId) (table table' : RegionTable) : Prop where
  left : table.Sound
  right : table'.Sound
  nodes : table.rows.map Region.node = table'.rows.map Region.node
  assemble : table'.assemble = rename ρ table.assemble

namespace RegionTable.Alike

variable {ρ : VarId → VarId} {table table' : RegionTable}

lemma empty (policy policy' : MergePolicy) :
    RegionTable.Alike ρ (.empty policy) (.empty policy') :=
  ⟨.empty policy, .empty policy', rfl, rfl⟩

lemma size_eq (h : table.Alike ρ table') : table.size = table'.size := by
  have := congrArg List.length h.nodes
  rwa [List.length_map, List.length_map, length_rows, length_rows] at this

/-- Both tables open a region for a node, or both have one for it. -/
lemma create? (h : table.Alike ρ table') (node : NodeId) :
    Option.Rel (RegionTable.Alike ρ) (table.create? node) (table'.create? node) := by
  have hfree : (table.regionOf? node).isSome ↔ (table'.regionOf? node).isSome := by
    rw [regionOf?_isSome h.left, regionOf?_isSome h.right, h.left.nodes_segments,
      h.right.nodes_segments, h.nodes]
  have hleft := @Sound.create? _ h.left node
  have hright := @Sound.create? _ h.right node
  unfold RegionTable.create? at hleft hright ⊢
  cases hregion : table.regionOf? node with
  | some region =>
    obtain ⟨region', hregion'⟩ := Option.isSome_iff_exists.mp
      (hfree.mp (Option.isSome_iff_exists.mpr ⟨region, hregion⟩))
    rw [hregion']
    exact .none
  | none =>
    have hregion' : table'.regionOf? node = none := by
      rw [← Option.not_isSome_iff_eq_none, ← hfree, hregion]
      exact Bool.false_ne_true
    rw [hregion] at hleft
    rw [hregion'] at hright ⊢
    obtain ⟨hsound, hassemble, hnodes⟩ := hleft rfl
    obtain ⟨hsound', hassemble', hnodes'⟩ := hright rfl
    exact .some ⟨hsound, hsound', by rw [hnodes, hnodes', h.nodes],
      by rw [hassemble, hassemble', h.assemble]⟩

lemma emit? (h : table.Alike ρ table') (instruction : Instruction) :
    Option.Rel (RegionTable.Alike ρ) (table.emit? instruction)
      (table'.emit? (rename ρ instruction)) := by
  have hleft := @Sound.emit? _ h.left instruction
  have hright := @Sound.emit? _ h.right (rename ρ instruction)
  unfold RegionTable.emit? at hleft hright ⊢
  rw [← h.size_eq] at hright ⊢
  cases hsize : table.size with
  | zero => exact .none
  | succ last =>
    rw [hsize] at hleft hright
    obtain ⟨hsound, hassemble, hnodes⟩ := hleft rfl
    obtain ⟨hsound', hassemble', hnodes'⟩ := hright rfl
    exact .some ⟨hsound, hsound', by rw [hnodes, hnodes', h.nodes],
      by rw [hassemble, hassemble', h.assemble, rename_append]; rfl⟩

/-- A merge on the left side does not show. -/
lemma mergeLeft (h : table.Alike ρ table') {source : RegionId} {next : RegionTable}
    (hnext : table.mergeWithPredecessor? source = some next) : next.Alike ρ table' := by
  obtain ⟨hsound, hassemble, hnodes⟩ := h.left.mergeWithPredecessor? hnext
  exact ⟨hsound, h.right, hnodes.trans h.nodes, hassemble ▸ h.assemble⟩

/-- A merge on the right side does not show. -/
lemma mergeRight (h : table.Alike ρ table') {source : RegionId} {next : RegionTable}
    (hnext : table'.mergeWithPredecessor? source = some next) : table.Alike ρ next := by
  obtain ⟨hsound, hassemble, hnodes⟩ := h.right.mergeWithPredecessor? hnext
  exact ⟨h.left, hsound, h.nodes.trans hnodes.symm, hassemble.trans h.assemble⟩

end RegionTable.Alike

/-! ## Functions -/

instance : Renames Function where
  rename ρ function :=
    { function with vars := rename ρ function.vars, body := rename ρ function.body }
  rename_id function := by
    show Function.mk _ _ _ _ = _
    rw [rename_id, rename_id]

/-- Two open functions that only differ in where they keep their instructions and in the names of
variables. -/
structure PendingFunction.Alike (ρ : VarId → VarId) (pending pending' : PendingFunction) :
    Prop where
  name : pending.name = pending'.name
  parameters : pending.parameters = pending'.parameters
  vars : pending'.vars = rename ρ pending.vars
  regions : pending.regions.Alike ρ pending'.regions

namespace PendingFunction.Alike

variable {ρ : VarId → VarId} {pending pending' : PendingFunction}

lemma finish (h : pending.Alike ρ pending') : pending'.finish = rename ρ pending.finish := by
  show pending'.finish = Function.mk _ _ _ _
  rw [PendingFunction.finish, ← h.name, ← h.parameters, h.vars, h.regions.assemble]
  rfl

lemma withRegions (h : pending.Alike ρ pending') {table table' : RegionTable}
    (htable : table.Alike ρ table') :
    PendingFunction.Alike ρ { pending with regions := table }
      { pending' with regions := table' } := { h with regions := htable }

end PendingFunction.Alike

/-! ## Assemblers -/

lemma Option.Rel.cases {α β : Type} {R : α → β → Prop} {x : Option α} {y : Option β}
    (h : Option.Rel R x y) :
    x = none ∧ y = none ∨ ∃ a b, x = some a ∧ y = some b ∧ R a b := by
  cases h with
  | none => exact .inl ⟨rfl, rfl⟩
  | some hab => exact .inr ⟨_, _, rfl, rfl, hab⟩

namespace Assembler

variable {ρ : VarId → VarId} {Q : MergePolicy → MergePolicy → Prop} {a b : Assembler}

/-! ### The open function -/

/-- A region is opened in both functions, or refused for the same reason. -/
lemma openRegion_cases (h : Option.Rel (PendingFunction.Alike ρ) a.pending b.pending)
    (node : NodeId) :
    (∃ fault, fault.Anonymous ∧ a.openRegion node = .error fault ∧
      b.openRegion node = .error fault) ∨
    ∃ p q, p.Alike ρ q ∧ a.openRegion node = .ok (a.withPending p) ∧
      b.openRegion node = .ok (b.withPending q) := by
  obtain ⟨ha, hb⟩ | ⟨p, q, ha, hb, hpq⟩ := Option.Rel.cases h
  · refine .inl ⟨.noFunction, trivial, ?_, ?_⟩
    · rw [openRegion, regions?, ha]
      rfl
    · rw [openRegion, regions?, hb]
      rfl
  · obtain ⟨hp, hq⟩ | ⟨table, table', hp, hq, htable⟩ := Option.Rel.cases (hpq.regions.create? node)
    · refine .inl ⟨.regionExists node, trivial, ?_, ?_⟩
      · simp only [openRegion, regions?, ha, Option.map_some, hp]
        rfl
      · simp only [openRegion, regions?, hb, Option.map_some, hq]
        rfl
    · exact .inr ⟨_, _, hpq.withRegions htable, openRegion_eq_ok.mpr ⟨p, table, ha, hp, rfl⟩,
        openRegion_eq_ok.mpr ⟨q, table', hb, hq, rfl⟩⟩

/-- An instruction that both sides admit goes to the same place, or is refused for the same
reason. -/
lemma emit_cases (h : Option.Rel (PendingFunction.Alike ρ) a.pending b.pending)
    {instruction : Instruction} (hleft : a.checkInstruction instruction = .ok ())
    (hright : b.checkInstruction (rename ρ instruction) = .ok ()) :
    (∃ fault, fault.Anonymous ∧ a.emit instruction = .error fault ∧
      b.emit (rename ρ instruction) = .error fault) ∨
    ∃ p q, p.Alike ρ q ∧ a.emit instruction = .ok (a.withPending p) ∧
      b.emit (rename ρ instruction) = .ok (b.withPending q) := by
  obtain ⟨ha, hb⟩ | ⟨p, q, ha, hb, hpq⟩ := Option.Rel.cases h
  · refine .inl ⟨.noFunction, trivial, ?_, ?_⟩
    · rw [emit, hleft, regions?, ha]
      rfl
    · rw [emit, hright, regions?, hb]
      rfl
  · obtain ⟨hp, hq⟩ | ⟨table, table', hp, hq, htable⟩ :=
      Option.Rel.cases (hpq.regions.emit? instruction)
    · refine .inl ⟨.noRegion, trivial, ?_, ?_⟩
      · simp only [emit, hleft, regions?, ha, Option.map_some, hp]
        rfl
      · simp only [emit, hright, regions?, hb, Option.map_some, hq]
        rfl
    · exact .inr ⟨_, _, hpq.withRegions htable,
        emit_eq_ok.mpr ⟨hleft, p, table, ha, hp, rfl⟩,
        emit_eq_ok.mpr ⟨hright, q, table', hb, hq, rfl⟩⟩

/-- A merge takes place in the open function, if at all. -/
lemma mergeRegion_cases (a : Assembler) (node : NodeId) :
    (Backend.mergeRegion node a).2 = a ∨ ∃ p table source, a.pending = some p ∧
      p.regions.mergeWithPredecessor? source = some table ∧
      (Backend.mergeRegion node a).2 = a.withPending { p with regions := table } := by
  show (a.accept (a.mergeRegion? node)).2 = a ∨ ∃ p table source, _ ∧ _ ∧
    (a.accept (a.mergeRegion? node)).2 = _
  cases hnext : a.mergeRegion? node with
  | none => exact .inl rfl
  | some next =>
    obtain ⟨p, table, source, hpending, -, htable, rfl⟩ := mergeRegion?_eq_some.mp hnext
    exact .inr ⟨p, table, source, hpending, htable, rfl⟩

/-- A merge on the left side leaves the open functions alike. -/
lemma mergeLeft_alike (h : Option.Rel (PendingFunction.Alike ρ) a.pending b.pending)
    (node : NodeId) : ∃ x, (Backend.mergeRegion node a).2 = { a with pending := x } ∧
      Option.Rel (PendingFunction.Alike ρ) x b.pending := by
  obtain hsame | ⟨p, table, source, ha, htable, hnext⟩ := a.mergeRegion_cases node
  · exact ⟨a.pending, hsame, h⟩
  · refine ⟨_, hnext, ?_⟩
    obtain ⟨hnone, -⟩ | ⟨p', q, hp, hb, hpq⟩ := Option.Rel.cases h
    · rw [ha] at hnone
      cases hnone
    · obtain rfl := Option.some.inj (ha.symm.trans hp)
      rw [hb]
      exact .some { hpq with regions := hpq.regions.mergeLeft htable }

/-- A merge on the right side leaves the open functions alike. -/
lemma mergeRight_alike (h : Option.Rel (PendingFunction.Alike ρ) a.pending b.pending)
    (node : NodeId) : ∃ y, (Backend.mergeRegion node b).2 = { b with pending := y } ∧
      Option.Rel (PendingFunction.Alike ρ) a.pending y := by
  obtain hsame | ⟨q, table, source, hb, htable, hnext⟩ := b.mergeRegion_cases node
  · exact ⟨b.pending, hsame, h⟩
  · refine ⟨_, hnext, ?_⟩
    obtain ⟨-, hnone⟩ | ⟨p, q', ha, hq, hpq⟩ := Option.Rel.cases h
    · rw [hb] at hnone
      cases hnone
    · obtain rfl := Option.some.inj (hb.symm.trans hq)
      rw [ha]
      exact .some { hpq with regions := hpq.regions.mergeRight htable }

/-! ### Everything else -/

/-- Two assemblers that answer alike.  How their policies relate is left open. -/
structure Alike (Q : MergePolicy → MergePolicy → Prop) (a b : Assembler) : Prop where
  program : a.program = b.program
  policy : Q a.policy b.policy
  limit : a.limit = b.limit
  used : a.used = b.used
  committed : a.committed = b.committed
  pending : Option.Rel (PendingFunction.Alike id) a.pending b.pending

namespace Alike

lemma vars_eq (h : a.Alike Q b) : a.vars = b.vars := congrArg Program.vars h.program

lemma withVars (h : a.Alike Q b) (vars : VariableTable) :
    (a.withVars vars).Alike Q (b.withVars vars) := by
  refine { h with program := ?_ }
  simp only [Assembler.withVars, h.program]

lemma declare (h : a.Alike Q b) (spec : VariableSpec) :
    (a.declare spec).Alike Q (b.declare spec) := by
  rw [Assembler.declare]
  rw [h.vars_eq]
  exact h.withVars _

end Alike

lemma allocate_related (id : VarId) :
    Related (Alike Q) Unit (.change fun a => allocate a id) (.change fun a => allocate a id) := by
  refine .ofChange fun a b h => ?_
  unfold allocate
  rw [← h.vars_eq, ← h.used, ← h.limit]
  cases a.vars.get? id with
  | none => exact .inl ⟨_, rfl, rfl⟩
  | some var =>
    by_cases hallocated : var.allocated = true
    · simp only [if_pos hallocated]
      exact .inl ⟨_, rfl, rfl⟩
    · simp only [if_neg hallocated]
      split_ifs with hlimit
      · exact .inl ⟨_, rfl, rfl⟩
      · exact .inr ⟨_, _, rfl, rfl, { h.withVars _ with used := rfl }⟩

lemma variableFor_congr (h : a.Alike Q b) : a.variableFor = b.variableFor := by
  funext parameter
  rw [variableFor, variableFor, h.vars_eq, h.committed]

lemma beginFunction_related (name : String) (parameters : List Parameter) :
    Related (Alike Q) Unit (.change fun a => beginFunction a name parameters)
      (.change fun a => beginFunction a name parameters) := by
  refine .ofChange fun a b h => ?_
  have hpending := h.pending
  unfold beginFunction
  rw [← variableFor_congr h, ← h.program]
  generalize hp : a.pending = p at hpending ⊢
  generalize hq : b.pending = q at hpending ⊢
  cases hpending with
  | some hpq => exact .inl ⟨_, rfl, by simp only [hpq.name]; rfl⟩
  | none =>
    simp only
    split_ifs with hexists
    · exact .inl ⟨_, rfl, rfl⟩
    · cases parameters.mapM a.variableFor with
      | error fault => exact .inl ⟨fault, rfl, rfl⟩
      | ok vars =>
        exact .inr ⟨_, _, rfl, rfl, { h with
          program := rfl
          pending := .some ⟨rfl, rfl, (rename_id vars).symm, .empty _ _⟩ }⟩

lemma endFunction_related :
    Related (Alike Q) Unit (.change endFunction) (.change endFunction) := by
  refine .ofChange fun a b h => ?_
  have hpending := h.pending
  unfold endFunction
  generalize hp : a.pending = p at hpending ⊢
  generalize hq : b.pending = q at hpending ⊢
  cases hpending with
  | none => exact .inl ⟨_, rfl, rfl⟩
  | some hpq =>
    exact .inr ⟨_, _, rfl, rfl, { h with
      program := by simp only [h.program, hpq.finish, rename_id]
      committed := by simp only [vars, h.program, h.used]
      pending := .none }⟩

lemma discardFunction_alike (h : a.Alike Q b) :
    a.discardFunction.Alike Q b.discardFunction where
  program := by simp only [discardFunction, truncate, withVars, vars, h.program, h.committed]
  policy := h.policy
  limit := h.limit
  used := congrArg Extent.elements h.committed
  committed := h.committed
  pending := .none

lemma openRegion_related (node : NodeId) :
    Related (Alike Q) Unit (.change fun a => openRegion a node)
      (.change fun a => openRegion a node) := by
  refine .ofChange fun a b h => ?_
  obtain ⟨fault, -, ha, hb⟩ | ⟨p, q, hpq, ha, hb⟩ := openRegion_cases h.pending node
  · exact .inl ⟨fault, ha, hb⟩
  · exact .inr ⟨_, _, ha, hb, { h with pending := .some hpq }⟩

lemma checkInstruction_eq (h : a.Alike Q b) : a.checkInstruction = b.checkInstruction := by
  funext instruction
  simp only [checkInstruction, checkSlice, h.vars_eq]

lemma emit_related (instruction : Instruction) :
    Related (Alike Q) Unit (.change fun a => emit a instruction)
      (.change fun a => emit a instruction) := by
  refine .ofChange fun a b h => ?_
  have hcheck := congrFun (checkInstruction_eq h) instruction
  cases hleft : a.checkInstruction instruction with
  | error fault =>
    refine .inl ⟨fault, ?_, ?_⟩
    · rw [emit, hleft]
      rfl
    · rw [emit, ← hcheck, hleft]
      rfl
  | ok =>
    have hcases := emit_cases h.pending hleft (by rw [rename_id, ← hcheck, hleft])
    rw [rename_id] at hcases
    obtain ⟨fault, -, ha, hb⟩ | ⟨p, q, hpq, ha, hb⟩ := hcases
    · exact .inl ⟨fault, ha, hb⟩
    · exact .inr ⟨_, _, ha, hb, { h with pending := .some hpq }⟩

lemma Alike.mergeLeft (h : a.Alike Q b) (node : NodeId) :
    (Backend.mergeRegion node a).2.Alike Q b := by
  obtain ⟨x, hnext, hx⟩ := mergeLeft_alike h.pending node
  rw [hnext]
  exact { h with pending := hx }

lemma Alike.mergeRight (h : a.Alike Q b) (node : NodeId) :
    a.Alike Q (Backend.mergeRegion node b).2 := by
  obtain ⟨y, hnext, hy⟩ := mergeRight_alike h.pending node
  rw [hnext]
  exact { h with pending := hy }

/-- **Merging is on the inside.**  Assemblers that only differ in the place of their instructions
answer alike, whichever merges take place. -/
lemma parallel (Q : MergePolicy → MergePolicy → Prop) : Parallel (Alike Q) where
  vars h := h.vars_eq
  declare spec _ _ h := h.declare spec
  allocate := allocate_related
  beginFunction := beginFunction_related
  endFunction := endFunction_related
  discardFunction h := discardFunction_alike h
  openRegion := openRegion_related
  emit := emit_related
  notify _ _ _ h := h
  mergeLeft node _ _ h := h.mergeLeft node
  mergeRight node _ _ h := h.mergeRight node

end Assembler

/-! ## Recorders -/

namespace Recorder

variable {β β' : Type} {B : β → β' → Prop}

/-- A backend and a recorder around a related one that does not make requests fail.  It may refuse
any merges. -/
structure Hides (B : β → β' → Prop) (b : β) (recorder : Recorder β') : Prop where
  inner : B b recorder.inner
  failure : recorder.interference.failure = fun _ => none

lemma merge_hides {b : β} {recorder : Recorder β'} (h : Hides B b recorder)
    {ask : β' → Bool × β'} (hask : B b (ask recorder.inner).2) (event : Bool → Event) :
    Hides B b (recorder.merge ask event).2 := by
  rw [merge]
  refine ⟨?_, h.failure⟩
  split
  next inner hinner =>
  split at hinner
  · cases hinner
    exact h.inner
  · rw [hinner] at hask
    exact hask

lemma pass_related [Backend β'] {step : Attempt β Unit} {request : Request}
    (hstep : Related B Unit step request.serve) :
    Related (Hides B) Unit step (pass request) := by
  intro b recorder h
  have hinner := hstep b recorder.inner h.inner
  have hpass : pass request recorder = (request.serve.zoom inner fun inner recorder =>
      { recorder with inner }) { recorder.record (.request request false) with
        requests := recorder.requests + 1 } := by
    rw [pass, bind_run]
    simp only [get_run, h.failure]
    rfl
  rw [hpass, zoom]
  simp only [record]
  generalize step b = result at hinner ⊢
  generalize request.serve recorder.inner = result' at hinner ⊢
  cases hinner with
  | ok a hinner => exact .ok a ⟨hinner, h.failure⟩
  | error e hinner => exact .error e ⟨hinner, h.failure⟩

/-- A recorder that makes no request fail answers like the backend inside, whichever merges it
refuses. -/
lemma parallel [Backend β] [Backend β'] (hB : Parallel B) : Parallel (Hides B) where
  vars h := hB.vars h.inner
  declare spec _ _ h := ⟨hB.declare spec h.inner, h.failure⟩
  allocate var := pass_related (hB.allocate var)
  beginFunction name parameters := pass_related (hB.beginFunction name parameters)
  endFunction := pass_related hB.endFunction
  discardFunction h := ⟨hB.discardFunction h.inner, h.failure⟩
  openRegion node := pass_related (hB.openRegion node)
  emit instruction := pass_related (hB.emit instruction)
  notify notice _ _ h := ⟨hB.notify notice h.inner, h.failure⟩
  mergeLeft node _ _ h := ⟨hB.mergeLeft node h.inner, h.failure⟩
  mergeRight node _ _ h := merge_hides h (hB.mergeRight node h.inner) _

end Recorder
end Dataflow
