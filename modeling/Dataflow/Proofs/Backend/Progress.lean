import Dataflow.Proofs.Backend.Checks
import Dataflow.Proofs.Region.Refinement

/-!
# The progress of an assembler

While a function is compiled, an assembler moves in one direction: variables are added behind the
others and get their storage at once, and instructions are added behind the others, wherever the
regions keep them.  `Assembler.Step a code b` says that `b` is `a` with the instructions `code`
added and perhaps some variables.
-/

namespace Dataflow
namespace Assembler

/-- The instructions of the open function in the order in which they will be executed. -/
def code (a : Assembler) : List Instruction :=
  (a.pending.map fun pending => pending.regions.assemble).getD []

/-- What stays the same while a function is open. -/
def header (a : Assembler) :=
  (a.program.name, a.program.functions, a.policy, a.limit, a.committed,
    a.pending.map fun pending => (pending.name, pending.parameters, pending.vars))

/-- An assembler whose variables are numbered by position and whose regions are sound. -/
structure Tidy (a : Assembler) : Prop where
  numbered : ∀ id var, a.vars.get? id = some var → var.id = id
  sound : ∀ pending ∈ a.pending, pending.regions.Sound

/-- An assembler all of whose variables have storage, within its limit. -/
structure Stocked (a : Assembler) : Prop where
  allocated : ∀ id var, a.vars.get? id = some var → var.allocated = true
  used : a.used = (a.vars.toList.map Variable.size).sum
  limit : a.used ≤ a.limit

/-- The second assembler is the first one with instructions and perhaps variables added. -/
structure Step (a : Assembler) (added : List Instruction) (b : Assembler) : Prop where
  tidy : b.Tidy
  stocked : a.Stocked → b.Stocked
  vars : a.vars.Prefix b.vars
  allocated : ∀ id var, a.vars.size ≤ id.index → b.vars.get? id = some var → var.allocated = true
  code : b.code = a.code ++ added
  admissible : ∀ instruction ∈ added, Instruction.Admissible b.vars instruction
  header : b.header = a.header

variable {a b c : Assembler} {added added' : List Instruction}

lemma Tidy.fresh (name : String) (policy : MergePolicy) (limit : ℕ) :
    (Assembler.fresh name policy limit).Tidy :=
  ⟨fun _ _ h => (nomatch h), fun _ h => (nomatch h)⟩

lemma Stocked.fresh (name : String) (policy : MergePolicy) (limit : ℕ) :
    (Assembler.fresh name policy limit).Stocked :=
  ⟨fun _ _ h => (nomatch h), rfl, Nat.zero_le _⟩

namespace Step

lemma allocated_of_vars_eq (h : b.vars = a.vars) (id : VarId) (var : Variable)
    (hnew : a.vars.size ≤ id.index) (hvar : b.vars.get? id = some var) : var.allocated = true := by
  rw [h, VariableTable.get?_eq_none _ hnew] at hvar
  cases hvar

lemma refl (h : a.Tidy) : a.Step [] a :=
  ⟨h, id, .refl _, allocated_of_vars_eq rfl, (List.append_nil _).symm,
    fun _ hmem => absurd hmem List.not_mem_nil, rfl⟩

lemma trans (h : a.Step added b) (h' : b.Step added' c) : a.Step (added ++ added') c where
  tidy := h'.tidy
  stocked hstocked := h'.stocked (h.stocked hstocked)
  vars := h.vars.trans h'.vars
  allocated id var hnew hvar := by
    by_cases hlt : id.index < b.vars.size
    · obtain ⟨old, hold⟩ := b.vars.exists_get? hlt
      obtain rfl : old = var := Option.some.inj ((h'.vars.get? hold).symm.trans hvar)
      exact h.allocated id old hnew hold
    · exact h'.allocated id var (not_lt.mp hlt) hvar
  code := by rw [h'.code, h.code, List.append_assoc]
  admissible instruction hmem := by
    rcases List.mem_append.mp hmem with hmem | hmem
    · exact (h.admissible instruction hmem).mono h'.vars
    · exact h'.admissible instruction hmem
  header := h'.header.trans h.header

lemma functions_eq (h : a.Step added b) : b.program.functions = a.program.functions :=
  congrArg (fun header => header.2.1) h.header

lemma limit_eq (h : a.Step added b) : b.limit = a.limit :=
  congrArg (fun header => header.2.2.2.1) h.header

lemma committed_eq (h : a.Step added b) : b.committed = a.committed :=
  congrArg (fun header => header.2.2.2.2.1) h.header

lemma pending_eq (h : a.Step added b) :
    (b.pending.map fun pending => (pending.name, pending.parameters, pending.vars)) =
      a.pending.map fun pending => (pending.name, pending.parameters, pending.vars) :=
  congrArg (fun header => header.2.2.2.2.2) h.header

end Step

/-! ## Storage -/

/-- The variable that a compiler gets for a specification. -/
def allotted (a : Assembler) (spec : VariableSpec) : Variable :=
  (spec.variable a.vars.next).withAllocated true

lemma toList_allocate_declare {spec : VariableSpec}
    (h : (a.declare spec).allocate a.vars.next = .ok b) :
    b.vars.toList = a.vars.toList ++ [a.allotted spec] := by
  obtain ⟨var, -, -, -, rfl⟩ := allocate_eq_ok.mp h
  show ((a.vars.declare spec).setAllocated a.vars.next true).toList = _
  rw [VariableTable.toList_setAllocated, VariableTable.toList_declare_variable]
  have hnext : a.vars.next.index = a.vars.toList.length := (VariableTable.length_toList _).symm
  rw [hnext, RegionTable.modify_append_cons]
  rfl

lemma get?_allocate_declare {spec : VariableSpec}
    (h : (a.declare spec).allocate a.vars.next = .ok b) :
    b.vars.get? a.vars.next = some (a.allotted spec) := by
  rw [VariableTable.get?_eq, toList_allocate_declare h, VariableTable.next,
    List.getElem?_append_right (by simp)]
  simp

/-- The variables after an allocation are those before it and the new one. -/
lemma get?_of_allocate_declare {spec : VariableSpec}
    (h : (a.declare spec).allocate a.vars.next = .ok b) {id : VarId} {var : Variable}
    (hvar : b.vars.get? id = some var) :
    a.vars.get? id = some var ∨ id = a.vars.next ∧ var = a.allotted spec :=
  VariableTable.get?_of_concat (toList_allocate_declare h) hvar

/-- Storage for a variable that was just declared is refused only because of the limit. -/
lemma allocate_declare_error {spec : VariableSpec} {fault : BackendFault}
    (h : (a.declare spec).allocate a.vars.next = .error fault) :
    (∃ limit name size, fault = .storageExhausted limit name size) ∧
      a.limit < a.used + spec.size := by
  have hvar : (a.declare spec).vars.get? a.vars.next = some (spec.variable a.vars.next) :=
    a.vars.get?_declare_next spec
  have hfree : (spec.variable a.vars.next).allocated = false := rfl
  rw [allocate, hvar] at h
  simp only [hfree] at h
  by_cases hlimit : a.limit < a.used + spec.size
  · refine ⟨?_, hlimit⟩
    have hguard : (a.declare spec).limit <
        (a.declare spec).used + (spec.variable a.vars.next).size := hlimit
    rw [if_pos hguard] at h
    cases h
    exact ⟨_, _, _, rfl⟩
  · have hguard : ¬ (a.declare spec).limit <
        (a.declare spec).used + (spec.variable a.vars.next).size := hlimit
    rw [if_neg hguard] at h
    cases h

/-- Reserving storage for a new variable keeps within the limit. -/
lemma Stocked.allocate (ha : a.Stocked) {spec : VariableSpec}
    (h : (a.declare spec).allocate a.vars.next = .ok b) : b.Stocked := by
  have hlist := toList_allocate_declare h
  have hallocated : (a.allotted spec).allocated = true := rfl
  have hsize : (a.allotted spec).size = spec.size := rfl
  obtain ⟨var, hvar, -, hlimit, hb⟩ := allocate_eq_ok.mp h
  have hspec : var.size = spec.size := by
    have hnext := a.vars.get?_declare_next spec
    rw [vars_declare, hnext, Option.some.injEq] at hvar
    rw [← hvar]
    rfl
  have hused : b.used = a.used + spec.size := by
    rw [← hb, ← hspec]
    rfl
  refine ⟨fun id var hvar => ?_, ?_, ?_⟩
  · rcases get?_of_allocate_declare h hvar with hold | ⟨-, rfl⟩
    · exact ha.allocated id var hold
    · exact hallocated
  · rw [hlist, hused, ha.used, List.map_append, List.sum_append, List.map_singleton, hsize,
      List.sum_singleton]
  · rw [hused, ← hspec, ← hb]
    exact hlimit

/-- Declaring a variable and reserving its storage is a step. -/
lemma Tidy.allocate (ha : a.Tidy) {spec : VariableSpec}
    (h : (a.declare spec).allocate a.vars.next = .ok b) : a.Step [] b := by
  have hlist := toList_allocate_declare h
  have hb := (allocate_eq_ok.mp h).choose_spec.2.2.2
  refine ⟨⟨VariableTable.numbered_concat ha.numbered hlist rfl, ?_⟩,
    fun hstocked => hstocked.allocate h, ⟨_, hlist.symm⟩, fun id var hnew hvar => ?_, ?_,
    fun _ hmem => absurd hmem List.not_mem_nil, ?_⟩
  · rw [← hb]
    exact ha.sound
  · rcases get?_of_allocate_declare h hvar with hold | ⟨-, rfl⟩
    · exact absurd (a.vars.lt_size_of_get? hold) (not_lt.mpr hnew)
    · rfl
  · rw [← hb]
    exact (List.append_nil _).symm
  · rw [← hb]
    rfl

lemma Stocked.size_le (ha : a.Stocked) {id : VarId} {var : Variable}
    (h : a.vars.get? id = some var) : var.size ≤ a.limit := by
  refine le_trans ?_ ha.limit
  rw [ha.used]
  rw [VariableTable.get?_eq] at h
  exact List.le_sum_of_mem (List.mem_map_of_mem (List.mem_of_getElem? h))

/-- Two variables have room side by side. -/
lemma Stocked.size_add_size_le (ha : a.Stocked) {id other : VarId} {var var' : Variable}
    (h : id ≠ other) (hvar : a.vars.get? id = some var) (hvar' : a.vars.get? other = some var') :
    var.size + var'.size ≤ a.limit :=
  (a.vars.add_le_sum Variable.size h hvar hvar').trans (ha.used ▸ ha.limit)

/-! ## Instructions -/

variable {pending : PendingFunction}

lemma code_withPending (a : Assembler) (pending : PendingFunction) :
    (a.withPending pending).code = pending.regions.assemble := rfl

/-- Regions may be rearranged and instructions added to them. -/
lemma Tidy.withRegions (ha : a.Tidy) (hpending : a.pending = some pending) {table : RegionTable}
    (hsound : table.Sound) (hassemble : table.assemble = pending.regions.assemble ++ added)
    (hadmissible : ∀ instruction ∈ added, Instruction.Admissible a.vars instruction) :
    a.Step added (a.withPending { pending with regions := table }) where
  tidy := { ha with sound := fun _ h => Option.some.inj h ▸ hsound }
  stocked h := { h with }
  vars := .refl _
  allocated := Step.allocated_of_vars_eq rfl
  code := by rw [code_withPending, hassemble, Assembler.code, hpending]; rfl
  admissible := hadmissible
  header := by simp only [Assembler.header, withPending, hpending, Option.map_some]

lemma Tidy.emit (ha : a.Tidy) {instruction : Instruction} (h : a.emit instruction = .ok b) :
    a.Step [instruction] b ∧ b.vars = a.vars := by
  obtain ⟨hcheck, pending, table, hpending, htable, rfl⟩ := emit_eq_ok.mp h
  obtain ⟨hsound, hassemble, -⟩ := (ha.sound pending hpending).emit? htable
  refine ⟨ha.withRegions hpending hsound hassemble ?_, rfl⟩
  intro other hmem
  rw [List.mem_singleton.mp hmem]
  exact checkInstruction_eq_ok.mp hcheck

lemma Tidy.openRegion (ha : a.Tidy) {node : NodeId} (h : a.openRegion node = .ok b) :
    a.Step [] b ∧ b.vars = a.vars := by
  obtain ⟨pending, table, hpending, htable, rfl⟩ := openRegion_eq_ok.mp h
  obtain ⟨hsound, hassemble, -⟩ := (ha.sound pending hpending).create? htable
  refine ⟨ha.withRegions hpending hsound ?_ fun _ hmem => absurd hmem List.not_mem_nil, rfl⟩
  rw [hassemble, List.append_nil]

lemma Tidy.mergeRegion (ha : a.Tidy) (node : NodeId) :
    a.Step [] (a.accept (a.mergeRegion? node)).2 ∧
      (a.accept (a.mergeRegion? node)).2.vars = a.vars := by
  cases hnext : a.mergeRegion? node with
  | none => exact ⟨.refl ha, rfl⟩
  | some next =>
    obtain ⟨pending, table, source, hpending, -, htable, rfl⟩ := mergeRegion?_eq_some.mp hnext
    obtain ⟨hsound, hassemble, -⟩ := (ha.sound pending hpending).mergeWithPredecessor? htable
    refine ⟨ha.withRegions hpending hsound ?_ fun _ hmem => absurd hmem List.not_mem_nil, rfl⟩
    rw [hassemble, List.append_nil]

end Assembler
end Dataflow
