import Dataflow.Proofs.Backend.Accounting
import Dataflow.Proofs.Compiler.History
import Dataflow.Proofs.Compiler.Renumbering

/-!
# The storage of compilers and machines

A machine sets up every variable of its program, whether or not the assembler has reserved storage
for it.  A compiler declares a variable and then has its storage reserved; where the limit refuses
that, the declaration stays.  A compilation that fails takes its declarations back, but a direct
request does not.

So two things are proved of what a compiler does: unless the limit refuses a request, all variables
keep having storage (`Attempt.KeepsUnlessStarved`), and a direct request that the limit refuses
leaves more variables than the limit has room for (`Attempt.Overdraws`).
-/

namespace Dataflow

open Attempt

/-! ## What a machine sets up -/

/-- The number of values in a memory. -/
def Memory.elements (memory : Memory) : ℕ := (memory.cells.toList.map List.length).sum

lemma Machine.elements_start (program : Program) :
    (Machine.start program).memory.elements =
      program.vars.reserved + program.vars.unreserved := by
  have hcells : (Machine.start program).memory.cells.toList =
      program.vars.toList.map Variable.initialContents := Array.toList_map
  rw [VariableTable.reserved_add_unreserved, Memory.elements, hcells, List.map_map]
  exact congrArg List.sum (List.map_congr_left fun var _ => var.length_initialContents)

/-! ## Requests that the storage limit refuses -/

namespace Attempt

variable {σ α γ : Type} {x : Attempt σ α} {f : α → Attempt σ γ} {s t : σ} {e : CompileError}

/-- The attempt fails because the storage limit is reached. -/
def Starves (x : Attempt σ α) (s : σ) : Prop := ∃ e t, x s = .error e t ∧ e.Exhausted

lemma starves_of_error (h : x s = .error e t) : x.Starves s ↔ e.Exhausted := by
  refine ⟨?_, fun he => ⟨e, t, h, he⟩⟩
  rintro ⟨e', t', h', he⟩
  rw [h] at h'
  cases h'
  exact he

lemma not_starves_of_ok {a : α} (h : x s = .ok a t) : ¬ x.Starves s := by
  rintro ⟨e, u, h', -⟩
  rw [h] at h'
  cases h'

lemma starves_bind_of_ok {a : α} (h : x s = .ok a t) :
    (x >>= f).Starves s ↔ (f a).Starves t := by
  rw [Starves, Starves, bind_run, h]

lemma starves_bind_of_error (h : x s = .error e t) :
    (x >>= f).Starves s ↔ x.Starves s := by
  rw [Starves, Starves, bind_run, h]
  constructor
  · rintro ⟨e', t', heq, he⟩
    cases heq
    exact ⟨e, t, rfl, he⟩
  · rintro ⟨e', t', heq, he⟩
    cases heq
    exact ⟨e, t, rfl, he⟩

lemma starves_onBehalfOf (name : String) (s : σ) :
    (x.onBehalfOf name).Starves s ↔ x.Starves s := by
  cases hx : x s with
  | ok a t =>
    refine iff_of_false (not_starves_of_ok (a := a) (t := t) ?_) (not_starves_of_ok hx)
    rw [onBehalfOf, hx]
  | error e t =>
    have hrun : x.onBehalfOf name s = .error (e.withOrigin name) t := by rw [onBehalfOf, hx]
    rw [starves_of_error hrun, starves_of_error hx]
    refine ⟨?_, fun he => he.withOrigin name⟩
    rintro ⟨origin, limit, var, size, he⟩
    cases e with
    | structural | unboundReference => cases he
    | backend origin' fault =>
      rw [CompileError.withOrigin] at he
      split at he <;> cases he <;> exact ⟨_, _, _, _, rfl⟩

/-- The attempt leaves the invariant intact unless the storage limit makes it fail. -/
def KeepsUnlessStarved (I : σ → Prop) (α : Type) (x : Attempt σ α) : Prop :=
  ∀ s, I s → ¬ x.Starves s → I (x.after s)

namespace KeepsUnlessStarved

variable {I : σ → Prop}

lemma of_keeps (hx : Keeps I α x) : KeepsUnlessStarved I α x := fun s hs _ => hx s hs

lemma bind (hx : KeepsUnlessStarved I α x) (hf : ∀ a, KeepsUnlessStarved I γ (f a)) :
    KeepsUnlessStarved I γ (x >>= f) := by
  intro s hs hfed
  have hkept := hx s hs
  rw [after] at hkept
  rw [after, bind_run]
  cases hrun : x s with
  | ok a t =>
    rw [hrun] at hkept
    exact hf a t (hkept (not_starves_of_ok hrun)) (mt (starves_bind_of_ok hrun).mpr hfed)
  | error e t =>
    rw [hrun] at hkept
    exact hkept (mt (starves_bind_of_error hrun).mpr hfed)

lemma onBehalfOf (name : String) (hx : KeepsUnlessStarved I α x) :
    KeepsUnlessStarved I α (x.onBehalfOf name) := by
  intro s hs hfed
  rw [after_onBehalfOf]
  exact hx s hs (mt (starves_onBehalfOf name s).mpr hfed)

end KeepsUnlessStarved
end Attempt

namespace Assembler

variable {a next : Assembler}

/-! ## Full accounts -/

/-- An assembler whose count misses nothing. -/
def Exact (a : Assembler) : Prop := a.Balanced ⟨0, 0⟩

lemma Exact.allocate {spec : VariableSpec} (h : a.Exact)
    (hnext : (a.declare spec).allocate a.vars.next = .ok next) : next.Exact := by
  have hbalanced := Balanced.allocate (h.declare spec) hnext
  have hprompt : ¬ a.vars.next.index < (a.declare spec).committed.vars := not_lt.mpr h.kept
  rwa [Ledger.record, if_neg hprompt] at hbalanced

lemma Exact.preserved : Preserved Exact :=
  .of_frame (fun _ h => { h with }) (fun spec h => h.declare spec) fun h hnext => h.allocate hnext

lemma Exact.endFunction (h : a.Exact) (hnext : a.endFunction = .ok next) : next.Exact := by
  have hbalanced := Balanced.endFunction h hnext
  rwa [Ledger.record, ite_self] at hbalanced

/-- An exact assembler that keeps no variable of a finished function without storage. -/
structure Provisioned (a : Assembler) : Prop where
  exact : a.Exact
  kept : (a.vars.truncate a.committed.vars).unreserved = 0

/-- An exact assembler all of whose variables have storage. -/
structure Supplied (a : Assembler) : Prop extends Provisioned a where
  supplied : a.vars.unreserved = 0

namespace Provisioned

lemma declare (h : a.Provisioned) (spec : VariableSpec) : (a.declare spec).Provisioned := by
  refine ⟨Exact.preserved.declare spec h.exact, ?_⟩
  show ((a.vars.declare spec).truncate a.committed.vars).unreserved = 0
  rw [VariableTable.truncate_declare _ _ h.exact.kept]
  exact h.kept

lemma allocate {spec : VariableSpec} (h : a.Provisioned)
    (hnext : (a.declare spec).allocate a.vars.next = .ok next) : next.Provisioned := by
  refine ⟨h.exact.allocate hnext, ?_⟩
  obtain ⟨var, -, -, -, rfl⟩ := allocate_eq_ok.mp hnext
  show (((a.vars.declare spec).setAllocated a.vars.next true).truncate a.committed.vars).unreserved
    = 0
  have hnew : a.committed.vars ≤ a.vars.next.index := h.exact.kept
  rw [VariableTable.truncate_setAllocated _ true hnew,
    VariableTable.truncate_declare _ _ h.exact.kept]
  exact h.kept

lemma preserved : Preserved Provisioned :=
  .of_frame (fun _ h => { h with exact := { h.exact with } }) (fun spec h => h.declare spec)
    fun h hnext => h.allocate hnext

/-- Discarding a function drops all variables without storage. -/
lemma discardFunction (h : a.Provisioned) : a.discardFunction.Supplied where
  exact := Balanced.discardFunction h.exact
  kept := by
    show ((a.vars.truncate a.committed.vars).truncate a.committed.vars).unreserved = 0
    rw [VariableTable.truncate_truncate]
    exact h.kept
  supplied := h.kept

end Provisioned

namespace Supplied

lemma fresh (name : String) (policy : MergePolicy) (limit : ℕ) :
    (Assembler.fresh name policy limit).Supplied :=
  ⟨⟨.fresh name policy limit, rfl⟩, rfl⟩

lemma frame (h : a.Supplied) (pending : Option PendingFunction) :
    { a with pending }.Supplied :=
  ⟨⟨{ h.exact with }, h.kept⟩, h.supplied⟩

lemma allocate {spec : VariableSpec} (h : a.Supplied)
    (hnext : (a.declare spec).allocate a.vars.next = .ok next) : next.Supplied :=
  ⟨h.toProvisioned.allocate hnext,
    (VariableTable.unreserved_push (toList_allocate_declare hnext) rfl).trans h.supplied⟩

lemma endFunction (h : a.Supplied) (hnext : a.endFunction = .ok next) : next.Supplied := by
  refine ⟨⟨h.exact.endFunction hnext, ?_⟩, ?_⟩
  · obtain ⟨pending, -, rfl⟩ := endFunction_eq_ok.mp hnext
    show (a.vars.truncate a.vars.size).unreserved = 0
    rw [VariableTable.truncate_size]
    exact h.supplied
  · obtain ⟨pending, -, rfl⟩ := endFunction_eq_ok.mp hnext
    exact h.supplied

end Supplied

/-- An assembler whose variables would take more storage than its limit. -/
def Overdrawn (a : Assembler) : Prop := a.limit < a.used + a.vars.unreserved

lemma overdrawn_declare {spec : VariableSpec} (h : a.limit < a.used + spec.size) :
    (a.declare spec).Overdrawn := by
  show a.limit < a.used + (a.vars.declare spec).unreserved
  rw [VariableTable.unreserved_declare]
  omega

end Assembler

namespace Compiler

variable {options : Options}

/-! ## Requests that are granted -/

lemma fed_allocate (spec : VariableSpec) :
    KeepsUnlessStarved (Upholds Assembler.Supplied options) VarId (allocate spec) := by
  intro compiler h hfed
  cases hnext : (compiler.backend.declare spec).allocate compiler.vars.next with
  | error fault =>
    obtain ⟨limit, name, size, rfl⟩ := (Assembler.allocate_declare_error hnext).1
    have hrun := allocate_run spec compiler
    rw [hnext] at hrun
    exact absurd ((starves_of_error hrun).mpr ⟨"", limit, name, size, rfl⟩) hfed
  | ok next =>
    rw [Attempt.after, allocate_run, hnext]
    exact { h with backend := h.backend.allocate hnext }

lemma congruence_fed (options : Options) :
    Congruence id fun α _ x (_ : Attempt (Compiler Assembler) α) =>
      KeepsUnlessStarved (Upholds Assembler.Supplied options) α x where
  pure a := .of_keeps (.pure a)
  ofExcept _ := .of_keeps (.ofExcept _)
  bind := .bind
  onBehalfOf name _ _ := .onBehalfOf name
  look hf := .bind (.of_keeps fun _ h => h) fun compiler => hf compiler.scene
  elementType _ _ := .of_keeps (.bind (fun _ h => h) fun _ => .ofExcept _)
  checkOperands _ := .of_keeps (.bind (fun _ h => h) fun _ => .ofExcept _)
  allocate spec _ := fed_allocate spec
  bindPort _ _ := .of_keeps (keeps_modify (fun _ => rfl) fun _ => rfl)
  openRegion _ := .of_keeps <| keeps_onBackend <| .ofChange fun _ _ h hnext => by
    obtain ⟨pending, rfl⟩ := Assembler.openRegion_frame hnext
    exact h.frame pending
  regionCreated := .of_keeps (keeps_modify (fun _ => rfl) fun _ => rfl)
  emit _ := .of_keeps <| .bind (keeps_modify (fun _ => rfl) fun _ => rfl) fun _ =>
    keeps_onBackend <| .ofChange fun _ _ h hnext => by
      obtain ⟨pending, rfl⟩ := Assembler.emit_frame hnext
      exact h.frame pending
  finishNode _ := .of_keeps <| .bind (keeps_modify (fun _ => rfl) fun _ => rfl) fun _ =>
    keeps_modify (fun _ => rfl) fun _ => rfl
  mergeStep node isFirst := .of_keeps <| keeps_mergeStep (fun {a} h => by
    obtain ⟨pending, hnext⟩ := a.mergeRegion_frame node
    exact hnext ▸ h.frame pending) isFirst
  notify _ _ := .of_keeps (keeps_modify (fun _ => rfl) fun _ => rfl)

lemma fed_beginFunction (name : String) (parameters : List Parameter) :
    KeepsUnlessStarved (Upholds Assembler.Supplied options) Unit
      (onBackend (Backend.beginFunction name parameters)) :=
  .of_keeps <| keeps_onBackend <| .ofChange fun _ _ h hnext => by
    obtain ⟨pending, rfl⟩ := Assembler.beginFunction_frame hnext
    exact h.frame pending

/-- A compilation leaves only variables with storage, whether or not the limit is reached. -/
lemma compile_supplied {compiler : Compiler Assembler}
    (h : Upholds Assembler.Supplied options compiler) (model : Model) (name : String) :
    Upholds Assembler.Supplied options ((compile model name).after compiler) := by
  cases hrun : compile model name compiler with
  | ok function last =>
    -- nothing was refused, or the compilation would have failed
    obtain ⟨parameters, opened, backend, hopened, hended, -, rfl⟩ := compile_eq_ok hrun
    have hcongruence := congruence_fed options
    have hbegin := hcongruence.beginModel model name (fed_beginFunction name)
    have hopen := hcongruence.compileOpen model hbegin (compiler.enter name)
      ⟨h.backend, h.options⟩ (not_starves_of_ok hopened)
    rw [Attempt.after, hopened] at hopen
    rw [Attempt.after, hrun]
    exact ⟨hopen.backend.endFunction hended, hopen.options⟩
  | error e last =>
    -- a variable may have been refused its storage, but the discarded function takes it along
    have hopen := compileOpen_upholds Assembler.Provisioned.preserved h.backend.toProvisioned
      model name
    rw [h.options] at hopen
    rw [Attempt.after, hrun, compile_eq_error hrun]
    exact ⟨hopen.backend.discardFunction, hopen.options⟩

/-! ## Requests that are refused -/

/-- If the storage limit makes the attempt fail, the variables would take more than the limit. -/
def Overdraws {α : Type} (x : Attempt (Compiler Assembler) α) : Prop :=
  ∀ compiler, x.Starves compiler → (x.after compiler).backend.Overdrawn

namespace Overdraws

variable {α γ : Type} {x : Attempt (Compiler Assembler) α}
variable {f : α → Attempt (Compiler Assembler) γ}

lemma of_never (h : ∀ compiler, ¬ x.Starves compiler) : Overdraws x :=
  fun compiler hstarves => absurd hstarves (h compiler)

lemma pure (a : α) : Overdraws (Pure.pure a) := of_never fun _ => not_starves_of_ok rfl

lemma bindPort (port : PortId) (var : VarId) :
    Overdraws (modify fun compiler => compiler.bindPort port var) :=
  of_never fun _ => not_starves_of_ok rfl

/-- A check of the graph does not depend on the storage limit. -/
lemma fail {e : CompileError} (he : e.BlamesGraph) :
    Overdraws (MonadExcept.ofExcept (.error e) : Attempt (Compiler Assembler) α) := by
  refine of_never fun compiler => mt (starves_of_error rfl).mp ?_
  rintro ⟨origin, limit, name, size, rfl⟩
  exact he

lemma bind (hx : Overdraws x) (hf : ∀ a, Overdraws (f a)) : Overdraws (x >>= f) := by
  intro compiler hstarves
  have hover := hx compiler
  rw [Attempt.after] at hover
  rw [Attempt.after, bind_run]
  cases hrun : x compiler with
  | ok a next => exact hf a next ((starves_bind_of_ok hrun).mp hstarves)
  | error e next =>
    rw [hrun] at hover
    exact hover ((starves_bind_of_error hrun).mp hstarves)

lemma onBehalfOf (name : String) (hx : Overdraws x) : Overdraws (x.onBehalfOf name) := by
  intro compiler hstarves
  rw [after_onBehalfOf]
  exact hx compiler ((starves_onBehalfOf name compiler).mp hstarves)

lemma mapM {ι : Type} {g : ι → Attempt (Compiler Assembler) α} (hg : ∀ i, Overdraws (g i))
    (list : List ι) : Overdraws (list.mapM g) := by
  induction list with
  | nil => exact pure []
  | cons i rest ih =>
    rw [List.mapM_cons]
    exact (hg i).bind fun a => ih.bind fun as => pure (a :: as)

/-- The declaration stays, for which there was no room. -/
lemma allocate (spec : VariableSpec) : Overdraws (Compiler.allocate spec) := by
  intro compiler hstarves
  cases hnext : (compiler.backend.declare spec).allocate compiler.vars.next with
  | error fault =>
    have hroom := (Assembler.allocate_declare_error hnext).2
    rw [Attempt.after, allocate_run, hnext]
    exact Assembler.overdrawn_declare hroom
  | ok next =>
    have hrun := allocate_run spec compiler
    rw [hnext] at hrun
    exact absurd hstarves (not_starves_of_ok hrun)

lemma allocateBound (spec : VariableSpec) (port : PortId) :
    Overdraws (do
      let var ← Compiler.allocate spec
      modify fun compiler => compiler.bindPort port var
      return var) :=
  (allocate spec).bind fun var => (bindPort port var).bind fun _ => pure var

lemma allocatePort (port : OutputPort) (initial : Option Float) :
    Overdraws (Compiler.allocatePort port initial) := by
  unfold Compiler.allocatePort
  simp only
  split
  · exact bind (fail trivial) fun _ => allocateBound _ port.id
  · exact allocateBound _ port.id

lemma getOrAllocatePort (port : OutputPort) (initial : Option Float) :
    Overdraws (Compiler.getOrAllocatePort port initial) := by
  rw [getOrAllocatePort_eq]
  refine bind (of_never fun _ => not_starves_of_ok rfl) fun compiler => ?_
  cases compiler.variableOf? port.id with
  | some var => exact pure var
  | none => exact allocatePort port initial

lemma allocateData (port : OutputPort) (values : List Float) :
    Overdraws (Compiler.allocateData port values) := by
  unfold Compiler.allocateData
  simp only
  split
  · exact bind (fail trivial) fun _ => allocateBound _ port.id
  · exact allocateBound _ port.id

lemma allocateParameter (storage : StorageClass) (port : OutputPort) :
    Overdraws (Compiler.allocateParameter storage port) :=
  ((allocate _).onBehalfOf port.name).bind fun var => (bindPort port.id var).bind fun _ => pure _

lemma allocateParameters (model : Model) : Overdraws (Compiler.allocateParameters model) :=
  (mapM (allocateParameter .input) _).bind fun _ =>
    (mapM (allocateParameter .output) _).bind fun _ => pure _

end Overdraws

/-! ## Histories -/

/-- The operation is a direct request for storage that the storage limit refuses. -/
def Strands (compiler : Compiler Assembler) : Operation → Prop
  | .allocateParameters model => (allocateParameters model).Starves compiler
  | .allocatePort port initial => (allocatePort port initial).Starves compiler
  | .getOrAllocatePort port initial => (getOrAllocatePort port initial).Starves compiler
  | .allocateData port values => (allocateData port values).Starves compiler
  | .allocateScratch elementType size => (allocateScratch elementType size).Starves compiler
  | .compile .. | .pushScope | .popScope | .bindPort .. | .bindElement .. => False

variable {compiler : Compiler Assembler}

lemma perform_overdrawn {operation : Operation} (h : compiler.Strands operation) :
    (compiler.perform operation).backend.Overdrawn := by
  cases operation with
  | compile | pushScope | popScope | bindPort | bindElement => exact h.elim
  | allocateParameters model => exact Overdraws.allocateParameters model compiler h
  | allocatePort port initial => exact Overdraws.allocatePort port initial compiler h
  | getOrAllocatePort port initial => exact Overdraws.getOrAllocatePort port initial compiler h
  | allocateData port values => exact Overdraws.allocateData port values compiler h
  | allocateScratch elementType size => exact Overdraws.allocate _ compiler h

lemma perform_supplied (h : Upholds Assembler.Supplied options compiler) {operation : Operation}
    (hfed : ¬ compiler.Strands operation) :
    Upholds Assembler.Supplied options (compiler.perform operation) := by
  have hcongruence := congruence_fed options
  cases operation with
  | compile model name => exact compile_supplied h model name
  | allocateParameters model => exact hcongruence.allocateParameters model compiler h hfed
  | allocatePort port initial => exact hcongruence.allocatePort port initial compiler h hfed
  | getOrAllocatePort port initial =>
    exact hcongruence.getOrAllocatePort port initial compiler h hfed
  | allocateData port values => exact hcongruence.allocateData port values compiler h hfed
  | allocateScratch elementType size => exact fed_allocate _ compiler h hfed
  | popScope =>
    rw [perform, popScope]
    cases compiler.scopes.pop? with
    | none => exact h
    | some scopes => exact ⟨h.backend, h.options⟩
  | pushScope | bindPort | bindElement => exact ⟨h.backend, h.options⟩

variable {program : String} {policy : MergePolicy} {limit : ℕ}

/-- A compiler's assembler never loses count: it gives storage to new variables only. -/
lemma history_exact (history : List Operation) :
    (history.foldl perform
      (fresh (Assembler.fresh program policy limit) options)).backend.Exact :=
  history_preserved Assembler.Exact.preserved (fun h hnext => h.endFunction hnext)
    (fun h => Assembler.Balanced.discardFunction h) (.fresh program policy limit) history

/-- The number of values that a machine would set up for the program of a compiler. -/
def materialised (compiler : Compiler Assembler) : ℕ :=
  (Machine.start compiler.backend.program).memory.elements

/-- **What a machine sets up.**  Whatever is asked of a compiler, in any order and with any outcome,
it reserves at most as many elements as its limit, and a machine for its program sets up these and
the elements of the variables that were declared but refused storage.  The machine keeps within the
limit throughout a history just if the limit refuses none of its direct requests for storage:
compilations may fail for lack of it. -/
theorem materialised_history (program : String) (policy : MergePolicy) (limit : ℕ)
    (options : Options) (history : List Operation) :
    let reached := fun history : List Operation =>
      history.foldl perform (fresh (Assembler.fresh program policy limit) options)
    (reached history).backend.used ≤ limit ∧
      (reached history).materialised =
        (reached history).backend.used + (reached history).backend.vars.unreserved ∧
      ((∀ before, before <+: history → (reached before).materialised ≤ limit) ↔
        ∀ before operation, before ++ [operation] <+: history →
          ¬ (reached before).Strands operation) := by
  intro reached
  have hlimit : ∀ history, (reached history).backend.limit = limit := history_limit
  have hused : ∀ history, (reached history).backend.used ≤ limit := fun history =>
    (history_exact history).limit.trans_eq (hlimit history)
  have helements : ∀ history, (reached history).materialised =
      (reached history).backend.used + (reached history).backend.vars.unreserved := by
    intro history
    have hexact : (reached history).backend.Exact := history_exact history
    rw [materialised, Machine.elements_start]
    exact congrArg (· + _) hexact.reserved
  have hstep : ∀ before operation,
      reached (before ++ [operation]) = (reached before).perform operation :=
    fun before operation => List.foldl_concat _ _ _ _
  refine ⟨hused history, helements history, fun hbounded before operation hbefore hstrands => ?_,
    fun hfed before hbefore => ?_⟩
  · have hover : (reached (before ++ [operation])).backend.Overdrawn := by
      rw [hstep]
      exact perform_overdrawn hstrands
    rw [Assembler.Overdrawn, hlimit, ← helements] at hover
    exact absurd (hbounded _ hbefore) (not_le.mpr hover)
  · -- by induction from the end of the history, since an operation is asked of what came before it
    have hsupplied : Upholds Assembler.Supplied options (reached before) := by
      induction before using List.reverseRecOn with
      | nil => exact ⟨.fresh program policy limit, rfl⟩
      | append_singleton before operation ih =>
        rw [hstep]
        exact perform_supplied (ih ((List.prefix_append before [operation]).trans hbefore))
          (hfed before operation hbefore)
    rw [helements, hsupplied.backend.supplied]
    exact hused before

/-- A variable of five elements stays in the table although the limit of four leaves no room for
it, and a machine sets it up. -/
theorem materialised_scratch :
    let compiler := [Operation.allocateScratch .real 5].foldl perform
      (fresh (Assembler.fresh "m" .always 4) .standard)
    compiler.backend.limit = 4 ∧ compiler.backend.used = 0 ∧ compiler.materialised = 5 := by
  decide +kernel

end Compiler
end Dataflow
