import Dataflow.Proofs.Acceptance.Order
import Dataflow.Proofs.Compiler.Bindings

/-!
# Scopes and the storage of ports

Whatever is asked of a compiler besides compilations, opens or closes frames and binds ports in the
innermost one (`Compiler.trail`), and the table of variables only grows.  Allocations bind a port if
they succeed, and a port that has a variable gets no other one.  So a block, which closes as many
scopes as it opens, leaves no trace but its variables (`Compiler.block_restores`), and the variable
of a port is found again as long as its frame is open (`Compiler.getOrAllocatePort_stable`).
-/

namespace Dataflow

open Attempt ScopeEvent

namespace Compiler

/-- What an attempt to give a port a variable does to the scopes. -/
def bindingOf (port : PortId) : Except CompileError VarId → List ScopeEvent
  | .ok var => [.bound port var]
  | .error _ => []

/-- What allocating parameters does to the scopes.  The ports before the first one that is refused
stay bound. -/
def parameterEvents (compiler : Compiler Assembler) :
    List (StorageClass × OutputPort) → List ScopeEvent
  | [] => []
  | (storage, port) :: rest =>
    match allocateParameter storage port compiler with
    | .ok _ next => .bound port.id compiler.vars.next :: parameterEvents next rest
    | .error .. => []

/-- What an operation does to the scopes of a compiler.  The root scope cannot be closed, and
compilations, which start over with scopes of their own, are left out. -/
def events (compiler : Compiler Assembler) : Operation → List ScopeEvent
  | .compile .. => []
  | .allocateParameters model => compiler.parameterEvents model.roster
  | .allocatePort port initial => bindingOf port.id ((allocatePort port initial).outcome compiler)
  | .getOrAllocatePort port initial =>
    if (compiler.variableOf? port.id).isSome then []
    else bindingOf port.id ((allocatePort port initial).outcome compiler)
  | .allocateData port values => bindingOf port.id ((allocateData port values).outcome compiler)
  | .allocateScratch .. => []
  | .pushScope => [.opened]
  | .popScope => if compiler.scopes.depth = 1 then [] else [.closed]
  | .bindPort port var => [.bound port var]
  | .bindElement range var => [.bound range.port var]

/-- What a history does to the scopes of a compiler. -/
def trail (compiler : Compiler Assembler) : List Operation → List ScopeEvent
  | [] => []
  | operation :: rest => compiler.events operation ++ trail (compiler.perform operation) rest

variable {compiler : Compiler Assembler} {operation : Operation} {history rest : List Operation}

lemma trail_append (compiler : Compiler Assembler) (history rest : List Operation) :
    compiler.trail (history ++ rest) =
      compiler.trail history ++ (history.foldl perform compiler).trail rest := by
  induction history generalizing compiler with
  | nil => rfl
  | cons operation history ih =>
    rw [List.cons_append, trail, trail, ih, List.append_assoc, List.foldl_cons]

/-! ## The scopes after an operation -/

/-- An attempt to allocate binds the port just if it succeeds. -/
def Binds (port : PortId) (x : Attempt (Compiler Assembler) VarId) : Prop :=
  ∀ compiler, (x.after compiler).scopes =
    compiler.scopes.replay (bindingOf port (x.outcome compiler))

lemma scopes_after_allocate (spec : VariableSpec) (compiler : Compiler Assembler) :
    ((allocate spec).after compiler).scopes = compiler.scopes := by
  rw [Attempt.after, allocate_run]
  cases (compiler.backend.declare spec).allocate compiler.vars.next <;> rfl

lemma binds_allocateBound (spec : VariableSpec) (port : PortId) : Binds port (do
    let var ← allocate spec
    modify fun compiler => compiler.bindPort port var
    return var) := by
  intro compiler
  rw [Attempt.after, outcome, bind_run, allocate_run]
  cases (compiler.backend.declare spec).allocate compiler.vars.next <;> rfl

lemma binds_throw (port : PortId) (e : CompileError)
    (f : PUnit → Attempt (Compiler Assembler) VarId) : Binds port (throw e >>= f) :=
  fun _ => rfl

lemma binds_allocatePort (port : OutputPort) (initial : Option Float) :
    Binds port.id (allocatePort port initial) := by
  unfold allocatePort
  simp only
  split
  · exact binds_throw _ _ _
  · exact binds_allocateBound _ port.id

lemma binds_allocateData (port : OutputPort) (values : List Float) :
    Binds port.id (allocateData port values) := by
  unfold allocateData
  simp only
  split
  · exact binds_throw _ _ _
  · exact binds_allocateBound _ port.id

lemma allocateParameter_run (storage : StorageClass) (port : OutputPort)
    (compiler : Compiler Assembler) :
    (∃ parameter next, allocateParameter storage port compiler = .ok parameter next ∧
      next.scopes = compiler.scopes.bind port.id compiler.vars.next) ∨
    ∃ e next, allocateParameter storage port compiler = .error e next ∧
      next.scopes = compiler.scopes := by
  rw [allocateParameter, bind_run, onBehalfOf, allocate_run]
  cases (compiler.backend.declare _).allocate compiler.vars.next with
  | ok backend => exact .inl ⟨_, _, rfl, rfl⟩
  | error fault => exact .inr ⟨_, _, rfl, rfl⟩

lemma scopes_after_mapM (roster : List (StorageClass × OutputPort))
    (compiler : Compiler Assembler) :
    ((roster.mapM fun entry => allocateParameter entry.1 entry.2).after compiler).scopes =
      compiler.scopes.replay (compiler.parameterEvents roster) := by
  induction roster generalizing compiler with
  | nil => rfl
  | cons entry rest ih =>
    obtain ⟨storage, port⟩ := entry
    rw [List.mapM_cons, parameterEvents, Attempt.after, bind_run]
    rcases allocateParameter_run storage port compiler with
      ⟨parameter, next, hrun, hscopes⟩ | ⟨e, next, hrun, hscopes⟩
    · have hrest := ih next
      rw [Attempt.after] at hrest
      simp only [hrun, bind_run, ScopeStack.replay_cons, ScopeStack.next]
      rw [← hscopes, ← hrest]
      cases (rest.mapM fun entry => allocateParameter entry.1 entry.2) next <;> rfl
    · simp only [hrun, hscopes, ScopeStack.replay_nil]

lemma allocateParameters_eq (model : Model) :
    (allocateParameters model : Attempt (Compiler Assembler) (List Parameter)) =
      model.roster.mapM fun entry => allocateParameter entry.1 entry.2 := by
  rw [Model.roster, List.mapM_append, List.mapM_map, List.mapM_map, allocateParameters]
  rfl

/-- What is asked of a compiler besides compilations does to its scopes what is noted of it. -/
lemma scopes_perform (compiler : Compiler Assembler)
    (h : ∀ model name, operation ≠ .compile model name) :
    (compiler.perform operation).scopes = compiler.scopes.replay (compiler.events operation) := by
  cases operation with
  | compile model name => exact absurd rfl (h model name)
  | allocateParameters model =>
    rw [perform, events, allocateParameters_eq, scopes_after_mapM]
  | allocatePort port initial => exact binds_allocatePort port initial compiler
  | getOrAllocatePort port initial =>
    rw [perform, events, getOrAllocatePort_eq]
    show (((compiler.variableOf? port.id).elim (allocatePort port initial) pure).after
      compiler).scopes = _
    cases compiler.variableOf? port.id with
    | none => exact binds_allocatePort port initial compiler
    | some var => rfl
  | allocateData port values => exact binds_allocateData port values compiler
  | allocateScratch elementType size => exact scopes_after_allocate _ compiler
  | pushScope => rfl
  | popScope =>
    obtain ⟨backend, session, options, ⟨innermost, outer⟩, compiled⟩ := compiler
    cases outer <;> rfl
  | bindPort port var => rfl
  | bindElement range var => rfl

/-! ## The scopes after a history -/

section

variable (hhistory : ∀ model name, Operation.compile model name ∉ history)

include hhistory

lemma scopes_history (compiler : Compiler Assembler) :
    (history.foldl perform compiler).scopes = compiler.scopes.replay (compiler.trail history) := by
  induction history generalizing compiler with
  | nil => rfl
  | cons operation rest ih =>
    have hfirst : ∀ model name, operation ≠ .compile model name := fun model name heq =>
      hhistory model name (heq ▸ List.mem_cons_self)
    rw [List.foldl_cons, trail, ScopeStack.replay_append, ← scopes_perform compiler hfirst]
    exact ih (fun model name hmem => hhistory model name (List.mem_cons_of_mem _ hmem)) _

/-- What is asked of a compiler besides compilations only adds to the table of variables. -/
lemma history_grows (compiler : Compiler Assembler) :
    compiler.backend.vars.Prefix (history.foldl perform compiler).backend.vars := by
  let J : Assembler → Prop := fun a => compiler.backend.vars.Prefix a.vars
  have hstart : Upholds J compiler.options compiler := ⟨.refl _, rfl⟩
  have hallocate (spec : VariableSpec) : Keeps (Upholds J compiler.options) VarId (allocate spec) :=
    keeps_allocate (fun {a} h => h.trans ⟨_, (a.vars.toList_declare_variable spec).symm⟩)
      fun h hnext => h.trans ⟨_, (Assembler.toList_allocate_declare hnext).symm⟩
  refine (history_upholds hstart fun operation hmem _ h => ?_).backend
  exact perform_upholds (fun spec _ => hallocate spec)
    (fun model name heq => absurd (heq ▸ hmem) (hhistory model name)) h
    fun model _ => keeps_allocateParameters hallocate model

end

/-! ## Blocks -/

/-- Whether an operation is no compilation and leaves the number of scopes alone. -/
def Operation.isPlain : Operation → Bool
  | .compile .. => false
  | .pushScope => false
  | .popScope => false
  | .allocateParameters _ => true
  | .allocatePort .. => true
  | .getOrAllocatePort .. => true
  | .allocateData .. => true
  | .allocateScratch .. => true
  | .bindPort .. => true
  | .bindElement .. => true

/-- Histories without compilations that close every scope they open and no other one. -/
inductive Balanced : List Operation → Prop
  /-- Nothing is done. -/
  | nil : Balanced []
  /-- An operation that leaves the number of scopes alone. -/
  | plain {operation : Operation} {rest : List Operation} :
    operation.isPlain = true → Balanced rest → Balanced (operation :: rest)
  /-- A nested block. -/
  | block {inner rest : List Operation} :
    Balanced inner → Balanced rest → Balanced (.pushScope :: (inner ++ .popScope :: rest))

lemma level_bindingOf (k : ℕ) (port : PortId) (outcome : Except CompileError VarId) :
    level k (bindingOf port outcome) = some k := by
  cases outcome <;> rfl

lemma level_parameterEvents (k : ℕ) (roster : List (StorageClass × OutputPort))
    (compiler : Compiler Assembler) : level k (compiler.parameterEvents roster) = some k := by
  induction roster generalizing compiler with
  | nil => rfl
  | cons entry rest ih =>
    rw [parameterEvents]
    split
    · rw [level_bound, ih]
    · rfl

/-- A plain operation opens and closes nothing. -/
lemma level_plain (k : ℕ) (compiler : Compiler Assembler) (h : operation.isPlain = true) :
    level k (compiler.events operation) = some k := by
  cases operation with
  | compile model name => cases h
  | allocateParameters model => exact level_parameterEvents k model.roster compiler
  | allocatePort port initial => exact level_bindingOf k port.id _
  | getOrAllocatePort port initial =>
    rw [events]
    split
    · rfl
    · exact level_bindingOf k port.id _
  | allocateData port values => exact level_bindingOf k port.id _
  | allocateScratch elementType size => rfl
  | pushScope => cases h
  | popScope => cases h
  | bindPort port var => rfl
  | bindElement range var => rfl

lemma Balanced.compile_not_mem (h : Balanced history) (model : Model) (name : String) :
    Operation.compile model name ∉ history := by
  induction h with
  | nil => exact List.not_mem_nil
  | plain hplain _ ih =>
    intro hmem
    rcases List.mem_cons.mp hmem with rfl | hrest
    · cases hplain
    · exact ih hrest
  | block _ _ ihinner ihrest => simp [ihinner, ihrest]

/-- A block has as many scopes open at the end as at the beginning, whatever it starts from. -/
lemma Balanced.level_trail (h : Balanced history) (k : ℕ) (compiler : Compiler Assembler) :
    level k (compiler.trail history) = some k := by
  induction h generalizing k compiler with
  | nil => rfl
  | plain hplain _ ih =>
    rw [trail, level_append, level_plain k compiler hplain, Option.bind_some, ih]
  | @block inner rest hinner hrest ihinner ihrest =>
    -- the inner block leaves one frame more than there were, so the closing is not refused
    have hopened : (inner.foldl perform compiler.pushScope).scopes.outer.length =
        compiler.scopes.outer.length + 1 := by
      rw [scopes_history hinner.compile_not_mem]
      exact ScopeStack.length_outer_replay (ihinner _ _)
    have hclosed : (inner.foldl perform compiler.pushScope).events .popScope = [.closed] := by
      rw [events, ScopeStack.depth, hopened]
      exact if_neg (by omega)
    rw [trail, events, List.singleton_append, level_opened, trail_append, level_append]
    rw [show compiler.perform .pushScope = compiler.pushScope from rfl, ihinner, Option.bind_some]
    rw [trail, hclosed, List.singleton_append, level_succ_closed, ihrest]

/-- A block that has been closed again leaves the scopes as they were. -/
lemma Balanced.popScope_eq (h : Balanced history) (compiler : Compiler Assembler) :
    (history.foldl perform compiler.pushScope).popScope =
      (true, { history.foldl perform compiler.pushScope with scopes := compiler.scopes }) := by
  have hscopes := scopes_history h.compile_not_mem compiler.pushScope
  have hframes : (history.foldl perform compiler.pushScope).scopes.outer =
      compiler.scopes.frames := by
    rw [hscopes]
    exact ScopeStack.drop_frames_replay (h.level_trail 0 compiler.pushScope) (Nat.zero_le _)
  rw [popScope, ScopeStack.pop?, hframes]
  rfl

/-- **Blocks shadow and restore.**  If a scope is opened, and after any balanced operations,
successful or not, closed again, every port has the variable that it had before, the innermost scope
binds the ports that it bound before, and no scope is left open, while every variable that was in
the table at any time stays in it.  At any time inside the block, a port has the variable that it
was bound to latest in the innermost scope that is still open and in which it has been bound since
the block was opened, and if there is none, the variable that it had outside.  The root scope cannot
be closed. -/
theorem block_restores (compiler : Compiler Assembler) {body : List Operation}
    (hbody : Balanced body) :
    let last := (body.foldl perform compiler.pushScope).perform .popScope
    (body.foldl perform compiler.pushScope).popScope = (true, last) ∧
    (∀ port, last.variableOf? port = compiler.variableOf? port ∧
      last.scopes.bindsInnermost port = compiler.scopes.bindsInnermost port) ∧
    last.scopes.depth = compiler.scopes.depth ∧
    (∀ before, before <+: body →
      let reached := before.foldl perform compiler.pushScope
      let sinceOpened := compiler.pushScope.trail before
      (∀ id var, reached.backend.vars.get? id = some var →
        last.backend.vars.get? id = some var) ∧
      ∀ port var, reached.variableOf? port = some var ↔
        Governs sinceOpened port var ∨
          Unbound sinceOpened port ∧ compiler.variableOf? port = some var) ∧
    ∀ other : Compiler Assembler, other.scopes.depth = 1 → other.popScope = (false, other) := by
  have hpop := hbody.popScope_eq compiler
  have hlast : (body.foldl perform compiler.pushScope).perform .popScope =
      { body.foldl perform compiler.pushScope with scopes := compiler.scopes } :=
    congrArg Prod.snd hpop
  rw [hlast]
  refine ⟨hpop, fun port => ⟨rfl, rfl⟩, rfl, fun before hbefore => ?_, fun other hroot => ?_⟩
  · obtain ⟨rest, rfl⟩ := hbefore
    have hcompile := hbody.compile_not_mem
    have hbefore : ∀ model name, Operation.compile model name ∉ before := fun model name hmem =>
      hcompile model name (List.mem_append_left rest hmem)
    have hrest : ∀ model name, Operation.compile model name ∉ rest := fun model name hmem =>
      hcompile model name (List.mem_append_right before hmem)
    refine ⟨fun id var hvar => ?_, fun port var => ?_⟩
    · rw [List.foldl_append]
      exact (history_grows hrest _).get? hvar
    · -- a block that closes only what it has opened has not closed its own frame on the way
      have hlevel := hbody.level_trail 0 compiler.pushScope
      rw [trail_append, level_append_eq_some] at hlevel
      obtain ⟨m, hm, -⟩ := hlevel
      rw [variableOf?, scopes_history hbefore]
      exact ScopeStack.lookup_replay_eq_some_iff hm
  · have houter : other.scopes.outer = [] := List.eq_nil_of_length_eq_zero (Nat.succ.inj hroot)
    rw [popScope, ScopeStack.pop?, houter]

theorem block_restores_nested :
    let compiler := (fresh (Assembler.fresh "m" .always 10) .standard).bindPort ⟨0⟩ ⟨7⟩
    let body := [.bindElement ⟨⟨0⟩, 0, 1⟩ ⟨8⟩, .pushScope,
      .allocateData ⟨⟨0⟩, ⟨0⟩, "x", .real, 2⟩ [1, 2], .popScope, .allocateScratch .real 20]
    let last := (body.foldl perform compiler.pushScope).perform .popScope
    Balanced body ∧ (body.foldl perform compiler.pushScope).variableOf? ⟨0⟩ = some ⟨8⟩ ∧
      last.variableOf? ⟨0⟩ = some ⟨7⟩ ∧ last.backend.vars.size = 2 ∧
      Governs (compiler.pushScope.trail (body.take 3)) ⟨0⟩ ⟨0⟩ := by
  intro compiler body last
  have hinner : Balanced [.allocateData ⟨⟨0⟩, ⟨0⟩, "x", .real, 2⟩ [1, 2]] := .plain rfl .nil
  have hbody : Balanced body := .plain rfl (hinner.block (.plain rfl .nil))
  obtain ⟨-, hports, -, hinside, -⟩ := block_restores compiler hbody
  refine ⟨hbody, by decide +kernel, (hports ⟨0⟩).1, by decide +kernel, ?_⟩
  have hgoverns := ((hinside (body.take 3) (List.take_prefix _ _)).2 ⟨0⟩ ⟨0⟩).mp (by decide +kernel)
  exact hgoverns.resolve_right fun h => absurd h.1 (by decide +kernel)

/-! ## The storage of a port -/

/-- A port that has a variable keeps it, and nothing is allocated. -/
lemma getOrAllocatePort_of_bound {port : OutputPort} {var : VarId}
    (h : compiler.variableOf? port.id = some var) (initial : Option Float) :
    getOrAllocatePort port initial compiler = .ok var compiler := by
  rw [getOrAllocatePort_eq]
  show (compiler.variableOf? port.id).elim (allocatePort port initial) pure compiler = _
  rw [h]
  rfl

/-- What a port is given that has no variable. -/
lemma allocatePort_ok {port : OutputPort} {initial : Option Float} {var : VarId}
    {last : Compiler Assembler} (h : allocatePort port initial compiler = .ok var last) :
    last.variableOf? port.id = some var ∧
      last.backend.vars.get? var = some (compiler.backend.allotted
        ⟨none, .global, port.elementType, port.size, initial.elim .zero .ofFill⟩) := by
  unfold allocatePort at h
  simp only at h
  split at h
  · exact absurd h throw_bind_run_ne_ok
  · obtain ⟨own, next, hallocate, h⟩ := bind_eq_ok.mp h
    obtain ⟨rfl, rfl⟩ := EStateM.Result.ok.inj h
    obtain ⟨backend, hbackend, rfl, rfl⟩ := allocate_eq_ok.mp hallocate
    have hentry := Assembler.get?_allocate_declare hbackend
    exact ⟨variableOf?_bindPort _ _ _, by cases initial <;> exact hentry⟩

/-- **Lazy allocation is stable.**  Once a port has been given a variable on request, or has been
found to have one, any history without compilations that does not close the innermost frame which
binds the port, and binds the port only in frames that it closes again, leaves the port its
variable: another request returns it, whatever initial value is asked for, and changes nothing.  If
the first request allocated the variable, it is still storage of the whole program for elements of
the type and number of the port, and still starts with the initial value of that request, or with
zeros if this was absent or zero. -/
theorem getOrAllocatePort_stable {compiler first : Compiler Assembler} {port : OutputPort}
    {initial : Option Float} {var : VarId}
    (hfirst : getOrAllocatePort port initial compiler = .ok var first) {history : List Operation}
    (hhistory : ∀ model name, Operation.compile model name ∉ history) {k : ℕ}
    (hbinder : first.scopes.binder? port.id = some k)
    (hopen : (level k (first.trail history)).isSome)
    (hclosed : Unbound (first.trail history) port.id) :
    let last := history.foldl perform first
    (∀ other, getOrAllocatePort port other last = .ok var last) ∧
    (compiler.variableOf? port.id = none → ∃ entry,
      last.backend.vars.get? var = some entry ∧ entry.storage = .global ∧
      entry.elementType = port.elementType ∧ entry.size = port.size ∧ entry.allocated = true ∧
      ((∀ value, initial = some value → (value == 0) = true) → entry.initializer = .zero) ∧
      ∀ value, initial = some value → (value == 0) = false → entry.initializer = .fill value) := by
  intro last
  rw [getOrAllocatePort_eq] at hfirst
  change (compiler.variableOf? port.id).elim (allocatePort port initial) pure compiler = _ at hfirst
  have hbound : first.variableOf? port.id = some var := by
    cases hvar : compiler.variableOf? port.id with
    | none =>
      rw [hvar] at hfirst
      exact (allocatePort_ok hfirst).1
    | some own =>
      rw [hvar] at hfirst
      obtain ⟨rfl, rfl⟩ := EStateM.Result.ok.inj hfirst
      exact hvar
  obtain ⟨hk, hinner⟩ := ScopeStack.binder?_eq_some hbinder
  obtain ⟨m, hlevel⟩ := Option.isSome_iff_exists.mp hopen
  have hlast : last.variableOf? port.id = some var := by
    rw [variableOf?, scopes_history hhistory first,
      ScopeStack.lookup_replay_of_unbound hclosed hlevel hk hinner]
    exact hbound
  refine ⟨fun other => getOrAllocatePort_of_bound hlast other, fun hnone => ?_⟩
  rw [hnone] at hfirst
  have hentry := (history_grows hhistory first).get? (allocatePort_ok hfirst).2
  refine ⟨_, hentry, rfl, rfl, rfl, rfl, fun hzero => ?_, ?_⟩
  · cases initial with
    | none => rfl
    | some value => exact if_pos (hzero value rfl)
  · rintro value rfl hne
    exact if_neg (by rw [hne]; exact Bool.false_ne_true)

theorem getOrAllocatePort_stable_shadowed :
    let port : OutputPort := ⟨⟨0⟩, ⟨0⟩, "x", .real, 2⟩
    let history : List Operation := [.pushScope, .bindPort ⟨0⟩ ⟨9⟩, .allocateScratch .real 20,
      .popScope, .popScope, .allocatePort ⟨⟨1⟩, ⟨1⟩, "y", .int, 3⟩ none]
    ∃ first, getOrAllocatePort port (some 2)
        (fresh (Assembler.fresh "m" .always 10) .standard) = .ok ⟨0⟩ first ∧
      Unbound (first.trail history) ⟨0⟩ ∧
      let last := history.foldl perform first
      last.backend.vars.size = 3 ∧ getOrAllocatePort port none last = .ok ⟨0⟩ last ∧
        ∃ entry, last.backend.vars.get? ⟨0⟩ = some entry ∧ entry.initializer = .fill 2 := by
  intro port history
  have hfirst : (getOrAllocatePort port (some 2)).succeeds
      (fresh (Assembler.fresh "m" .always 10) .standard) (fun var first => decide (var = ⟨0⟩ ∧
        first.scopes.binder? ⟨0⟩ = some 0 ∧ (level 0 (first.trail history)).isSome ∧
        Unbound (first.trail history) ⟨0⟩ ∧
        (history.foldl perform first).backend.vars.size = 3)) = true := by
    decide +kernel
  obtain ⟨var, first, hfirst, htest⟩ := Attempt.exists_of_succeeds hfirst
  obtain ⟨rfl, hbinder, hopen, hclosed, hsize⟩ := of_decide_eq_true htest
  obtain ⟨hagain, hstored⟩ :=
    getOrAllocatePort_stable hfirst (by simp [history]) hbinder hopen hclosed
  obtain ⟨entry, hentry, -, -, -, -, -, hfill⟩ := hstored rfl
  exact ⟨first, hfirst, hclosed, hsize, hagain none, entry, hentry, hfill 2 rfl (by decide +kernel)⟩

end Compiler
end Dataflow
