import Dataflow.Proofs.Acceptance.Order
import Dataflow.Proofs.Backend.Stacked

/-!
# Compilations do not depend on the past

A compiler that has been in use, for whatever compilations, scopes, bindings and variables, compiles
a model as a fresh one does: it gives the same answer or the same error, and adds the same function
and the same variables, only that these are numbered from where the variables before them end
(`Compiler.compile_after_history`).  The two run in step, one of them on top of what the other one
does not have (`Compiler.Stacked`), and what they come to agrees up to the numbers.  An error does
not show them: no model that has been read or built makes a compiler fail with a fault that quotes
the number of a variable.
-/

namespace Dataflow

open Attempt Renames

namespace Compiler

/-- Two compilers that have come equally far with a model, the second one on top of a base. -/
structure Stacked (base : Assembler) (c d : Compiler Assembler) : Prop where
  backend : Assembler.Stacked base c.backend d.backend
  checks : d.options.checkElementTypes = c.options.checkElementTypes
  scopes : d.scopes = rename base.raise c.scopes
  compiled : d.compiled = c.compiled

variable {base : Assembler}

namespace Stacked

variable {c d : Compiler Assembler}

lemma scene_eq (h : Stacked base c d) : d.scene = rename base.raise c.scene := by
  rw [scene, scene, h.scopes, h.compiled]
  rfl

lemma withBackend (h : Stacked base c d) {a b : Assembler} {session session' : Session}
    (hab : Assembler.Stacked base a b) :
    Stacked base { c with backend := a, session } { d with backend := b, session := session' } :=
  { h with backend := hab }

end Stacked

/-! ## Steps -/

/-- A request to the two backends. -/
lemma Stacked.request {c d : Compiler Assembler} (h : Stacked base c d)
    {next next' : Assembler → Except BackendFault Assembler}
    (hnext : AnsweredAlike base.raise (Assembler.Stacked base) (next c.backend)
      (next' d.backend)) :
    Repeats (Stacked base) base.raise (onBackend (.change next) c)
      (onBackend (.change next') d : EStateM.Result CompileError (Compiler Assembler) Unit) := by
  rw [onBackend_change_run, onBackend_change_run]
  generalize next c.backend = answer at hnext
  generalize next' d.backend = answer' at hnext
  cases hnext with
  | granted hab => exact .ok () { h with backend := hab }
  | refused hfault => exact .error (.backend "" hfault)

lemma count_replays (step step' : Statistics → Statistics) :
    Replays (Stacked base) base.raise Unit (count step) (count step') :=
  .modify fun _ _ h => { h with }

lemma allocate_replays {spec : VariableSpec} (hspec : spec.Proper) :
    Replays (Stacked base) base.raise VarId (allocate spec) (allocate spec) := by
  intro c d h
  have hnext : d.vars.next = base.raise c.vars.next := h.backend.next_eq
  rw [allocate_run, allocate_run]
  obtain ⟨a, b, ha, hb, hab⟩ | ⟨limit, name, size, hb⟩ := h.backend.allocate hspec
  · have ha' : (c.backend.declare spec).allocate c.vars.next = .ok a := ha
    have hb' : (d.backend.declare spec).allocate d.vars.next = .ok b := hb
    rw [ha', hb']
    simp only [hnext]
    exact .ok c.vars.next (h.withBackend hab)
  · have hb' : (d.backend.declare spec).allocate d.vars.next =
      .error (.storageExhausted limit name size) := hb
    rw [hb']
    exact .exhausted ⟨"", limit, name, size, rfl⟩

lemma openRegion_replays (node : NodeId) : Replays (Stacked base) base.raise Unit
    (onBackend (Backend.openRegion node)) (onBackend (Backend.openRegion node)) :=
  fun _ _ h => h.request (h.backend.openRegion node)

lemma emit_replays (instruction : Instruction) : Replays (Stacked base) base.raise Unit
    (emit instruction) (emit (rename base.raise instruction)) :=
  (count_replays _ _).bind fun _ _ _ h => h.request (h.backend.emit instruction)

/-- Merging regions is invisible, so it may take place on one side only. -/
lemma mergeStep_replays (node : NodeId) (isFirst : Bool) : Replays (Stacked base) base.raise Unit
    (mergeStep node isFirst) (mergeStep node isFirst) := by
  intro c d h
  rw [mergeStep_run, mergeStep_run]
  refine .ok () ?_
  have hleft : Stacked base (if c.options.mergeRegions && !isFirst then c.afterMerge node else c)
      d := by
    split
    · exact { h with backend := h.backend.mergeLeft node }
    · exact h
  generalize (if c.options.mergeRegions && !isFirst then c.afterMerge node else c) = c' at hleft ⊢
  split
  · exact { hleft with backend := hleft.backend.mergeRight node }
  · exact hleft

/-- Both compilers check element types, or neither does. -/
lemma checks_replays {α : Type} [Renames α] {check : Bool → Except CompileError α}
    (hcheck : ∀ strict, GraphCheck (check strict)) : Replays (Stacked base) base.raise α
      (do let strict := (← get).options.checkElementTypes; MonadExcept.ofExcept (check strict))
      (do let strict := (← get).options.checkElementTypes
          MonadExcept.ofExcept ((check strict).map (rename base.raise))) := by
  intro c d h
  rw [bind_run, bind_run]
  simp only [get_run, h.checks]
  exact Replays.ofExcept (hcheck _) c d h

/-- What compiling is made of is repeated on top of a base, except that beginning a function depends
on the functions that are there already. -/
lemma congruence_replays (base : Assembler) : Congruence base.raise fun α _ x y =>
    Replays (Stacked base) base.raise α x y where
  pure := .pure
  ofExcept := .ofExcept
  bind := .bind
  look hfg := by
    intro c d h
    rw [bind_run, bind_run]
    simp only [get_run, h.scene_eq]
    exact hfg c.scene c d h
  elementType site index := by
    have hchecks : Replays (Stacked base) base.raise ElementType _ _ :=
      checks_replays fun strict => site.inputType_check strict index
    simp only [show rename base.raise = (id : ElementType → ElementType) from rfl,
      Except.map_id] at hchecks
    exact hchecks
  checkOperands site := by
    have hchecks : Replays (Stacked base) base.raise Unit _ _ :=
      checks_replays fun strict => site.checkOperandTypes_check strict
    simp only [show rename base.raise = (id : Unit → Unit) from rfl, Except.map_id] at hchecks
    exact hchecks
  allocate _ := allocate_replays
  bindPort port var := .modify fun _ _ h => { h with
    scopes := by simp only [bindPort, h.scopes]; rfl }
  emit := emit_replays
  onBehalfOf name _ _ h := h.onBehalfOf name
  openRegion := openRegion_replays
  regionCreated := count_replays _ _
  finishNode node := .bind (.modify fun _ _ h => { h with compiled := by simp only [h.compiled] })
    fun _ => count_replays _ _
  mergeStep := mergeStep_replays
  notify _ _ := .modify fun _ _ h => { h with }

/-! ## Compilations -/

variable {model : Model} {name : String}

lemma storage_of_allocateAll {storage : StorageClass} {ports : List OutputPort}
    {c d : Compiler Assembler} {parameters : List Parameter}
    (h : ports.mapM (allocateParameter storage) c = .ok parameters d) :
    ∀ parameter ∈ parameters, parameter.storage = storage := by
  induction ports generalizing c d parameters with
  | nil =>
    obtain ⟨rfl, -⟩ := EStateM.Result.ok.inj h
    exact fun _ hmem => absurd hmem List.not_mem_nil
  | cons port rest ih =>
    rw [List.mapM_cons] at h
    obtain ⟨parameter, c', hparameter, h₁⟩ := bind_eq_ok.mp h
    obtain ⟨others, _, hothers, h₂⟩ := bind_eq_ok.mp h₁
    obtain ⟨rfl, -⟩ := EStateM.Result.ok.inj h₂
    obtain ⟨id, c'', -, h₃⟩ := bind_eq_ok.mp hparameter
    obtain ⟨rfl, -⟩ := EStateM.Result.ok.inj h₃
    exact List.forall_mem_cons.mpr ⟨rfl, ih hothers⟩

/-- What is allocated as a parameter is a parameter. -/
lemma storage_of_allocateParameters {c d : Compiler Assembler} {parameters : List Parameter}
    (h : allocateParameters model c = .ok parameters d) :
    ∀ parameter ∈ parameters, parameter.storage.isParameter = true := by
  obtain ⟨inputs, c', hinputs, h₁⟩ := bind_eq_ok.mp h
  obtain ⟨outputs, _, houtputs, h₂⟩ := bind_eq_ok.mp h₁
  obtain ⟨rfl, -⟩ := EStateM.Result.ok.inj h₂
  intro parameter hmem
  rcases List.mem_append.mp hmem with hinput | houtput
  · rw [storage_of_allocateAll hinputs parameter hinput]
    rfl
  · rw [storage_of_allocateAll houtputs parameter houtput]
    rfl

lemma beginModel_replays (hbase : base.Vacant) (hname : base.program.function? name = none) :
    Replays (Stacked base) base.raise (List Parameter) (beginModel model name)
      (beginModel model name) := by
  intro c d h
  have hcongruence := congruence_replays base
  refine (hcongruence.notify _ _ c d h).bind fun _ c₁ d₁ _ h₁ =>
    (hcongruence.allocateParameters model c₁ d₁ h₁).bind fun parameters c₂ d₂ hrun h₂ => ?_
  rw [rename_parameters]
  have hbegin := h₂.backend.beginFunction hbase hname (storage_of_allocateParameters hrun)
  exact Repeats.bind (.onBehalfOf (h₂.request hbegin) name) fun _ c₃ d₃ _ h₃ =>
    hcongruence.pure_parameters parameters c₃ d₃ h₃

/-- The first compiler has finished one function, and the second one the same on top of a base. -/
structure Finished (base : Assembler) (c d : Compiler Assembler) : Prop where
  functions : ∃ function, c.backend.program.functions = [function] ∧
    d.backend.program.functions =
      base.program.functions ++ [rename base.raise function]
  vars : d.backend.vars.toList =
    base.vars.toList ++ c.backend.vars.toList.map (Variable.renumber base.raise)

instance : Renames CompiledFunction := ⟨fun _ function => function, fun _ => rfl⟩

/-- The function is finished on both sides. -/
lemma close_repeats {c d : Compiler Assembler} (h : Stacked base c d)
    (parameters : List Parameter) :
    Repeats (Finished base) base.raise (close model name parameters c)
      (close model name parameters d) := by
  rw [close_run, close_run]
  obtain ⟨hc, hd⟩ | ⟨a, b, function, hc, hd, hleft, hright, hvars⟩ := h.backend.endFunction
  · rw [hc, hd]
    have hfault : BackendFault.Renumbered base.raise .noFunction .noFunction := .anonymous trivial
    exact .error ((CompileError.Renumbered.backend "" hfault).withOrigin name)
  · rw [hc, hd]
    exact .ok (⟨name, parameters, model.nodes.size⟩ : CompiledFunction)
      ⟨⟨function, hleft, hright⟩, hvars⟩

/-- A compilation on top of a base without open function and leftover parameters repeats the one on
its own. -/
lemma compile_repeats (hbase : base.Vacant) (hname : base.program.function? name = none)
    {c d : Compiler Assembler} (h : Stacked base (c.enter name) (d.enter name)) :
    Repeats (Finished base) base.raise (compile model name c) (compile model name d) := by
  have hopen : Replays (Stacked base) base.raise (List Parameter) (compileOpen model name)
      (compileOpen model name) :=
    (congruence_replays base).compileOpen model (beginModel_replays hbase hname)
  have hbody : Repeats (Finished base) base.raise (compileBody model name (c.enter name))
      (compileBody model name (d.enter name)) := by
    rw [compileBody_eq]
    refine Repeats.bind (hopen _ _ h) fun parameters c' d' _ h' => ?_
    rw [rename_parameters]
    exact close_repeats h' parameters
  unfold compile
  generalize compileBody model name (c.enter name) = result at hbody ⊢
  generalize compileBody model name (d.enter name) = result' at hbody ⊢
  cases hbody with
  | ok function h => exact .ok function ⟨h.functions, h.vars⟩
  | error he => exact .error he
  | exhausted he => exact .exhausted he

/-! ## Histories -/

variable {program : String} {policy : MergePolicy} {limit : ℕ} {options : Options}
variable {history : List Operation}

/-- **A compilation depends on the past only in its numbers.**  After any history of a compiler that
allocates parameters by compiling only, compiling a model into a function of a new name ends as it
does on a fresh compiler, unless the storage limit is reached: with the same answer or with the same
error.  If it succeeds, the function and the variables that are added are those of the fresh
compiler, with every variable numbered from where the variables of the past end.  The model is
arranged, which every model is that has been read or built. -/
theorem compile_after_history {name : String} (hmodel : model.Arranged)
    (hhistory : ∀ other, Operation.allocateParameters other ∉ history)
    (hname : (history.foldl perform (fresh (Assembler.fresh program policy limit)
      options)).backend.program.function? name = none)
    (hlimit : ∀ e last, compile model name (history.foldl perform
      (fresh (Assembler.fresh program policy limit) options)) = .error e last → ¬ e.Exhausted) :
    let before := history.foldl perform (fresh (Assembler.fresh program policy limit) options)
    let ρ := VarId.shift before.backend.vars.size
    (∃ answer alone last,
      compile model name (fresh (Assembler.fresh program policy limit) options) =
        .ok answer alone ∧ compile model name before = .ok answer last ∧
      (∃ function, alone.backend.program.functions = [function] ∧
        last.backend.program.functions =
          before.backend.program.functions ++ [rename ρ function]) ∧
      last.backend.vars.toList =
        before.backend.vars.toList ++ alone.backend.vars.toList.map (Variable.renumber ρ)) ∨
    ∃ e alone last,
      compile model name (fresh (Assembler.fresh program policy limit) options) =
        .error e alone ∧ compile model name before = .error e last := by
  intro before ρ
  have hvacant : before.backend.Vacant := history_vacant hhistory
  obtain ⟨hidle, hoptions⟩ : before.Idle ∧ before.options = options := history_idle history
  have hstart := Assembler.Stacked.start hidle.pending program policy
  rw [history_limit history] at hstart
  have hstacked : Stacked before.backend
      ((fresh (Assembler.fresh program policy limit) options).enter name) (before.enter name) :=
    ⟨hstart, congrArg Options.checkElementTypes hoptions, rfl, rfl⟩
  have hrepeats : Repeats (Finished before.backend) ρ
      (compile model name (fresh (Assembler.fresh program policy limit) options))
      (compile model name before) := compile_repeats hvacant hname hstacked
  have hexact : Exact (compile model name)
      (fresh (Assembler.fresh program policy limit) options) _ _ :=
    compile_lowers hmodel (idle_fresh program policy limit options)
  generalize halone : compile model name (fresh (Assembler.fresh program policy limit) options) =
    result at hrepeats ⊢
  generalize hrun : compile model name before = result' at hrepeats ⊢
  cases hrepeats with
  | ok answer h => exact .inl ⟨answer, _, _, rfl, rfl, h.functions, h.vars⟩
  | error he =>
    obtain rfl := he.eq (hexact.portable halone)
    exact .inr ⟨_, _, _, rfl, rfl⟩
  | exhausted he => exact absurd he (hlimit _ _ hrun)

/-- A history that leaves a function, a scope, a variable and a binding behind. -/
def errands : List Operation :=
  [.compile Model.echo "e", .pushScope, .allocateScratch .real 2, .bindPort ⟨0⟩ ⟨1⟩]

theorem compile_after_history_joined :
    joined.Arranged ∧ (∀ other, Operation.allocateParameters other ∉ errands) ∧
      (errands.foldl perform (fresh (Assembler.fresh "m" .always 20)
        .standard)).backend.program.function? "f" = none ∧
      (∀ e last, compile joined "f" (errands.foldl perform (fresh (Assembler.fresh "m" .always 20)
        .standard)) = .error e last → ¬ e.Exhausted) ∧
      ∃ answer alone last,
        compile joined "f" (fresh (Assembler.fresh "m" .always 20) .standard) =
          .ok answer alone ∧
        compile joined "f" (errands.foldl perform (fresh (Assembler.fresh "m" .always 20)
          .standard)) = .ok answer last ∧
        alone.backend.vars.toList.map Variable.name = ["a", "y", "t_2", "g_3"] ∧
        last.backend.vars.toList.map Variable.name =
          ["x", "y", "t_2", "a", "y", "t_5", "g_6"] := by
  have hmodel : joined.Arranged := by decide +kernel
  have hhistory : ∀ other, Operation.allocateParameters other ∉ errands := by simp [errands]
  have hname : (errands.foldl perform (fresh (Assembler.fresh "m" .always 20)
      .standard)).backend.program.function? "f" = none := by decide +kernel
  have hcompile : (compile joined "f").succeeds (errands.foldl perform
      (fresh (Assembler.fresh "m" .always 20) .standard)) (fun _ _ => true) = true := by
    decide +kernel
  obtain ⟨answer', last', hrun, -⟩ := Attempt.exists_of_succeeds hcompile
  have hlimit : ∀ e last, compile joined "f" (errands.foldl perform
      (fresh (Assembler.fresh "m" .always 20) .standard)) = .error e last → ¬ e.Exhausted := by
    intro e last h
    rw [hrun] at h
    cases h
  refine ⟨hmodel, hhistory, hname, hlimit, ?_⟩
  obtain ⟨answer, alone, last, halone, hlast, -, hvars⟩ | ⟨e, alone, last, -, hlast⟩ :=
    compile_after_history hmodel hhistory hname hlimit
  · have hcompile : (compile joined "f").succeeds (fresh (Assembler.fresh "m" .always 20) .standard)
        (fun _ alone => decide
          (alone.backend.vars.toList.map Variable.name = ["a", "y", "t_2", "g_3"] ∧
            (alone.backend.vars.toList.map (Variable.renumber (.shift 3))).map Variable.name =
              ["a", "y", "t_5", "g_6"])) = true := by
      decide +kernel
    obtain ⟨answer'', alone', hstart, hnames⟩ := Attempt.exists_of_succeeds hcompile
    obtain ⟨rfl, rfl⟩ := EStateM.Result.ok.inj (hstart.symm.trans halone)
    obtain ⟨hold, hnew⟩ := of_decide_eq_true hnames
    have hsize : (errands.foldl perform (fresh (Assembler.fresh "m" .always 20)
        .standard)).backend.vars.size = 3 := by decide +kernel
    have hbefore : (errands.foldl perform (fresh (Assembler.fresh "m" .always 20)
        .standard)).backend.vars.toList.map Variable.name = ["x", "y", "t_2"] := by decide +kernel
    refine ⟨_, _, last, halone, hlast, hold, ?_⟩
    rw [hvars, List.map_append, hsize, hnew, hbefore]
    rfl
  · rw [hrun] at hlast
    cases hlast

end Compiler
end Dataflow
