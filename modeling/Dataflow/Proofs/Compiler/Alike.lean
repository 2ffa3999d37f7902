import Dataflow.Proofs.Compiler.Congruence

/-!
# Compilers that do alike

Two compilers with backends that answer alike do alike, even if they differ in whether and when
regions are merged: merging neither stops a compilation nor shows anywhere but in the regions and in
the counts of merges.  `Parallel B` says what is asked of the relation `B` between the backends, and
`Robust S` what is asked of the relation `S` between the counts; `compile_related` is the result.
-/

namespace Dataflow

open Attempt Renames

variable {β β' : Type}

/-- Related backends answer alike.  Merges may take place in only one of them. -/
structure Parallel [Backend β] [Backend β'] (B : β → β' → Prop) : Prop where
  vars : ∀ {b b'}, B b b' → Backend.vars b = Backend.vars b'
  declare : ∀ spec {b b'}, B b b' → B (Backend.declare spec b) (Backend.declare spec b')
  allocate : ∀ var, Related B Unit (Backend.allocate var) (Backend.allocate var)
  beginFunction : ∀ name parameters,
    Related B Unit (Backend.beginFunction name parameters) (Backend.beginFunction name parameters)
  endFunction : Related B Unit Backend.endFunction Backend.endFunction
  discardFunction : ∀ {b b'}, B b b' → B (Backend.discardFunction b) (Backend.discardFunction b')
  openRegion : ∀ node, Related B Unit (Backend.openRegion node) (Backend.openRegion node)
  emit : ∀ instruction, Related B Unit (Backend.emit instruction) (Backend.emit instruction)
  notify : ∀ notice {b b'}, B b b' → B (Backend.notify notice b) (Backend.notify notice b')
  mergeLeft : ∀ node {b b'}, B b b' → B (Backend.mergeRegion node b).2 b'
  mergeRight : ∀ node {b b'}, B b b' → B b (Backend.mergeRegion node b').2

/-- Counting the same on both sides keeps the relation, and so does counting merges on one side. -/
structure Robust (S : Statistics → Statistics → Prop) : Prop where
  functionCompiled : ∀ name nodes {s s'}, S s s' →
    S (s.functionCompiled name nodes) (s'.functionCompiled name nodes)
  functionDiscarded : ∀ {s s'}, S s s' → S s.functionDiscarded s'.functionDiscarded
  nodeCompiled : ∀ kind {s s'}, S s s' → S (s.nodeCompiled kind) (s'.nodeCompiled kind)
  regionCreated : ∀ {s s'}, S s s' → S s.regionCreated s'.regionCreated
  variableAllocated : ∀ {s s'}, S s s' → S s.variableAllocated s'.variableAllocated
  instructionEmitted : ∀ {s s'}, S s s' → S s.instructionEmitted s'.instructionEmitted
  mergeLeft : ∀ merged {s s'}, S s s' → S (s.mergeAttempted merged) s'
  mergeRight : ∀ merged {s s'}, S s s' → S s (s'.mergeAttempted merged)

namespace Compiler

variable {B : β → β' → Prop} {S : Statistics → Statistics → Prop}

/-- Two compilers that will compile the next model alike. -/
structure Alike (B : β → β' → Prop) (S : Statistics → Statistics → Prop) (c : Compiler β)
    (c' : Compiler β') : Prop where
  backend : B c.backend c'.backend
  statistics : S c.session.statistics c'.session.statistics
  checks : c.options.checkElementTypes = c'.options.checkElementTypes

/-- Two compilers that have come equally far with a model. -/
structure InStep (B : β → β' → Prop) (S : Statistics → Statistics → Prop) (c : Compiler β)
    (c' : Compiler β') : Prop extends Alike B S c c' where
  function : c.session.currentFunction = c'.session.currentFunction
  scopes : c.scopes = c'.scopes
  compiled : c.compiled = c'.compiled

namespace InStep

variable {c : Compiler β} {c' : Compiler β'}

lemma scene_eq (h : InStep B S c c') : c.scene = c'.scene := by
  rw [scene, scene, h.scopes, h.compiled]

lemma withBackend (h : InStep B S c c') {b : β} {b' : β'} (hb : B b b') :
    InStep B S { c with backend := b } { c' with backend := b' } :=
  { h with backend := hb }

lemma count (h : InStep B S c c') {f f' : Statistics → Statistics}
    (hf : S (f c.session.statistics) (f' c'.session.statistics)) :
    InStep B S { c with session := c.session.count f } { c' with session := c'.session.count f' } :=
  { h with statistics := hf }

end InStep

/-! ## Steps -/

lemma onBackend_related {α : Type} {x : Attempt β α} {y : Attempt β' α} (hxy : Related B α x y) :
    Related (InStep B S) α (onBackend x) (onBackend y) := by
  intro c c' h
  have hback := hxy _ _ h.backend
  unfold onBackend Attempt.zoom
  generalize x c.backend = rx at hback ⊢
  generalize y c'.backend = ry at hback ⊢
  cases hback with
  | ok a hb => exact .ok a (h.withBackend hb)
  | error e hb => exact .error e (h.withBackend hb)

lemma count_related {f : Statistics → Statistics} (hf : ∀ {s s'}, S s s' → S (f s) (f s')) :
    Related (InStep B S) Unit (count f) (count f) :=
  .change fun _ _ h => h.count (hf h.statistics)

variable [Backend β] [Backend β']

lemma allocate_related (hB : Parallel B) (hS : Robust S) (spec : VariableSpec) :
    Related (InStep B S) VarId (allocate spec) (allocate spec) := by
  have hrest : ∀ var : VarId, Related (InStep B S) VarId
      (do modify fun compiler => { compiler with backend := Backend.declare spec compiler.backend }
          onBackend (Backend.allocate var)
          count Statistics.variableAllocated
          return var)
      (do modify fun compiler => { compiler with backend := Backend.declare spec compiler.backend }
          onBackend (Backend.allocate var)
          count Statistics.variableAllocated
          return var) := fun var =>
    .bind (.change fun _ _ h => h.withBackend (hB.declare spec h.backend)) fun _ =>
      .bind (onBackend_related (hB.allocate var)) fun _ =>
      .bind (count_related hS.variableAllocated) fun _ => .pure var
  intro c c' h
  have hnext : c.vars.next = c'.vars.next := by rw [vars, vars, hB.vars h.backend]
  unfold allocate
  rw [bind_run, bind_run]
  simp only [get_run, hnext]
  exact hrest _ c c' h

/-- Merging on the left side only keeps two compilers in step. -/
lemma InStep.mergeLeft {c : Compiler β} {c' : Compiler β'} (h : InStep B S c c')
    (hB : Parallel B) (hS : Robust S) (node : NodeId) (isFirst : Bool) :
    ∃ d, mergeStep node isFirst c = .ok () d ∧ InStep B S d c' := by
  rw [mergeStep_run]
  split
  · exact ⟨_, rfl, { h with
      backend := hB.mergeLeft node h.backend
      statistics := hS.mergeLeft _ h.statistics }⟩
  · exact ⟨c, rfl, h⟩

/-- Merging on the right side only keeps two compilers in step. -/
lemma InStep.mergeRight {c : Compiler β} {c' : Compiler β'} (h : InStep B S c c')
    (hB : Parallel B) (hS : Robust S) (node : NodeId) (isFirst : Bool) :
    ∃ d, mergeStep node isFirst c' = .ok () d ∧ InStep B S c d := by
  rw [mergeStep_run]
  split
  · exact ⟨_, rfl, { h with
      backend := hB.mergeRight node h.backend
      statistics := hS.mergeRight _ h.statistics }⟩
  · exact ⟨c', rfl, h⟩

/-- Whether a merge takes place may differ between the two sides. -/
lemma mergeStep_related (hB : Parallel B) (hS : Robust S) (node : NodeId) (isFirst : Bool) :
    Related (InStep B S) Unit (mergeStep node isFirst) (mergeStep node isFirst) := by
  intro c c' h
  obtain ⟨d, hd, hleft⟩ := h.mergeLeft hB hS node isFirst
  obtain ⟨d', hd', hboth⟩ := hleft.mergeRight hB hS node isFirst
  rw [hd, hd']
  exact .ok () hboth

omit [Backend β] [Backend β'] in
/-- Both compilers check element types, or neither does. -/
lemma checks_related {α : Type} (check : Bool → Except CompileError α) :
    Related (InStep B S) α
      (do let strict := (← get).options.checkElementTypes; MonadExcept.ofExcept (check strict))
      (do let strict := (← get).options.checkElementTypes
          MonadExcept.ofExcept (check strict)) := by
  intro c c' h
  rw [bind_run, bind_run]
  simp only [get_run, h.checks]
  exact Related.ofExcept _ c c' h

lemma congruence_related (hB : Parallel B) (hS : Robust S) :
    Congruence id fun α _ x y => Related (InStep B S) α x y where
  pure a := by
    rw [rename_id]
    exact .pure a
  ofExcept {α _ x} _ := by
    rw [funext rename_id, show Except.map (fun a : α => a) x = x from by cases x <;> rfl]
    exact .ofExcept x
  bind hx hf := .bind hx fun a => by
    have hfa := hf a
    rwa [rename_id] at hfa
  onBehalfOf name _ _ := .onBehalfOf name
  look hfg := by
    intro c c' h
    rw [bind_run, bind_run]
    simp only [get_run, h.scene_eq]
    have hseen := hfg c'.scene
    rw [rename_id] at hseen
    exact hseen c c' h
  elementType site index := checks_related fun strict => site.inputType strict index
  checkOperands site := checks_related fun strict => site.checkOperandTypes strict
  allocate spec _ := allocate_related hB hS spec
  bindPort port var := .change fun _ _ h => { h with
    scopes := by simp only [bindPort, h.scopes, rename_id] }
  openRegion node := onBackend_related (hB.openRegion node)
  regionCreated := count_related hS.regionCreated
  emit instruction := by
    rw [rename_id]
    exact .bind (count_related hS.instructionEmitted) fun _ =>
      onBackend_related (hB.emit instruction)
  finishNode node := .bind (.change fun _ _ h => { h with compiled := by simp only [h.compiled] })
    fun _ => count_related (hS.nodeCompiled _)
  mergeStep := mergeStep_related hB hS
  notify milestone subject := .change fun _ _ h => { h with
    backend := by simpa only [h.function] using hB.notify _ h.backend }

/-! ## Compilations -/

lemma compileBody_related (hB : Parallel B) (hS : Robust S) (model : Model) (name : String) :
    Related (InStep B S) CompiledFunction (compileBody model name) (compileBody model name) := by
  rw [compileBody_eq, compileBody_eq]
  have hcongruence := congruence_related (S := S) hB hS
  have hbegin := hcongruence.beginModel model name fun parameters =>
    onBackend_related (hB.beginFunction name parameters)
  exact .bind (hcongruence.compileOpen model hbegin) fun _ =>
    .bind (.onBehalfOf _ (onBackend_related hB.endFunction)) fun _ => .pure _

/-- Alike compilers compile alike. -/
lemma compile_related (hB : Parallel B) (hS : Robust S) (model : Model) (name : String) :
    Related (Alike B S) CompiledFunction (compile model name) (compile model name) := by
  intro c c' h
  have hbody := compileBody_related hB hS model name (c.enter name) (c'.enter name)
    ⟨⟨h.backend, h.statistics, h.checks⟩, rfl, rfl, rfl⟩
  unfold compile
  generalize compileBody model name (c.enter name) = result at hbody ⊢
  generalize compileBody model name (c'.enter name) = result' at hbody ⊢
  cases hbody with
  | ok function h =>
    exact .ok function ⟨h.backend, hS.functionCompiled _ _ h.statistics, h.checks⟩
  | error e h =>
    exact .error e ⟨hB.discardFunction h.backend, hS.functionDiscarded h.statistics, h.checks⟩

end Compiler
end Dataflow
