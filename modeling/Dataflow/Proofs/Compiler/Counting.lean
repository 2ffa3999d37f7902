import Dataflow.Proofs.Compiler.Progress
import Dataflow.Proofs.Compiler.Invariant

/-!
# What a compilation counts

Regions, nodes and merges are counted where they occur, and never taken back, so the counts of a
compilation that fails say how far it got.  Lowering a node counts none of them, whether or not it
fails (`Still.lower`), so all that matters is which steps before and after it took place: a region
is counted before its node is lowered, the node and its merge afterwards.  `FailsAfter` lists the
places where a compilation can fail (`exists_failsAfter`), and `FailsAfter.compile` has the counts
for each.
-/

namespace Dataflow

open Attempt

namespace Statistics

/-- How often nodes of the single kinds were compiled, all together. -/
def kindsCompiled (s : Statistics) : ℕ := (s.nodeCounts.map Prod.snd).sum

/-- The counts have grown by regions, nodes and attempts to merge. -/
structure Grows (s : Statistics) (regions nodes attempts : ℕ) (t : Statistics) : Prop where
  created : t.regionsCreated = s.regionsCreated + regions
  compiled : t.nodesCompiled = s.nodesCompiled + nodes
  kinds : t.kindsCompiled = s.kindsCompiled + nodes
  merges : t.regionsMerged + t.mergesRefused = s.regionsMerged + s.mergesRefused + attempts
  refused : s.mergesRefused ≤ t.mergesRefused

/-- The counts that change at the end of a compilation only. -/
def closing (s : Statistics) : ℕ × ℕ × ℕ × String :=
  (s.functionsCompiled, s.functionsDiscarded, s.largestNodes, s.largestName)

variable {s t u : Statistics} {regions nodes attempts regions' nodes' attempts' : ℕ}

namespace Grows

lemma refl (s : Statistics) : s.Grows 0 0 0 s := ⟨rfl, rfl, rfl, rfl, le_rfl⟩

lemma trans (h : s.Grows regions nodes attempts t) (h' : t.Grows regions' nodes' attempts' u) :
    s.Grows (regions + regions') (nodes + nodes') (attempts + attempts') u where
  created := by rw [h'.created, h.created, Nat.add_assoc]
  compiled := by rw [h'.compiled, h.compiled, Nat.add_assoc]
  kinds := by rw [h'.kinds, h.kinds, Nat.add_assoc]
  merges := by rw [h'.merges, h.merges, Nat.add_assoc]
  refused := h.refused.trans h'.refused

/-- No more regions are merged than merges are attempted. -/
lemma merged_le (h : s.Grows regions nodes attempts t) :
    t.regionsMerged ≤ s.regionsMerged + attempts := by
  have hmerges := h.merges
  have hrefused := h.refused
  omega

end Grows

lemma sum_increment (kind : String) (counts : List (String × ℕ)) :
    ((increment kind counts).map Prod.snd).sum = (counts.map Prod.snd).sum + 1 := by
  induction counts with
  | nil => rfl
  | cons entry rest ih =>
    obtain ⟨other, count⟩ := entry
    rw [increment]
    split
    · simp only [List.map_cons, List.sum_cons]
      omega
    · simp only [List.map_cons, List.sum_cons, ih]
      omega

lemma grows_regionCreated (s : Statistics) : s.Grows 1 0 0 s.regionCreated :=
  ⟨rfl, rfl, rfl, rfl, le_rfl⟩

lemma grows_nodeCompiled (s : Statistics) (kind : String) : s.Grows 0 1 0 (s.nodeCompiled kind) :=
  ⟨rfl, rfl, sum_increment kind s.nodeCounts, rfl, le_rfl⟩

lemma grows_mergeAttempted (s : Statistics) (merged : Bool) :
    s.Grows 0 0 1 (s.mergeAttempted merged) := by
  cases merged with
  | false => exact ⟨rfl, rfl, rfl, (Nat.add_assoc _ _ _).symm, Nat.le_succ _⟩
  | true => exact ⟨rfl, rfl, rfl, Nat.add_right_comm _ _ _, le_rfl⟩

lemma grows_variableAllocated (s : Statistics) : s.Grows 0 0 0 s.variableAllocated :=
  ⟨rfl, rfl, rfl, rfl, le_rfl⟩

lemma grows_instructionEmitted (s : Statistics) : s.Grows 0 0 0 s.instructionEmitted :=
  ⟨rfl, rfl, rfl, rfl, le_rfl⟩

lemma closing_mergeAttempted (s : Statistics) (merged : Bool) :
    (s.mergeAttempted merged).closing = s.closing := by
  cases merged <;> rfl

lemma Grows.functionCompiled (h : s.Grows regions nodes attempts t) (name : String) (size : ℕ) :
    s.Grows regions nodes attempts (t.functionCompiled name size) := by
  rw [Statistics.functionCompiled]
  split <;> exact ⟨h.created, h.compiled, h.kinds, h.merges, h.refused⟩

end Statistics

/-- The number of merges that are attempted while the given number of nodes is compiled, from the
first one on. -/
def Options.attempts (options : Options) (nodes : ℕ) : ℕ :=
  if options.mergeRegions then nodes - 1 else 0

namespace Compiler

/-- The counts of a compiler. -/
def statistics (c : Compiler Assembler) : Statistics := c.session.statistics

/-- Regions, nodes and merges have been counted, and the compilation is still going on. -/
structure Goes (c : Compiler Assembler) (regions nodes attempts : ℕ) (d : Compiler Assembler) :
    Prop where
  grows : c.statistics.Grows regions nodes attempts d.statistics
  closing : d.statistics.closing = c.statistics.closing
  options : d.options = c.options

variable {c d e : Compiler Assembler} {regions nodes attempts regions' nodes' attempts' : ℕ}

namespace Goes

lemma refl (c : Compiler Assembler) : c.Goes 0 0 0 c := ⟨.refl _, rfl, rfl⟩

lemma trans (h : c.Goes regions nodes attempts d) (h' : d.Goes regions' nodes' attempts' e) :
    c.Goes (regions + regions') (nodes + nodes') (attempts + attempts') e :=
  ⟨h.grows.trans h'.grows, h'.closing.trans h.closing, h'.options.trans h.options⟩

/-- The session is all that matters, and the options. -/
lemma congr (h : c.Goes regions nodes attempts d) (hstatistics : e.statistics = d.statistics)
    (hoptions : e.options = d.options) : c.Goes regions nodes attempts e :=
  ⟨hstatistics ▸ h.grows, hstatistics ▸ h.closing, hoptions.trans h.options⟩

/-- Entering a function counts nothing. -/
lemma of_enter {name : String} (h : (c.enter name).Goes regions nodes attempts d) :
    c.Goes regions nodes attempts d := ⟨h.grows, h.closing, h.options⟩

end Goes

/-! ## Lowering -/

/-- Wherever the attempt ends, no region, node or merge has been counted. -/
def Still {α : Type} (x : Attempt (Compiler Assembler) α) : Prop :=
  ∀ c : Compiler Assembler, c.Goes 0 0 0 (x.after c)

namespace Still

variable {α γ : Type} {x : Attempt (Compiler Assembler) α}

lemma iff_keeps : Still x ↔ ∀ c : Compiler Assembler, Keeps (c.Goes 0 0 0) α x :=
  ⟨fun h _ d hd => hd.trans (h d), fun h c => h c c (.refl c)⟩

lemma pure (a : α) : Still (Pure.pure a) := fun c => .refl c

lemma ofExcept (result : Except CompileError α) : Still (MonadExcept.ofExcept result) :=
  iff_keeps.mpr fun _ => .ofExcept result

lemma bind {f : α → Attempt (Compiler Assembler) γ} (hx : Still x) (hf : ∀ a, Still (f a)) :
    Still (x >>= f) :=
  iff_keeps.mpr fun c => .bind (iff_keeps.mp hx c) fun a => iff_keeps.mp (hf a) c

lemma get : Still (MonadState.get : Attempt (Compiler Assembler) (Compiler Assembler)) :=
  fun c => .refl c

lemma onBehalfOf (name : String) (hx : Still x) : Still (x.onBehalfOf name) :=
  iff_keeps.mpr fun c => .onBehalfOf name (iff_keeps.mp hx c)

lemma onBackend {step : Attempt Assembler α} : Still (onBackend step) := by
  intro c
  rw [Compiler.onBackend, after_zoom]
  exact (Goes.refl c).congr rfl rfl

lemma modify {change : Compiler Assembler → Compiler Assembler}
    (h : ∀ c : Compiler Assembler, c.Goes 0 0 0 (change c)) : Still (modify change) := h

lemma count {step : Statistics → Statistics} (hgrows : ∀ s : Statistics, s.Grows 0 0 0 (step s))
    (hclosing : ∀ s, (step s).closing = s.closing) : Still (count step) :=
  fun _ => ⟨hgrows _, hclosing _, rfl⟩

lemma allocate (spec : VariableSpec) : Still (allocate spec) :=
  bind get fun _ => bind (modify fun c => (Goes.refl c).congr rfl rfl) fun _ =>
    bind onBackend fun _ => bind (count Statistics.grows_variableAllocated fun _ => rfl) fun _ =>
      pure _

lemma emit (instruction : Instruction) : Still (emit instruction) :=
  bind (count Statistics.grows_instructionEmitted fun _ => rfl) fun _ => onBackend

/-- Lowering is made of such attempts. -/
lemma congruence : LowerCongruence id fun α _ x (_ : Attempt (Compiler Assembler) α) =>
    Still x where
  pure := pure
  ofExcept _ := ofExcept _
  bind := bind
  look hf := bind get fun seen => hf seen.scene
  elementType _ _ := bind get fun _ => ofExcept _
  checkOperands _ := bind get fun _ => ofExcept _
  allocate spec _ := allocate spec
  bindPort _ _ := modify fun c => (Goes.refl c).congr rfl rfl
  emit := emit

lemma notify (milestone : Milestone) (subject : String) : Still (notify milestone subject) :=
  modify fun c => (Goes.refl c).congr rfl rfl

lemma allocateParameters (model : Model) : Still (allocateParameters model) := by
  have hparameter : ∀ storage port, Still (allocateParameter storage port) := fun storage port =>
    bind (onBehalfOf _ (allocate _)) fun _ =>
      bind (modify fun c => (Goes.refl c).congr rfl rfl) fun _ => pure _
  exact bind (congruence.mapM (g := allocateParameter .input) (hparameter .input) _) fun _ =>
    bind (congruence.mapM (g := allocateParameter .output) (hparameter .output) _) fun _ => pure _

lemma beginModel (model : Model) (name : String) : Still (beginModel model name) :=
  bind (notify _ _) fun _ => bind (allocateParameters model) fun _ =>
    bind (onBehalfOf _ onBackend) fun _ => pure _

lemma lower (site : Site) : Still site.lower := congruence.lower site

end Still

/-- An attempt that counts nothing of it counts nothing of it in the run at hand. -/
lemma Still.goes {α : Type} {x : Attempt (Compiler Assembler) α} (hx : Still x) {a : α}
    (h : x c = .ok a d) : c.Goes 0 0 0 d := by
  have hgoes := hx c
  rwa [Attempt.after, h] at hgoes

lemma Still.goes_error {α : Type} {x : Attempt (Compiler Assembler) α} (hx : Still x)
    {error : CompileError} (h : x c = .error error d) : c.Goes 0 0 0 d := by
  have hgoes := hx c
  rwa [Attempt.after, h] at hgoes

/-! ## Nodes -/

variable {model : Model} {name : String} {node : Node} {isFirst : Bool} {error : CompileError}

/-- A region is counted once it is open. -/
lemma beginNode_goes (h : beginNode node c = .ok () d) : c.Goes 1 0 0 d := by
  obtain ⟨_, c₁, hnotify, h₁⟩ := bind_eq_ok.mp h
  obtain ⟨_, c₂, hopen, hcount⟩ := bind_eq_ok.mp h₁
  obtain ⟨-, rfl⟩ := EStateM.Result.ok.inj hcount
  have hbefore := ((Still.notify _ _).goes hnotify).trans
    ((Still.onBehalfOf node.name .onBackend).goes hopen)
  have hcounted : c₂.Goes 1 0 0 { c₂ with session := c₂.session.count Statistics.regionCreated } :=
    ⟨Statistics.grows_regionCreated _, rfl, rfl⟩
  exact hbefore.trans hcounted

lemma beginNode_goes_error (h : beginNode node c = .error error d) : c.Goes 0 0 0 d := by
  rw [beginNode, ← bind_assoc] at h
  rcases bind_eq_error.mp h with h | ⟨_, _, -, hcount⟩
  · have hopen : Still (onBackend (Backend.openRegion (β := Assembler) node.id)) := .onBackend
    exact (Still.bind (.notify .beginNode node.name) fun _ =>
      hopen.onBehalfOf node.name).goes_error h
  · cases hcount

/-- A node and the attempt to merge its region are counted, and nothing of it can fail. -/
lemma endNode_run (node : Node) (isFirst : Bool) (c : Compiler Assembler) :
    ∃ d, endNode node isFirst c = .ok () d ∧
      c.Goes 0 1 (if c.options.mergeRegions && !isFirst then 1 else 0) d := by
  have hfinish : ∃ d, finishNode node c = .ok () d ∧ c.Goes 0 1 0 d :=
    ⟨_, rfl, Statistics.grows_nodeCompiled _ _, rfl, rfl⟩
  obtain ⟨c₁, hrun₁, hgoes₁⟩ := hfinish
  have hmerge : ∃ d, mergeStep node.id isFirst c₁ = .ok () d ∧
      c₁.Goes 0 0 (if c.options.mergeRegions && !isFirst then 1 else 0) d := by
    refine ⟨_, mergeStep_run _ _ _, ?_⟩
    rw [hgoes₁.options]
    split
    · exact ⟨Statistics.grows_mergeAttempted _ _, Statistics.closing_mergeAttempted _ _, rfl⟩
    · exact .refl c₁
  obtain ⟨c₂, hrun₂, hgoes₂⟩ := hmerge
  have hnotify : ∃ d, notify .endNode node.name c₂ = .ok () d ∧ c₂.Goes 0 0 0 d :=
    ⟨_, rfl, (Goes.refl c₂).congr rfl rfl⟩
  obtain ⟨d, hrun₃, hgoes₃⟩ := hnotify
  refine ⟨d, ?_, by simpa using (hgoes₁.trans hgoes₂).trans hgoes₃⟩
  rw [endNode, bind_run, hrun₁]
  simp only [bind_run, hrun₂, hrun₃]

lemma compileNode_goes (h : compileNode model node isFirst c = .ok () d) :
    c.Goes 1 1 (if c.options.mergeRegions && !isFirst then 1 else 0) d := by
  rw [compileNode_split] at h
  obtain ⟨_, c₁, hbegin, h₁⟩ := bind_eq_ok.mp h
  obtain ⟨_, c₂, hlower, hend⟩ := bind_eq_ok.mp h₁
  have hbefore := (beginNode_goes hbegin).trans ((Still.onBehalfOf _ (Still.lower _)).goes hlower)
  obtain ⟨d', hrun, hgoes⟩ := endNode_run node isFirst c₂
  obtain ⟨-, rfl⟩ := EStateM.Result.ok.inj (hrun.symm.trans hend)
  rw [hbefore.options] at hgoes
  simpa using hbefore.trans hgoes

/-- Nodes have been compiled, each with a region, and a merge has been attempted for each but the
first one of the model. -/
lemma compileNodes_goes {nodes : List Node} (h : compileNodes model nodes isFirst c = .ok () d) :
    c.Goes nodes.length nodes.length
      (if c.options.mergeRegions then nodes.length - isFirst.toNat else 0) d := by
  induction nodes generalizing c isFirst with
  | nil =>
    obtain ⟨-, rfl⟩ := EStateM.Result.ok.inj h
    simpa using Goes.refl c
  | cons node rest ih =>
    obtain ⟨_, c', hnode, hrest⟩ := bind_eq_ok.mp h
    have hfirst := compileNode_goes hnode
    have hothers := ih hrest
    rw [hfirst.options] at hothers
    have hall := hfirst.trans hothers
    rw [List.length_cons, Nat.add_comm rest.length 1]
    convert hall using 1
    cases c.options.mergeRegions <;> cases isFirst <;> simp

/-- A run over nodes that fails does so at one of them. -/
lemma compileNodes_eq_error {nodes : List Node}
    (h : compileNodes model nodes isFirst c = .error error d) :
    ∃ before node after reached, nodes = before ++ node :: after ∧
      compileNodes model before isFirst c = .ok () reached ∧
      compileNode model node (isFirst && before.isEmpty) reached = .error error d := by
  induction nodes generalizing c isFirst with
  | nil => cases h
  | cons node rest ih =>
    rcases bind_eq_error.mp h with hnode | ⟨_, c', hnode, hrest⟩
    · exact ⟨[], node, rest, c, rfl, rfl, by simpa using hnode⟩
    · obtain ⟨before, other, after, reached, rfl, hbefore, hother⟩ := ih hrest
      refine ⟨node :: before, other, after, reached, rfl, ?_, by simpa using hother⟩
      rw [compileNodes, bind_run, hnode]
      exact hbefore

lemma compileNodes_append_error {before after : List Node} {reached : Compiler Assembler}
    (hbefore : compileNodes model before isFirst c = .ok () reached)
    (hnode : compileNode model node (isFirst && before.isEmpty) reached = .error error d) :
    compileNodes model (before ++ node :: after) isFirst c = .error error d := by
  induction before generalizing c isFirst with
  | nil =>
    obtain ⟨-, rfl⟩ := EStateM.Result.ok.inj hbefore
    rw [List.isEmpty_nil, Bool.and_true] at hnode
    rw [List.nil_append, compileNodes, bind_run, hnode]
  | cons first rest ih =>
    obtain ⟨_, c', hfirst, hrest⟩ := bind_eq_ok.mp hbefore
    rw [List.cons_append, compileNodes, bind_run, hfirst]
    exact ih hrest (by simpa using hnode)

/-! ## Failures -/

/-- The places where a compilation can fail, each with the numbers of regions that have been opened
and of nodes that have been compiled by then. -/
inductive FailsAfter (model : Model) (name : String) (c : Compiler Assembler) : ℕ → ℕ → Prop
  /-- A parameter gets no storage, or the function cannot be begun. -/
  | start {error : CompileError} {d : Compiler Assembler} :
    beginModel model name (c.enter name) = .error error d → FailsAfter model name c 0 0
  /-- No region can be opened for a node. -/
  | region {parameters : List Parameter} {begun reached d : Compiler Assembler}
    {before after : List Node} {node : Node} {error : CompileError} :
    beginModel model name (c.enter name) = .ok parameters begun →
    model.nodes.toList = before ++ node :: after →
    compileNodes model before true begun = .ok () reached →
    beginNode node reached = .error error d →
    FailsAfter model name c before.length before.length
  /-- A node cannot be lowered. -/
  | lowering {parameters : List Parameter} {begun reached opened d : Compiler Assembler}
    {before after : List Node} {node : Node} {error : CompileError} :
    beginModel model name (c.enter name) = .ok parameters begun →
    model.nodes.toList = before ++ node :: after →
    compileNodes model before true begun = .ok () reached →
    beginNode node reached = .ok () opened →
    Site.lower ⟨model, node⟩ opened = .error error d →
    FailsAfter model name c (before.length + 1) before.length

/-- Once the function is begun, it stays open. -/
lemma open_preserved : Assembler.Preserved fun a => a.pending.isSome = true where
  declare _ h := h
  allocate h hnext := by
    obtain ⟨-, -, -, -, rfl⟩ := Assembler.allocate_eq_ok.mp hnext
    exact h
  beginFunction _ hnext := by
    obtain ⟨-, -, -, -, rfl⟩ := Assembler.beginFunction_eq_ok.mp hnext
    rfl
  openRegion _ hnext := by
    obtain ⟨-, -, -, -, rfl⟩ := Assembler.openRegion_eq_ok.mp hnext
    rfl
  emit _ hnext := by
    obtain ⟨-, -, -, -, -, rfl⟩ := Assembler.emit_eq_ok.mp hnext
    rfl
  mergeRegion {a} node h := by
    cases hnext : a.mergeRegion? node with
    | none => exact h
    | some next =>
      obtain ⟨-, -, -, -, -, -, rfl⟩ := Assembler.mergeRegion?_eq_some.mp hnext
      rfl

lemma beginModel_open {parameters : List Parameter}
    (h : beginModel model name c = .ok parameters d) :
    d.backend.pending.isSome = true := by
  obtain ⟨_, _, -, h₁⟩ := bind_eq_ok.mp h
  obtain ⟨_, c₂, -, h₂⟩ := bind_eq_ok.mp h₁
  obtain ⟨_, c₃, hbegin, h₃⟩ := bind_eq_ok.mp h₂
  obtain ⟨-, rfl⟩ := EStateM.Result.ok.inj h₃
  obtain ⟨backend, hbackend, rfl⟩ := onBackend_change_eq_ok.mp (onBehalfOf_eq_ok.mp hbegin)
  obtain ⟨-, -, -, -, rfl⟩ := Assembler.beginFunction_eq_ok.mp hbackend
  rfl

/-- A function that is open can be ended. -/
lemma close_ok (h : d.backend.pending.isSome = true) (parameters : List Parameter) :
    ∃ function e, close model name parameters d = .ok function e := by
  obtain ⟨pending, hpending⟩ := Option.isSome_iff_exists.mp h
  have hend := Assembler.endFunction_eq_ok.mpr ⟨pending, hpending, rfl⟩
  exact ⟨_, _, by rw [close_run, hend]⟩

/-- A compilation that fails does so at one of the places. -/
lemma exists_failsAfter (h : compile model name c = .error error d) :
    ∃ regions nodes, FailsAfter model name c regions nodes := by
  rw [compile, compileBody_eq, compileOpen_split, bind_run, bind_run] at h
  cases hbegin : beginModel model name (c.enter name) with
  | error e begun => exact ⟨0, 0, .start hbegin⟩
  | ok parameters begun =>
    simp only [hbegin, bind_run] at h
    cases hnodes : compileNodes model model.nodes.toList true begun with
    | ok _ reached =>
      have hopen := congruence_keeps open_preserved begun.options
      have hreached := (hopen.compileNodes model model.nodes.toList true begun
        ⟨beginModel_open hbegin, rfl⟩).backend
      rw [Attempt.after, hnodes] at hreached
      have hnotify : notify .endModel model.name reached = .ok () reached := rfl
      obtain ⟨function, e, hclose⟩ : ∃ function e, close model name parameters reached =
          .ok function e := close_ok hreached parameters
      simp only [hnodes, hnotify, pure, EStateM.pure, hclose] at h
      cases h
    | error e reached =>
      obtain ⟨before, node, after, middle, hsplit, hbefore, hnode⟩ := compileNodes_eq_error hnodes
      rw [compileNode_split] at hnode
      rcases bind_eq_error.mp hnode with hopen | ⟨_, opened, hopen, hrest⟩
      · exact ⟨_, _, .region hbegin hsplit hbefore hopen⟩
      rcases bind_eq_error.mp hrest with hlower | ⟨_, lowered, -, hend⟩
      · obtain ⟨_, hlower, -⟩ := onBehalfOf_eq_error.mp hlower
        exact ⟨_, _, .lowering hbegin hsplit hbefore hopen hlower⟩
      · obtain ⟨_, hrun, -⟩ := endNode_run node (true && before.isEmpty) lowered
        cases hrun.symm.trans hend

/-- Nothing has been counted when the function is begun. -/
lemma beginModel_goes {parameters : List Parameter}
    (h : beginModel model name (c.enter name) = .ok parameters d) : c.Goes 0 0 0 d :=
  ((Still.beginModel model name).goes h).of_enter

/-- What is counted until the given nodes are compiled. -/
lemma compileNodes_goes_begun {parameters : List Parameter} {begun : Compiler Assembler}
    {before : List Node} (hbegin : beginModel model name (c.enter name) = .ok parameters begun)
    (h : compileNodes model before true begun = .ok () d) :
    c.Goes before.length before.length (c.options.attempts before.length) d := by
  have hstart := beginModel_goes hbegin
  have hnodes := compileNodes_goes h
  rw [hstart.options] at hnodes
  simpa [Options.attempts] using hstart.trans hnodes

lemma compileOpen_goes {parameters : List Parameter}
    (h : compileOpen model name (c.enter name) = .ok parameters d) :
    c.Goes model.nodes.size model.nodes.size (c.options.attempts model.nodes.size) d := by
  obtain ⟨begun, hbegin, hnodes⟩ := compileOpen_eq_ok h
  have hgoes := compileNodes_goes_begun hbegin hnodes
  rwa [Array.length_toList] at hgoes

/-- At the first of the places the compilation fails, and what has been counted is what has been
done by then. -/
lemma FailsAfter.compileOpen (h : FailsAfter model name c regions nodes) :
    ∃ error d, Compiler.compileOpen model name (c.enter name) = .error error d ∧
      c.Goes regions nodes (c.options.attempts nodes) d := by
  -- a node that fails makes the model fail
  have hnode : ∀ {parameters : List Parameter} {begun reached failed : Compiler Assembler}
      {before after : List Node} {node : Node} {error : CompileError},
      beginModel model name (c.enter name) = .ok parameters begun →
      model.nodes.toList = before ++ node :: after →
      compileNodes model before true begun = .ok () reached →
      compileNode model node (true && before.isEmpty) reached = .error error failed →
      Compiler.compileOpen model name (c.enter name) = .error error failed := by
    intro parameters begun reached failed before after node error hbegin hsplit hbefore hnode
    have hnodes : compileNodes model (before ++ node :: after) true begun = .error error failed :=
      compileNodes_append_error hbefore hnode
    rw [compileOpen_split, bind_run, hbegin, hsplit]
    simp only [bind_run, hnodes]
  cases h with
  | @start error failed hbegin =>
    have hopen : Compiler.compileOpen model name (c.enter name) = .error error failed := by
      rw [compileOpen_split, bind_run, hbegin]
    have hstart := ((Still.beginModel model name).goes_error hbegin).of_enter
    exact ⟨_, _, hopen, by simpa [Options.attempts] using hstart⟩
  | @region _ _ reached failed before _ node error hbegin hsplit hbefore hopen =>
    have hfails : compileNode model node (true && before.isEmpty) reached =
        .error error failed := by
      rw [compileNode_split, bind_run, hopen]
    exact ⟨_, _, hnode hbegin hsplit hbefore hfails,
      (compileNodes_goes_begun hbegin hbefore).trans (beginNode_goes_error hopen)⟩
  | @lowering _ _ reached opened failed before _ node error hbegin hsplit hbefore hopen hlower =>
    have hbehalf : (Site.lower ⟨model, node⟩).onBehalfOf node.name opened =
        .error (error.withOrigin node.name) failed := onBehalfOf_eq_error.mpr ⟨_, hlower, rfl⟩
    have hfails : compileNode model node (true && before.isEmpty) reached =
        .error (error.withOrigin node.name) failed := by
      rw [compileNode_split, bind_run, hopen]
      simp only [bind_run, hbehalf]
    have hlowered := (beginNode_goes hopen).trans ((Still.lower _).goes_error hlower)
    exact ⟨_, _, hnode hbegin hsplit hbefore hfails,
      (compileNodes_goes_begun hbegin hbefore).trans hlowered⟩

/-- **What a compilation counts that fails.** -/
lemma FailsAfter.compile (h : FailsAfter model name c regions nodes) :
    ∃ error d, Compiler.compile model name c = .error error d ∧
      c.statistics.Grows regions nodes (c.options.attempts nodes) d.statistics ∧
      ∃ s : Statistics, s.closing = c.statistics.closing ∧ d.statistics = s.functionDiscarded := by
  obtain ⟨error, reached, hrun, hgoes⟩ := h.compileOpen
  refine ⟨error, reached.leave.abandon, ?_, ?_, reached.statistics, hgoes.closing, rfl⟩
  · rw [Compiler.compile, compileBody_eq, bind_run, hrun]
  · exact ⟨hgoes.grows.created, hgoes.grows.compiled, hgoes.grows.kinds, hgoes.grows.merges,
      hgoes.grows.refused⟩

end Compiler
end Dataflow
