import Dataflow.Proofs.Attempt
import Dataflow.Proofs.Compiler.Renaming

/-!
# What compiling is made of

The compiler is written for any backend.  Of its own state it only looks at the scopes and at the
nodes that are compiled (`scene`), and where it determines element types, at whether they are
checked (`view`); everything else it does with a handful of steps, such as to emit an instruction or
to bind a port.  So a relation between the attempts of two compilers that holds of these steps and
is closed under sequences holds of lowering every node (`Compiler.LowerCongruence`) and of compiling
every model (`Compiler.Congruence`): see `LowerCongruence.lower` and `Congruence.compileOpen`.  The
variables of the second compiler may be those of the first one renamed.

Two relations are used later with the same variables on both sides: that two compilers do alike
(`Attempt.Related`), and that one compiler keeps an invariant (`Attempt.Keeps`).
-/

namespace Dataflow

open Renames

lemma discard_eq {σ α : Type} (x : Attempt σ α) : discard x = x >>= fun _ => pure () := by
  funext s
  rw [Attempt.bind_run]
  show EStateM.map _ x s = _
  rw [EStateM.map]
  cases x s <;> rfl

namespace Compiler

variable {β : Type}

/-- What compiling a node looks at. -/
def view (compiler : Compiler β) : Compiler Unit :=
  { backend := ()
    session := .fresh
    options := ⟨false, compiler.options.checkElementTypes, false⟩
    scopes := compiler.scopes
    compiled := compiler.compiled }

/-- What compiling a node looks at where it does not determine element types. -/
def scene (compiler : Compiler β) : Compiler Unit :=
  { backend := ()
    session := .fresh
    options := ⟨false, false, false⟩
    scopes := compiler.scopes
    compiled := compiler.compiled }

variable [Backend β]

lemma getOrAllocatePort_eq (port : OutputPort) (initial : Option Float) :
    (getOrAllocatePort port initial : Attempt (Compiler β) VarId) = get >>= fun compiler =>
      (compiler.variableOf? port.id).elim (allocatePort port initial) pure := by
  rw [getOrAllocatePort]
  congr! with compiler
  cases compiler.variableOf? port.id <;> rfl

/-- Asks for a merge, if the options say so and the node is not the first one. -/
def mergeStep (node : NodeId) (isFirst : Bool) : Attempt (Compiler β) Unit := do
  if (← get).options.mergeRegions && !isFirst then discard (mergeRegion node)

/-- The compiler after it has asked for a merge. -/
def afterMerge (compiler : Compiler β) (node : NodeId) : Compiler β :=
  let answer := Backend.mergeRegion node compiler.backend
  { compiler with
    backend := answer.2
    session := compiler.session.count fun stats => stats.mergeAttempted answer.1 }

/-- Asking for a merge cannot fail. -/
lemma mergeStep_run (node : NodeId) (isFirst : Bool) (compiler : Compiler β) :
    mergeStep node isFirst compiler = .ok () (if compiler.options.mergeRegions && !isFirst
      then compiler.afterMerge node else compiler) := by
  rw [mergeStep, Attempt.bind_run]
  simp only [Attempt.get_run]
  split
  · rw [discard_eq]
    rfl
  · rfl

lemma compileNode_eq (model : Model) (node : Node) (isFirst : Bool) :
    (compileNode model node isFirst : Attempt (Compiler β) Unit) = (do
      notify .beginNode node.name
      (onBackend (Backend.openRegion node.id)).onBehalfOf node.name
      count Statistics.regionCreated
      (Site.lower ⟨model, node⟩).onBehalfOf node.name
      finishNode node
      mergeStep node.id isFirst
      notify .endNode node.name) := by
  rw [compileNode, mergeStep]
  simp only [bind_assoc]
  congr! with _ _ _ _ _ compiler
  split <;> simp

/-- What is done before a node is lowered. -/
def beginNode (node : Node) : Attempt (Compiler β) Unit := do
  notify .beginNode node.name
  (onBackend (Backend.openRegion node.id)).onBehalfOf node.name
  count Statistics.regionCreated

/-- What is done after a node has been lowered. -/
def endNode (node : Node) (isFirst : Bool) : Attempt (Compiler β) Unit := do
  finishNode node
  mergeStep node.id isFirst
  notify .endNode node.name

lemma compileNode_split (model : Model) (node : Node) (isFirst : Bool) :
    (compileNode model node isFirst : Attempt (Compiler β) Unit) = (do
      beginNode node
      (Site.lower ⟨model, node⟩).onBehalfOf node.name
      endNode node isFirst) := by
  rw [compileNode_eq]
  simp only [beginNode, endNode, bind_assoc]

/-- Compiles a model into an open function. -/
def compileOpen (model : Model) (name : String) : Attempt (Compiler β) (List Parameter) := do
  notify .beginModel model.name
  let parameters ← allocateParameters model
  (onBackend (Backend.beginFunction name parameters)).onBehalfOf name
  compileNodes model model.nodes.toList true
  notify .endModel model.name
  return parameters

/-- What is done before the nodes of a model are compiled. -/
def beginModel (model : Model) (name : String) : Attempt (Compiler β) (List Parameter) := do
  notify .beginModel model.name
  let parameters ← allocateParameters model
  (onBackend (Backend.beginFunction name parameters)).onBehalfOf name
  return parameters

lemma compileOpen_split (model : Model) (name : String) :
    (compileOpen model name : Attempt (Compiler β) (List Parameter)) = (do
      let parameters ← beginModel model name
      compileNodes model model.nodes.toList true
      notify .endModel model.name
      return parameters) := by
  simp only [compileOpen, beginModel, bind_assoc, pure_bind]

/-- Ends the open function. -/
def close (model : Model) (name : String) (parameters : List Parameter) :
    Attempt (Compiler β) CompiledFunction := do
  (onBackend Backend.endFunction).onBehalfOf name
  return ⟨name, parameters, model.nodes.size⟩

lemma compileBody_eq (model : Model) (name : String) :
    (compileBody model name : Attempt (Compiler β) CompiledFunction) =
      compileOpen model name >>= close model name := by
  simp only [compileBody, compileOpen, close, bind_assoc, pure_bind]

end Compiler

namespace Site

variable {β : Type}

lemma boundOutput_eq (site : Site) :
    (site.boundOutput : Attempt (Compiler β) Slice) = get >>= fun compiler =>
      (compiler.variableOf? site.node.port.id).elim
        (MonadExcept.ofExcept (site.unbound site.node.port))
        fun var => pure ⟨var, 0, site.node.size⟩ := by
  rw [boundOutput]
  congr! with compiler
  cases compiler.variableOf? site.node.port.id <;> rfl

/-- The element type of an input port, which is checked as far as the options ask for it. -/
def elementType (site : Site) (index : ℕ) : Attempt (Compiler β) ElementType := do
  let strict := (← get).options.checkElementTypes
  MonadExcept.ofExcept (site.inputType strict index)

lemma checkInput_eq (site : Site) (index : ℕ) :
    (site.checkInput index : Attempt (Compiler β) Unit) = discard (site.elementType index) := by
  rw [discard_eq, elementType, bind_assoc, checkInput]
  simp only [discard_eq]

variable [Backend β]

/-- Gathers slices in a new variable.  The flag says whether their element types have to agree. -/
def gatherAs (site : Site) (strict : Bool) (index : ℕ) (slices : List Slice) :
    Attempt (Compiler β) Slice := do
  let elementType ← MonadExcept.ofExcept (site.inputType strict index)
  let size ← MonadExcept.ofExcept (site.joinedSize slices)
  let var ← Compiler.allocateScratch elementType size
  copyConsecutive ⟨var, 0, size⟩ 0 slices
  return ⟨var, 0, size⟩

/-- Gathers slices in a new variable. -/
def gather (site : Site) (index : ℕ) (slices : List Slice) : Attempt (Compiler β) Slice := do
  site.gatherAs (← get).options.checkElementTypes index slices

/-- The check only decides whether slices are gathered, and not how. -/
lemma gather_eq (site : Site) (index : ℕ) (slices : List Slice) :
    (site.gather index slices : Attempt (Compiler β) Slice) = (do
      let elementType ← site.elementType index
      let size ← MonadExcept.ofExcept (site.joinedSize slices)
      let var ← Compiler.allocateScratch elementType size
      copyConsecutive ⟨var, 0, size⟩ 0 slices
      return ⟨var, 0, size⟩) := by
  rw [elementType, bind_assoc]
  rfl

lemma inputContiguous_eq (site : Site) (index : ℕ) :
    (site.inputContiguous index : Attempt (Compiler β) Slice) = (do
      match ← site.inputSlices index with
      | [slice] => return slice
      | slices => site.gather index slices) := rfl

end Site

/-! ## Congruences -/

namespace Compiler

variable {β : Type} [Backend β] {β' : Type} [Backend β']

/-- A relation between the attempts of two compilers that is closed under what lowering a node is
made of.  The variables of the second compiler are those of the first one renamed. -/
structure LowerCongruence (ρ : VarId → VarId)
    (P : (α : Type) → [Renames α] → Attempt (Compiler β) α → Attempt (Compiler β') α → Prop) :
    Prop where
  pure : ∀ {α} [Renames α] (a : α), P α (pure a) (pure (rename ρ a))
  ofExcept : ∀ {α} [Renames α] {x : Except CompileError α}, GraphCheck x →
    P α (MonadExcept.ofExcept x) (MonadExcept.ofExcept (x.map (rename ρ)))
  bind : ∀ {α γ} [Renames α] [Renames γ] {x : Attempt (Compiler β) α}
    {y : Attempt (Compiler β') α} {f : α → Attempt (Compiler β) γ}
    {g : α → Attempt (Compiler β') γ},
    P α x y → (∀ a, P γ (f a) (g (rename ρ a))) → P γ (x >>= f) (y >>= g)
  look : ∀ {α} [Renames α] {f : Compiler Unit → Attempt (Compiler β) α}
    {g : Compiler Unit → Attempt (Compiler β') α}, (∀ seen, P α (f seen) (g (rename ρ seen))) →
    P α (get >>= fun compiler => f compiler.scene) (get >>= fun compiler => g compiler.scene)
  elementType : ∀ (site : Site) index,
    P ElementType (site.elementType index) (site.elementType index)
  checkOperands : ∀ site : Site, P Unit site.checkOperands site.checkOperands
  allocate : ∀ spec, spec.Proper → P VarId (allocate spec) (allocate spec)
  bindPort : ∀ port var, P Unit (modify fun compiler => compiler.bindPort port var)
    (modify fun compiler => compiler.bindPort port (rename ρ var))
  emit : ∀ instruction, P Unit (emit instruction) (emit (rename ρ instruction))

/-- A relation between the attempts of two compilers that is closed under what compiling is made
of. -/
structure Congruence (ρ : VarId → VarId)
    (P : (α : Type) → [Renames α] → Attempt (Compiler β) α → Attempt (Compiler β') α → Prop) : Prop
    extends LowerCongruence ρ P where
  onBehalfOf : ∀ {α} [Renames α] (name : String) {x : Attempt (Compiler β) α}
    {y : Attempt (Compiler β') α}, P α x y → P α (x.onBehalfOf name) (y.onBehalfOf name)
  openRegion : ∀ node, P Unit (onBackend (Backend.openRegion node))
    (onBackend (Backend.openRegion node))
  regionCreated : P Unit (count Statistics.regionCreated) (count Statistics.regionCreated)
  finishNode : ∀ node, P Unit (finishNode node) (finishNode node)
  mergeStep : ∀ node isFirst, P Unit (mergeStep node isFirst) (mergeStep node isFirst)
  notify : ∀ milestone subject, P Unit (notify milestone subject) (notify milestone subject)

namespace LowerCongruence

variable {ρ : VarId → VarId}
variable {P : (α : Type) → [Renames α] → Attempt (Compiler β) α → Attempt (Compiler β') α → Prop}
variable (h : LowerCongruence ρ P)

include h

lemma discard {α : Type} [Renames α] {x : Attempt (Compiler β) α} {y : Attempt (Compiler β') α}
    (hxy : P α x y) : P Unit (Functor.discard x) (Functor.discard y) := by
  rw [discard_eq, discard_eq]
  exact h.bind hxy fun _ => h.pure ()

lemma mapM {α γ : Type} [Renames γ] {f : α → Attempt (Compiler β) γ}
    {g : α → Attempt (Compiler β') γ} (hfg : ∀ a, P γ (f a) (g a)) (list : List α) :
    P (List γ) (list.mapM f) (list.mapM g) := by
  induction list with
  | nil => exact h.pure []
  | cons a rest ih =>
    rw [List.mapM_cons, List.mapM_cons]
    exact h.bind (hfg a) fun b => h.bind ih fun bs => h.pure (b :: bs)

lemma forM {α : Type} [Renames α] {f : α → Attempt (Compiler β) Unit}
    {g : α → Attempt (Compiler β') Unit} (hfg : ∀ a, P Unit (f a) (g (rename ρ a)))
    (list : List α) : P Unit (list.forM f) ((rename ρ list).forM g) := by
  induction list with
  | nil => exact h.pure ()
  | cons a rest ih => exact h.bind (hfg a) fun _ => ih

/-- A check that has nothing to do with variables. -/
lemma check {x : Except CompileError Unit} (hx : GraphCheck x) :
    P Unit (MonadExcept.ofExcept x) (MonadExcept.ofExcept x) := by
  have hcheck := h.ofExcept hx
  cases x <;> exact hcheck

lemma fail {α : Type} [Renames α] {e : CompileError} (he : e.BlamesGraph) :
    P α (MonadExcept.ofExcept (.error e)) (MonadExcept.ofExcept (.error e)) :=
  h.ofExcept (GraphCheck.error he)

/-! ## Allocation -/

/-- A variable is allocated and bound to a port. -/
lemma allocateBound (port : PortId) {spec : VariableSpec} (hspec : spec.Proper) : P VarId
    (do let var ← Compiler.allocate spec
        modify fun compiler => compiler.bindPort port var
        Pure.pure var)
    (do let var ← Compiler.allocate spec
        modify fun compiler => compiler.bindPort port var
        Pure.pure var) :=
  h.bind (h.allocate spec hspec) fun var => h.bind (h.bindPort port var) fun _ => h.pure var

lemma allocatePort (port : OutputPort) (initial : Option Float) :
    P VarId (Compiler.allocatePort port initial) (Compiler.allocatePort port initial) := by
  unfold Compiler.allocatePort
  simp only
  split
  · exact h.bind (h.fail trivial) fun _ => h.allocateBound port.id rfl
  · exact h.allocateBound port.id rfl

lemma getOrAllocatePort (port : OutputPort) (initial : Option Float) :
    P VarId (Compiler.getOrAllocatePort port initial)
      (Compiler.getOrAllocatePort port initial) := by
  rw [getOrAllocatePort_eq, getOrAllocatePort_eq]
  refine h.look (f := fun seen =>
      (seen.variableOf? port.id).elim (Compiler.allocatePort port initial) Pure.pure)
    (g := fun seen =>
      (seen.variableOf? port.id).elim (Compiler.allocatePort port initial) Pure.pure) fun seen => ?_
  rw [variableOf?_rename]
  cases seen.variableOf? port.id with
  | some var => exact h.pure var
  | none => exact h.allocatePort port initial

lemma allocateData (port : OutputPort) (values : List Float) :
    P VarId (Compiler.allocateData port values) (Compiler.allocateData port values) := by
  unfold Compiler.allocateData
  simp only
  split
  · exact h.bind (h.fail trivial) fun _ => h.allocateBound port.id rfl
  · exact h.allocateBound port.id rfl

/-! ## Operands -/

variable (site : Site)

lemma copyConsecutive (dst : Slice) (offset : ℕ) (slices : List Slice) :
    P Unit (Site.copyConsecutive dst offset slices)
      (Site.copyConsecutive (rename ρ dst) offset (rename ρ slices)) := by
  induction slices generalizing offset with
  | nil => exact h.pure ()
  | cons src rest ih => exact h.bind (h.emit _) fun _ => ih _

lemma inputSlices (index : ℕ) :
    P (List Slice) (site.inputSlices index) (site.inputSlices index) := by
  refine h.look
    (f := fun seen => MonadExcept.ofExcept
      (site.inputRanges index >>= fun ranges => (ranges.1 :: ranges.2).mapM (site.resolve seen)))
    (g := fun seen => MonadExcept.ofExcept
      (site.inputRanges index >>= fun ranges => (ranges.1 :: ranges.2).mapM (site.resolve seen)))
    fun seen => ?_
  have hrename : (site.inputRanges index >>= fun ranges =>
        (ranges.1 :: ranges.2).mapM (site.resolve (rename ρ seen))) =
      Except.map (rename ρ) (site.inputRanges index >>= fun ranges =>
        (ranges.1 :: ranges.2).mapM (site.resolve seen)) := by
    cases site.inputRanges index with
    | error e => rfl
    | ok ranges => exact mapM_rename ρ fun range _ => site.resolve_rename seen ρ range
  rw [hrename]
  exact h.ofExcept ((site.inputRanges_check index).bind fun ranges =>
    .mapM (site.resolve_check seen) _)

lemma joinedSize (slices : List Slice) : P ℕ (MonadExcept.ofExcept (site.joinedSize slices))
    (MonadExcept.ofExcept (site.joinedSize (rename ρ slices))) :=
  site.joinedSize_rename ρ slices ▸ h.ofExcept (site.joinedSize_check slices)

lemma gather (index : ℕ) (slices : List Slice) :
    P Slice (site.gather index slices) (site.gather index (rename ρ slices)) := by
  rw [Site.gather_eq, Site.gather_eq]
  exact h.bind (h.elementType site index) fun _ => h.bind (h.joinedSize site slices) fun size =>
    h.bind (h.allocate _ rfl) fun var => h.bind (h.copyConsecutive ⟨var, 0, size⟩ _ _) fun _ =>
      h.pure (⟨var, 0, size⟩ : Slice)

lemma inputContiguous (index : ℕ) :
    P Slice (site.inputContiguous index) (site.inputContiguous index) := by
  rw [Site.inputContiguous_eq, Site.inputContiguous_eq]
  refine h.bind (h.inputSlices site index) fun slices => ?_
  rcases slices with _ | ⟨first, _ | ⟨second, rest⟩⟩
  · exact h.gather site index _
  · exact h.pure first
  · exact h.gather site index _

lemma output (initial : Option Float) : P Slice (site.output initial) (site.output initial) :=
  h.bind (h.getOrAllocatePort site.node.port initial) fun var =>
    h.pure (⟨var, 0, site.node.size⟩ : Slice)

lemma boundOutput : P Slice site.boundOutput site.boundOutput := by
  rw [Site.boundOutput_eq, Site.boundOutput_eq]
  refine h.look (f := fun seen => (seen.variableOf? site.node.port.id).elim
      (MonadExcept.ofExcept (site.unbound site.node.port))
      fun var => Pure.pure (⟨var, 0, site.node.size⟩ : Slice))
    (g := fun seen => (seen.variableOf? site.node.port.id).elim
      (MonadExcept.ofExcept (site.unbound site.node.port))
      fun var => Pure.pure (⟨var, 0, site.node.size⟩ : Slice)) fun seen => ?_
  rw [variableOf?_rename]
  cases seen.variableOf? site.node.port.id with
  | some var => exact h.pure (⟨var, 0, site.node.size⟩ : Slice)
  | none => exact h.fail trivial

/-! ## Lowering -/

lemma checkInput (index : ℕ) : P Unit (site.checkInput index) (site.checkInput index) := by
  rw [Site.checkInput_eq, Site.checkInput_eq]
  exact h.discard (h.elementType site index)

lemma checkResult (produced : ℕ) : P Unit (site.checkResult produced) (site.checkResult produced) :=
  h.check (site.checkSize_check produced)

lemma lowerConcatenation {destination : Attempt (Compiler β) Slice}
    {destination' : Attempt (Compiler β') Slice} (hdst : P Slice destination destination') :
    P Unit (site.lowerConcatenation destination) (site.lowerConcatenation destination') :=
  h.bind (h.inputSlices site 0) fun slices => h.bind (h.checkInput site 0) fun _ =>
    h.bind (h.joinedSize site slices) fun _ => h.bind (h.checkResult site _) fun _ =>
      h.bind hdst fun dst => h.copyConsecutive dst 0 slices

lemma lowerPointwise {instruction : Slice → Slice → Instruction}
    (hinstruction : ∀ dst src, rename ρ (instruction dst src) =
      instruction (rename ρ dst) (rename ρ src)) :
    P Unit (site.lowerPointwise instruction) (site.lowerPointwise instruction) :=
  h.bind (h.checkInput site 0) fun _ => h.bind (h.inputContiguous site 0) fun src =>
    h.bind (h.checkResult site _) fun _ => h.bind (h.output site none) fun dst =>
      hinstruction dst src ▸ h.emit (instruction dst src)

lemma lowerBinary (op : BinaryOp) : P Unit (site.lowerBinary op) (site.lowerBinary op) := by
  refine h.bind (h.checkOperands site) fun _ => h.bind (h.inputContiguous site 0) fun lhs =>
    h.bind (h.inputContiguous site 1) fun rhs => ?_
  rw [length_rename, length_rename]
  split
  · exact h.bind (h.checkResult site _) fun _ => h.bind (h.output site none) fun dst =>
      h.emit (.binary op dst lhs rhs)
  · exact h.fail trivial

lemma lowerDot : P Unit site.lowerDot site.lowerDot := by
  refine h.bind (h.checkOperands site) fun _ => h.bind (h.inputContiguous site 0) fun lhs =>
    h.bind (h.inputContiguous site 1) fun rhs => ?_
  have hrest : P Unit
      (do site.checkResult 1; let dst ← site.output none; Compiler.emit (.dot dst lhs rhs))
      (do site.checkResult 1
          let dst ← site.output none
          Compiler.emit (.dot dst (rename ρ lhs) (rename ρ rhs))) :=
    h.bind (h.checkResult site 1) fun _ => h.bind (h.output site none) fun dst =>
      h.emit (.dot dst lhs rhs)
  simp only [length_rename]
  split
  · exact h.bind (h.fail trivial) fun _ => hrest
  · exact hrest

lemma lowerReduce (op : ReduceOp) : P Unit (site.lowerReduce op) (site.lowerReduce op) :=
  h.bind (h.checkInput site 0) fun _ => h.bind (h.inputSlices site 0) fun slices =>
    h.bind (h.checkResult site 1) fun _ => h.bind (h.output site _) fun dst =>
      h.bind (h.emit (.fill dst op.identity)) fun _ =>
        h.forM (fun src => h.emit (.reduce op dst src)) slices

lemma lower : P Unit site.lower site.lower := by
  unfold Site.lower
  cases site.node.kind with
  | input => exact h.discard (h.boundOutput site)
  | output => exact h.lowerConcatenation site (h.boundOutput site)
  | constant values => exact h.discard (h.allocateData _ values)
  | concat => exact h.lowerConcatenation site (h.output site none)
  | binary op => exact h.lowerBinary site op
  | unary op => exact h.lowerPointwise site fun _ _ => rfl
  | accumulator => exact h.lowerPointwise site fun _ _ => rfl
  | reduce op => exact h.lowerReduce site op
  | dot => exact h.lowerDot site

end LowerCongruence

namespace Congruence

variable {ρ : VarId → VarId}
variable {P : (α : Type) → [Renames α] → Attempt (Compiler β) α → Attempt (Compiler β') α → Prop}
variable (h : Congruence ρ P)

include h

/-! ## Parameters -/

lemma allocateParameter {storage : StorageClass} (hstorage : storage.isParameter = true)
    (port : OutputPort) :
    P Parameter (Compiler.allocateParameter storage port)
      (Compiler.allocateParameter storage port) :=
  h.bind (h.onBehalfOf _ (h.allocate _ hstorage.symm)) fun var =>
    h.bind (h.bindPort port.id var) fun _ => h.pure (parameterOf storage port)

lemma allocateParameters (model : Model) :
    P (List Parameter) (Compiler.allocateParameters model)
      (Compiler.allocateParameters model) := by
  refine h.bind (h.mapM (h.allocateParameter rfl) _) fun inputs =>
    h.bind (h.mapM (h.allocateParameter rfl) _) fun outputs => ?_
  rw [← rename_append]
  exact h.pure (inputs ++ outputs)

/-! ## Models -/

variable (model : Model)

lemma compileNode (node : Node) (isFirst : Bool) :
    P Unit (Compiler.compileNode model node isFirst) (Compiler.compileNode model node isFirst) := by
  rw [compileNode_eq, compileNode_eq]
  exact h.bind (h.notify _ _) fun _ => h.bind (h.onBehalfOf _ (h.openRegion _)) fun _ =>
    h.bind h.regionCreated fun _ => h.bind (h.onBehalfOf _ (h.lower _)) fun _ =>
    h.bind (h.finishNode _) fun _ => h.bind (h.mergeStep _ _) fun _ => h.notify _ _

lemma compileNodes (nodes : List Node) (isFirst : Bool) :
    P Unit (Compiler.compileNodes model nodes isFirst)
      (Compiler.compileNodes model nodes isFirst) := by
  induction nodes generalizing isFirst with
  | nil => exact h.pure ()
  | cons node rest ih => exact h.bind (h.compileNode model node isFirst) fun _ => ih false

/-- The parameters of a model do not depend on the names of variables. -/
lemma pure_parameters (parameters : List Parameter) :
    P (List Parameter) (Pure.pure parameters) (Pure.pure parameters) := by
  have hpure := h.pure parameters
  rwa [rename_parameters] at hpure

lemma beginModel (name : String) (hbegin : ∀ parameters,
      P Unit (onBackend (Backend.beginFunction name parameters))
        (onBackend (Backend.beginFunction name parameters))) :
    P (List Parameter) (Compiler.beginModel model name) (Compiler.beginModel model name) := by
  refine h.bind (h.notify _ _) fun _ => h.bind (h.allocateParameters model) fun parameters => ?_
  rw [rename_parameters]
  exact h.bind (h.onBehalfOf _ (hbegin _)) fun _ => h.pure_parameters parameters

/-- What holds of beginning a model and is closed under the steps of compiling holds of compiling
the model. -/
lemma compileOpen {name : String} (hbegin :
      P (List Parameter) (Compiler.beginModel model name) (Compiler.beginModel model name)) :
    P (List Parameter) (Compiler.compileOpen model name) (Compiler.compileOpen model name) := by
  rw [compileOpen_split, compileOpen_split]
  refine h.bind hbegin fun parameters => ?_
  rw [rename_parameters]
  exact h.bind (h.compileNodes model _ _) fun _ => h.bind (h.notify _ _) fun _ =>
    h.pure_parameters parameters

end Congruence
end Compiler
end Dataflow
