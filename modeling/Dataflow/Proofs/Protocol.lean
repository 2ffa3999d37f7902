import Dataflow.Proofs.Compiler.History
import Dataflow.Proofs.Protocol.Script

/-!
# The protocol of a compilation

What a compilation tells and asks its backend is a fixed script (`Model.script`): the parameters are
allocated in the order of the roster, the function is begun, every node in turn is announced, gets
its region, makes the requests of its lowering and may ask for one merge, and the function is ended.
The requests of a node's lowering depend on the model and the options only.  The script may end
early, at a node whose lowering finds something wrong with the graph.

Whatever fails, and whichever merges are refused, the compiler works off its script from the front
and stops at the first request that fails.  It then discards the function, once, and it does so in
no other case (`Compiler.compile_protocol`).
-/

namespace Dataflow

open Attempt Renames

/-! ## The script -/

namespace Node

/-- The cues of a node up to the last request of its lowering. -/
def opening (node : Node) (function : String) (work : List Request) : List Cue :=
  .tell .beginNode node.name function :: .ask (.openRegion node.id) node.name ::
    work.map (.ask · node.name)

/-- The cues of a node that has been lowered. -/
def closing (node : Node) (function : String) (merges : Bool) : List Cue :=
  (if merges then [⟨.merge node.id true, ""⟩] else []) ++ [.tell .endNode node.name function]

end Node

/-- The cues of nodes, which come with the requests of their lowering.  They may end behind the
requests of the node at a given index. -/
def nodeScript (function : String) (merging : Bool) :
    Option ℕ → Bool → List (Node × List Request) → List Cue
  | _, _, [] => []
  | stop, isFirst, (node, work) :: rest =>
    node.opening function work ++
      if stop = some 0 then [] else
        node.closing function (merging && !isFirst) ++
          nodeScript function merging (stop.map Nat.pred) false rest

namespace Model

/-- The cues before the first node: the model is announced, its parameters are allocated, and the
function is begun.  The first parameter gets the variable with the given number. -/
def opening (model : Model) (function : String) (count : ℕ) : List Cue :=
  .tell .beginModel model.name function ::
    (model.roster.zipIdx count).map (fun entry => .ask (.allocate ⟨entry.2⟩) entry.1.2.name) ++
    [.ask (.beginFunction function (model.roster.map fun entry =>
      Compiler.parameterOf entry.1 entry.2)) function]

/-- The cues of a compilation.  The nodes come with the requests of their lowering, and the script
may end behind those of the node at a given index. -/
def script (model : Model) (function : String) (merging : Bool) (count : ℕ)
    (jobs : List (List Request)) (stop : Option ℕ) : List Cue :=
  model.opening function count ++
    nodeScript function merging stop true (model.nodes.toList.zip jobs) ++
      if stop.isSome then [] else
        [.tell .endModel model.name function, .ask .endFunction function]

end Model

lemma nodeScript_extends (function : String) (merging : Bool) (i : ℕ) (isFirst : Bool)
    (nodes : List (Node × List Request)) :
    nodeScript function merging (some i) isFirst nodes <+:
      nodeScript function merging none isFirst nodes := by
  induction nodes generalizing i isFirst with
  | nil => exact List.prefix_rfl
  | cons entry rest ih =>
    rw [nodeScript, nodeScript, List.prefix_append_right_inj, if_neg (by simp : none ≠ some 0)]
    cases i with
    | zero => exact List.nil_prefix
    | succ i =>
      rw [if_neg (by simp), List.prefix_append_right_inj]
      exact ih i false

/-- A script that ends early is a part of the whole script, from the front. -/
lemma Model.script_extends (model : Model) (function : String) (merging : Bool) (count : ℕ)
    (jobs : List (List Request)) (stop : Option ℕ) :
    model.script function merging count jobs stop <+:
      model.script function merging count jobs none := by
  cases stop with
  | none => exact List.prefix_rfl
  | some i =>
    simp only [script, Option.isSome_some, if_true, List.append_nil, List.append_assoc,
      List.prefix_append_right_inj]
    exact (nodeScript_extends _ _ _ _ _).trans (List.prefix_append _ _)

/-! ### Origins -/

/-- What may fail is asked on behalf of somebody who has a name. -/
def Cue.Attributed (cue : Cue) : Prop := cue.mayFail = true → cue.origin ≠ ""

lemma Cue.attributed_tell (milestone : Milestone) (subject function : String) :
    (Cue.tell milestone subject function).Attributed := fun h => nomatch h

lemma Cue.attributed_ask {origin : String} (h : origin ≠ "") (request : Request) :
    (Cue.ask request origin).Attributed := fun _ => h

lemma Node.attributed_opening {node : Node} (hnode : node.name ≠ "") (function : String)
    (work : List Request) : ∀ cue ∈ node.opening function work, cue.Attributed := by
  refine List.forall_mem_cons.mpr ⟨Cue.attributed_tell _ _ _,
    List.forall_mem_cons.mpr ⟨Cue.attributed_ask hnode _, fun cue hcue => ?_⟩⟩
  obtain ⟨request, -, rfl⟩ := List.mem_map.mp hcue
  exact Cue.attributed_ask hnode request

lemma Node.attributed_closing (node : Node) (function : String) (merges : Bool) :
    ∀ cue ∈ node.closing function merges, cue.Attributed := by
  intro cue hcue
  rcases List.mem_append.mp hcue with hmerge | htell
  · split at hmerge
    · rw [List.mem_singleton.mp hmerge]
      exact fun h => nomatch h
    · exact absurd hmerge List.not_mem_nil
  · rw [List.mem_singleton.mp htell]
    exact Cue.attributed_tell _ _ _

lemma nodeScript_attributed {function : String} {merging : Bool}
    {nodes : List (Node × List Request)} (hnodes : ∀ entry ∈ nodes, entry.1.name ≠ "")
    (stop : Option ℕ) (isFirst : Bool) :
    ∀ cue ∈ nodeScript function merging stop isFirst nodes, cue.Attributed := by
  induction nodes generalizing stop isFirst with
  | nil => exact fun _ h => absurd h List.not_mem_nil
  | cons entry rest ih =>
    obtain ⟨hnode, hrest⟩ := List.forall_mem_cons.mp hnodes
    intro cue hcue
    rcases List.mem_append.mp hcue with hopening | hcue
    · exact Node.attributed_opening hnode function entry.2 cue hopening
    · split at hcue
      · exact absurd hcue List.not_mem_nil
      · rcases List.mem_append.mp hcue with hclosing | hcue
        · exact Node.attributed_closing _ _ _ cue hclosing
        · exact ih hrest _ _ cue hcue

lemma Model.attributed_script {model : Model} (hmodel : ∀ node ∈ model.nodes.toList, node.name ≠ "")
    {function : String} (hfunction : function ≠ "") (merging : Bool) (count : ℕ)
    (jobs : List (List Request)) (stop : Option ℕ) :
    ∀ cue ∈ model.script function merging count jobs stop, cue.Attributed := by
  intro cue hcue
  rcases List.mem_append.mp hcue with hcue | hclosing
  · rcases List.mem_append.mp hcue with hopening | hnodes
    · rcases List.mem_append.mp hopening with hcue | hbegin
      · rcases List.mem_cons.mp hcue with rfl | hallocate
        · exact Cue.attributed_tell _ _ _
        · obtain ⟨⟨entry, i⟩, hentry, rfl⟩ := List.mem_map.mp hallocate
          obtain ⟨node, hnode, rfl, -⟩ := Model.mem_roster.mp (List.fst_mem_of_mem_zipIdx hentry)
          exact Cue.attributed_ask (hmodel node hnode) _
      · rw [List.mem_singleton.mp hbegin]
        exact Cue.attributed_ask hfunction _
    · exact nodeScript_attributed
        (fun entry hentry => hmodel _ (List.of_mem_zip hentry).1) _ _ cue hnodes
  · split at hclosing
    · exact absurd hclosing List.not_mem_nil
    · rcases List.mem_cons.mp hclosing with rfl | hend
      · exact Cue.attributed_tell _ _ _
      · rw [List.mem_singleton.mp hend]
        exact Cue.attributed_ask hfunction _

namespace Compiler

variable {β : Type} [Backend β] {c d : Compiler (Recorder β)} {seen seen' : Compiler Unit}
variable {count count' : ℕ} {options : Options} {name : String} {model : Model}

/-- The state of a compiler during the compilation of a function. -/
structure Within (options : Options) (name : String) (seen : Compiler Unit) (count : ℕ)
    (c : Compiler (Recorder β)) : Prop extends Sees seen count c where
  options : c.options = options
  function : c.session.currentFunction = some name

lemma Within.next (hc : Within options name seen count c) (hkin : Kin c d)
    (hd : Sees seen' count' d) : Within options name seen' count' d :=
  ⟨hd, hkin.options.trans hc.options, hkin.function.trans hc.function⟩

/-! ## Steps -/

section

variable (hβ : Backend.Counts β) (hc : Within options name seen count c)

include hβ hc

lemma notify_follows (milestone : Milestone) (subject : String) :
    Follows c [.tell milestone subject name] (.ok fun _ d => Within options name seen count d)
      (notify milestone subject c) := by
  have hfunction : c.session.currentFunction.getD "" = name := by rw [hc.function]; rfl
  refine (Follows.modify (.entry rfl ?_ rfl rfl) ⟨rfl, rfl⟩).mono ?_
  · rw [← hfunction]
    exact Recorder.asked_record _ _
  · rintro - _ hkin rfl
    exact hc.next hkin ⟨hc.view, (hβ.notify _ c.backend.inner).trans hc.count⟩

lemma request_onBehalfOf (request : Request) (origin : String) :
    Follows c [.ask request origin] (.ok fun _ d => Within options name seen count d)
      ((onBackend (Recorder.pass request)).onBehalfOf origin c) := by
  have hrequest : Follows c ([request].map (.ask · "")) _ (onBackend (Recorder.pass request) c) :=
    request_follows hβ hc.toSees request
  exact (hrequest.onBehalfOf (.ok _) origin).mono fun _ _ hkin hd => hc.next hkin hd

lemma mergeStep_follows (node : NodeId) (isFirst : Bool) :
    Follows c (if options.mergeRegions && !isFirst then [⟨.merge node true, ""⟩] else [])
      (.ok fun _ d => Within options name seen count d) (mergeStep node isFirst c) := by
  rw [mergeStep, bind_run, get_run]
  simp only [hc.options]
  split
  · rw [discard_eq]
    have hmerge : Follows c [⟨.merge node true, ""⟩]
        (.ok fun _ d => Within options name seen count d)
        (onBackend (.always (Backend.mergeRegion node)) c) := by
      obtain ⟨hgranted, hsize⟩ := c.backend.merge_granted hβ node
      exact .done hgranted ⟨rfl, rfl⟩
        ⟨⟨hc.view, hsize.trans hc.count⟩, hc.options, hc.function⟩
    refine Follows.bind_quiet (hmerge.bind_quiet ?_) fun _ _ _ hd => .pure hd
    rintro merged d - hd
    refine (Follows.modify (.refl _) ⟨rfl, rfl⟩).quiet_bind ?_
    rintro - _ - rfl
    exact .pure ⟨⟨hd.view, hd.count⟩, hd.options, hd.function⟩
  · exact .pure hc

lemma allocateParameter_follows (storage : StorageClass) (port : OutputPort) :
    Follows c [.ask (.allocate ⟨count⟩) port.name]
      (.ok fun parameter d => parameter = parameterOf storage port ∧
        Within options name (seen.bindPort port.id ⟨count⟩) (count + 1) d)
      (allocateParameter storage port c) := by
  have hallocate (spec : VariableSpec) : Follows c ([Request.allocate ⟨count⟩].map (.ask · "")) _
      (allocate spec c) := allocate_follows hβ hc.toSees spec
  refine ((hallocate _).onBehalfOf (.ok _) port.name).bind_quiet ?_
  rintro _ d hkin ⟨rfl, hd⟩
  have hnext := hc.next hkin hd
  refine (Follows.modify (.refl _) ⟨rfl, rfl⟩).quiet_bind ?_
  rintro - _ - rfl
  exact .pure ⟨rfl, ⟨by rw [← hd.view]; rfl, hd.count⟩, hnext.options, hnext.function⟩

lemma beginFunction_follows (parameters : List Parameter) :
    Follows c [.ask (.beginFunction name parameters) name]
      (.ok fun _ d => Within options name seen count d)
      ((onBackend (Backend.beginFunction name parameters)).onBehalfOf name c) :=
  request_onBehalfOf hβ hc (.beginFunction name parameters) name

/-- A node is announced and gets its region. -/
lemma beginNode_follows (node : Node) :
    Follows c [.tell .beginNode node.name name, .ask (.openRegion node.id) node.name]
      (.ok fun _ d => Within options name seen count d) (beginNode node c) := by
  have hopen {d : Compiler (Recorder β)} (hd : Within options name seen count d) :
      Follows d [.ask (.openRegion node.id) node.name] _
        ((onBackend (Backend.openRegion node.id)).onBehalfOf node.name d) :=
    request_onBehalfOf hβ hd (.openRegion node.id) node.name
  refine (notify_follows hβ hc .beginNode node.name).bind ?_
  rintro - c₁ - hc₁
  refine (hopen hc₁).bind_quiet ?_
  rintro - c₂ - hc₂
  refine (Follows.modify (.refl _) ⟨rfl, rfl⟩).mono ?_
  rintro - _ - rfl
  exact ⟨⟨hc₂.view, hc₂.count⟩, hc₂.options, hc₂.function⟩

/-- A node may be merged and is done. -/
lemma endNode_follows (node : Node) (isFirst : Bool) :
    Follows c (node.closing name (options.mergeRegions && !isFirst))
      (.ok fun _ d =>
        Within options name { seen with compiled := node.id :: seen.compiled } count d)
      (endNode node isFirst c) := by
  have hfinish : Follows c [] (.ok fun _ d =>
      Within options name { seen with compiled := node.id :: seen.compiled } count d)
      (finishNode node c) := by
    refine (Follows.modify (.refl _) ⟨rfl, rfl⟩).quiet_bind ?_
    rintro - _ - rfl
    refine (Follows.modify (.refl _) ⟨rfl, rfl⟩).mono ?_
    rintro - _ - rfl
    exact ⟨⟨by rw [← hc.view]; rfl, hc.count⟩, hc.options, hc.function⟩
  refine hfinish.quiet_bind ?_
  rintro - c₁ - hc₁
  refine (mergeStep_follows hβ hc₁ node.id isFirst).bind ?_
  rintro - c₂ - hc₂
  exact notify_follows hβ hc₂ .endNode node.name

end

section

variable (hβ : Backend.Counts β) (options : Options) (name : String) (model : Model)

include hβ

/-- Parameters get their variables one after another. -/
lemma allocateAll_follows (storage : StorageClass) (ports : List OutputPort)
    (seen : Compiler Unit) (count : ℕ) :
    ∃ seen', ∀ c : Compiler (Recorder β), Within options name seen count c →
      Follows c ((ports.zipIdx count).map fun entry => .ask (.allocate ⟨entry.2⟩) entry.1.name)
        (.ok fun parameters d => parameters = ports.map (parameterOf storage) ∧
          Within options name seen' (count + ports.length) d)
        (ports.mapM (allocateParameter storage) c) := by
  induction ports generalizing seen count with
  | nil => exact ⟨seen, fun c hc => .pure ⟨rfl, hc⟩⟩
  | cons port rest ih =>
    obtain ⟨seen', hrest⟩ := ih (seen.bindPort port.id ⟨count⟩) (count + 1)
    refine ⟨seen', fun c hc => ?_⟩
    rw [List.mapM_cons, List.zipIdx_cons, List.map_cons]
    refine (allocateParameter_follows hβ hc storage port).bind ?_
    rintro _ d - ⟨rfl, hd⟩
    refine (hrest d hd).bind_quiet ?_
    rintro _ d' - ⟨rfl, hd'⟩
    refine .pure ⟨rfl, ?_⟩
    rwa [List.length_cons, Nat.add_comm rest.length, ← Nat.add_assoc]

lemma allocateParameters_follows (seen : Compiler Unit) (count : ℕ) :
    ∃ seen' count', ∀ c : Compiler (Recorder β), Within options name seen count c →
      Follows c ((model.roster.zipIdx count).map fun entry =>
          .ask (.allocate ⟨entry.2⟩) entry.1.2.name)
        (.ok fun parameters d =>
          parameters = model.roster.map (fun entry => parameterOf entry.1 entry.2) ∧
          Within options name seen' count' d)
        (allocateParameters model c) := by
  obtain ⟨seen₁, hinputs⟩ :=
    allocateAll_follows hβ options name .input model.inputPorts seen count
  obtain ⟨seen₂, houtputs⟩ := allocateAll_follows hβ options name .output model.outputPorts seen₁
    (count + model.inputPorts.length)
  refine ⟨seen₂, count + model.inputPorts.length + model.outputPorts.length, fun c hc => ?_⟩
  rw [Model.roster, List.zipIdx_append, List.map_append, List.zipIdx_map, List.zipIdx_map,
    List.map_map, List.map_map, List.length_map]
  refine (hinputs c hc).bind ?_
  rintro _ d - ⟨rfl, hd⟩
  refine (houtputs d hd).bind_quiet ?_
  rintro _ d' - ⟨rfl, hd'⟩
  refine .pure ⟨?_, hd'⟩
  rw [List.map_append, List.map_map, List.map_map]
  rfl

/-! ## Nodes -/

/-- A node goes by its script, which ends early if lowering finds something wrong. -/
lemma compileNode_follows (node : Node) (isFirst : Bool) (seen : Compiler Unit) (count : ℕ) :
    ∃ work : List Request, (∀ request ∈ work, request.OfNode) ∧
      ((∃ seen' count', ∀ c : Compiler (Recorder β), Within options name seen count c →
          Follows c (node.opening name work ++
              node.closing name (options.mergeRegions && !isFirst))
            (.ok fun _ d => Within options name seen' count' d)
            (compileNode model node isFirst c)) ∨
        ∃ e : CompileError, e.BlamesGraph ∧ ∀ c : Compiler (Recorder β),
          Within options name seen count c →
          Follows c (node.opening name work) (.error e) (compileNode model node isFirst c)) := by
  obtain ⟨work, ending, hwork, hending, hlower⟩ :=
    (scripted_congruence hβ).lower ⟨model, node⟩ seen count
  refine ⟨work, hwork, ?_⟩
  rw [compileNode_split]
  cases ending with
  | error e =>
    refine .inr ⟨e, hending e rfl, fun c hc => (beginNode_follows hβ hc node).bind ?_⟩
    rintro - d - hd
    exact ((hlower d hd.toSees).onBehalfOf (.error (hending e rfl)) node.name).bind_stopped
  | ok expected =>
    obtain ⟨_, seen', count'⟩ := expected
    refine .inl ⟨{ seen' with compiled := node.id :: seen'.compiled }, count', fun c hc =>
      (beginNode_follows hβ hc node).bind ?_⟩
    rintro - d - hd
    refine ((hlower d hd.toSees).onBehalfOf (.ok _) node.name).bind ?_
    rintro - d' hkin ⟨-, hd'⟩
    exact endNode_follows hβ (hd.next hkin hd') node isFirst

/-- What nodes lead to: they are all compiled, or lowering finds something wrong with one of them.
-/
def Ending (options : Options) (name : String) (fault : Option (ℕ × CompileError)) :
    Except CompileError (Unit → Compiler (Recorder β) → Prop) :=
  match fault with
  | none => .ok fun _ d => ∃ seen count, Within options name seen count d
  | some (_, e) => .error e

lemma compileNodes_follows (nodes : List Node) (isFirst : Bool) (seen : Compiler Unit)
    (count : ℕ) : ∃ (jobs : List (List Request)) (fault : Option (ℕ × CompileError)),
      jobs.length = nodes.length ∧ (∀ job ∈ jobs, ∀ request ∈ job, request.OfNode) ∧
      (∀ i e, fault = some (i, e) → i < nodes.length ∧ e.BlamesGraph) ∧
      ∀ c : Compiler (Recorder β), Within options name seen count c →
        Follows c (nodeScript name options.mergeRegions (fault.map Prod.fst) isFirst
          (nodes.zip jobs)) (Ending options name fault) (compileNodes model nodes isFirst c) := by
  induction nodes generalizing isFirst seen count with
  | nil => exact ⟨[], none, rfl, by simp, by simp, fun c hc => .pure ⟨seen, count, hc⟩⟩
  | cons node rest ih =>
    obtain ⟨work, hwork, ⟨seen', count', hnode⟩ | ⟨e, he, hnode⟩⟩ :=
      compileNode_follows hβ options name model node isFirst seen count
    · obtain ⟨jobs, fault, hlength, hjobs, hfault, hrest⟩ := ih false seen' count'
      have hlengths : (work :: jobs).length = (node :: rest).length := by simp [hlength]
      have hall := List.forall_mem_cons.mpr ⟨hwork, hjobs⟩
      cases fault with
      | none =>
        refine ⟨work :: jobs, none, hlengths, hall, by simp, fun c hc => ?_⟩
        rw [List.zip_cons_cons, Option.map_none, nodeScript, if_neg (by simp), ← List.append_assoc]
        exact (hnode c hc).bind fun _ d _ hd => hrest d hd
      | some fault =>
        obtain ⟨i, e⟩ := fault
        obtain ⟨hi, he⟩ := hfault i e rfl
        refine ⟨work :: jobs, some (i + 1, e), hlengths, hall, ?_, fun c hc => ?_⟩
        · rintro _ _ ⟨⟩
          exact ⟨Nat.succ_lt_succ hi, he⟩
        · rw [List.zip_cons_cons, Option.map_some, nodeScript, if_neg (by simp),
            ← List.append_assoc]
          exact (hnode c hc).bind fun _ d _ hd => hrest d hd
    · -- nothing is asked for the nodes behind this one
      refine ⟨work :: List.replicate rest.length [], some (0, e), by simp, ?_, ?_, fun c hc => ?_⟩
      · refine List.forall_mem_cons.mpr ⟨hwork, fun job hjob request hrequest => ?_⟩
        rw [List.eq_of_mem_replicate hjob] at hrequest
        exact absurd hrequest List.not_mem_nil
      · rintro _ _ ⟨⟩
        exact ⟨Nat.succ_pos _, he⟩
      · rw [List.zip_cons_cons, Option.map_some, nodeScript, if_pos rfl, List.append_nil]
        exact (hnode c hc).bind_stopped

/-! ## Models -/

lemma beginModel_follows (seen : Compiler Unit) (count : ℕ) :
    ∃ seen' count', ∀ c : Compiler (Recorder β), Within options name seen count c →
      Follows c (model.opening name count)
        (.ok fun parameters d =>
          parameters = model.roster.map (fun entry => parameterOf entry.1 entry.2) ∧
          Within options name seen' count' d)
        (beginModel model name c) := by
  obtain ⟨seen', count', hparameters⟩ :=
    allocateParameters_follows hβ options name model seen count
  refine ⟨seen', count', fun c hc => (notify_follows hβ hc .beginModel model.name).bind ?_⟩
  rintro - d - hd
  refine (hparameters d hd).bind ?_
  rintro _ d₁ - ⟨rfl, hd₁⟩
  refine (beginFunction_follows hβ hd₁ _).bind_quiet ?_
  rintro - d₂ - hd₂
  exact .pure ⟨rfl, hd₂⟩

/-- A whole compilation goes by its script. -/
lemma compileBody_follows (seen : Compiler Unit) (count : ℕ) :
    ∃ (jobs : List (List Request)) (fault : Option (ℕ × CompileError)),
      jobs.length = model.nodes.size ∧ (∀ job ∈ jobs, ∀ request ∈ job, request.OfNode) ∧
      (∀ i e, fault = some (i, e) → i < model.nodes.size ∧ e.BlamesGraph) ∧
      ∀ c : Compiler (Recorder β), Within options name seen count c →
        Follows c (model.script name options.mergeRegions count jobs (fault.map Prod.fst))
          (match fault with
            | none => .ok fun answer _ => answer = ⟨name,
                model.roster.map fun entry => parameterOf entry.1 entry.2, model.nodes.size⟩
            | some (_, e) => .error e)
          (compileBody model name c) := by
  obtain ⟨seen', count', hbegin⟩ := beginModel_follows hβ options name model seen count
  obtain ⟨jobs, fault, hlength, hjobs, hfault, hnodes⟩ :=
    compileNodes_follows hβ options name model model.nodes.toList true seen' count'
  refine ⟨jobs, fault, hlength, hjobs, hfault, fun c hc => ?_⟩
  rw [compileBody_eq, compileOpen_split, bind_assoc, Model.script, List.append_assoc]
  refine (hbegin c hc).bind ?_
  rintro _ d - ⟨rfl, hd⟩
  rw [bind_assoc]
  have hrun := hnodes d hd
  cases fault with
  | some fault =>
    rw [Option.map_some, if_pos Option.isSome_some, List.append_nil]
    exact hrun.bind_stopped
  | none =>
    rw [Option.map_none, if_neg (by simp)]
    refine hrun.bind ?_
    rintro - d₁ - ⟨seen₁, count₁, hd₁⟩
    have hend {parameters : List Parameter} : Follows d₁ [.tell .endModel model.name name]
        (.ok fun answer d => answer = parameters ∧ Within options name seen₁ count₁ d)
        ((notify .endModel model.name >>= fun _ => pure parameters) d₁) :=
      (notify_follows hβ hd₁ .endModel model.name).bind_quiet fun _ _ _ hd => .pure ⟨rfl, hd⟩
    refine hend.bind ?_
    rintro _ d₂ - ⟨rfl, hd₂⟩
    exact (request_onBehalfOf hβ hd₂ .endFunction name).bind_quiet fun _ _ _ _ => .pure rfl

end

/-- **The protocol of a compilation.**  Nodes and functions have names that are not empty.  Then the
options, the number of variables and the model determine a script: the requests of every node's
lowering, and possibly a node at which lowering finds something wrong with the graph, where the
script ends.  Whatever the backend is and does, and whichever requests and merges a recorder around
it makes fail, a compilation that succeeds has worked off the whole script, and nothing else.  One
that fails has worked it off up to its end, where it fails with what is wrong with the graph, or up
to the first request that fails, and fails with the error of this request, put down to the
parameter, node or function on whose behalf it was made.  It then discards the function, once. -/
theorem compile_protocol (hβ : Backend.Counts β)
    (hmodel : ∀ node ∈ model.nodes.toList, node.name ≠ "") (hname : name ≠ "") (options : Options)
    (count : ℕ) : ∃ (jobs : List (List Request)) (fault : Option (ℕ × CompileError)),
      jobs.length = model.nodes.size ∧ (∀ job ∈ jobs, ∀ request ∈ job, request.OfNode) ∧
      (∀ i e, fault = some (i, e) → i < model.nodes.size ∧ e.BlamesGraph) ∧
      model.script name options.mergeRegions count jobs (fault.map Prod.fst) <+:
        model.script name options.mergeRegions count jobs none ∧
      ∀ c : Compiler (Recorder β), c.options = options → c.vars.size = count →
        let script := model.script name options.mergeRegions count jobs (fault.map Prod.fst)
        (∀ answer d, compile model name c = .ok answer d →
          fault = none ∧ c.backend.Granted script d.backend ∧ answer = ⟨name,
            model.roster.map fun entry => parameterOf entry.1 entry.2, model.nodes.size⟩) ∧
        ∀ e d, compile model name c = .error e d → ∃ reached : Recorder β,
          d.backend = Backend.discardFunction reached ∧
          d.backend.asked = reached.asked ++ [.discard] ∧
          (∀ origin cause, e = .backend origin cause → origin ≠ "") ∧
          ((∃ i, fault = some (i, e) ∧ c.backend.Granted script reached) ∨
            ∃ before request origin after middle error,
              script = before ++ .ask request origin :: after ∧ c.backend.Granted before middle ∧
              middle.Refused request error reached ∧ e = error.withOrigin origin) := by
  obtain ⟨jobs, fault, hlength, hjobs, hfault, hfollows⟩ := compileBody_follows hβ options name
    model ⟨(), .fresh, ⟨false, options.checkElementTypes, false⟩, .root, []⟩ count
  refine ⟨jobs, fault, hlength, hjobs, hfault, model.script_extends .., fun c hoptions hcount => ?_⟩
  have hentered : Within options name
      ⟨(), .fresh, ⟨false, options.checkElementTypes, false⟩, .root, []⟩ count (c.enter name) :=
    ⟨⟨by rw [← hoptions]; rfl, hcount⟩, hoptions, rfl⟩
  have hrun := hfollows (c.enter name) hentered
  intro script
  cases hbody : compileBody model name (c.enter name) with
  | ok answer d =>
    have hcompile : compile model name c = .ok answer (d.leave.succeed answer) := by
      rw [compile, hbody]
    rw [hbody] at hrun
    refine ⟨fun answer' d' h => ?_, fun e d' h => ?_⟩
    · obtain ⟨rfl, rfl⟩ := EStateM.Result.ok.inj (hcompile.symm.trans h)
      cases fault with
      | none =>
        cases hrun with
        | done hgranted _ hanswer => exact ⟨rfl, hgranted, hanswer⟩
      | some fault => cases hrun
    · rw [hcompile] at h
      cases h
  | error e d =>
    have hcompile : compile model name c = .error e d.leave.abandon := by rw [compile, hbody]
    rw [hbody] at hrun
    refine ⟨fun answer d' h => ?_, fun e' d' h => ?_⟩
    · rw [hcompile] at h
      cases h
    · obtain ⟨rfl, rfl⟩ := EStateM.Result.error.inj (hcompile.symm.trans h)
      refine ⟨d.backend, rfl, Recorder.asked_record d.backend _, ?_⟩
      rcases hrun.error_cases with ⟨hending, hgranted⟩ |
        ⟨before, request, origin, after, middle, error, hscript, hgranted, hrefused, rfl⟩
      · -- the script has led to the error
        obtain ⟨i, hi⟩ : ∃ i, fault = some (i, e) := by
          cases fault with
          | none => cases hending
          | some fault =>
            cases hending
            exact ⟨fault.1, rfl⟩
        refine ⟨?_, .inl ⟨i, hi, hgranted⟩⟩
        rintro origin cause rfl
        exact (hfault i _ hi).2.elim
      · refine ⟨fun _ _ horigin => ?_, .inr ⟨before, request, origin, after, middle, error, hscript,
          hgranted, hrefused, rfl⟩⟩
        refine CompileError.origin_withOrigin ?_ horigin
        have hcue : .ask request origin ∈ model.script name options.mergeRegions count jobs
            (fault.map Prod.fst) := by
          rw [hscript]
          exact List.mem_append_right _ List.mem_cons_self
        exact Model.attributed_script hmodel hname _ _ _ _ _ hcue rfl

/-- The region of the first node is refused. -/
theorem compile_protocol_echo :
    let failing : Interference :=
      ⟨fun i => if i = 3 then some (.refusal (.stated "injected")) else none, fun _ => true⟩
    let start := fresh (Recorder.around (Assembler.fresh "m" .always 10) failing) .standard
    ∃ d, compile Model.echo "f" start = .error (.backend "x" (.stated "injected")) d ∧
      d.backend.asked.length = 7 ∧ ∃ reached : Recorder Assembler,
        d.backend = Backend.discardFunction reached ∧
        d.backend.asked = reached.asked ++ [.discard] := by
  intro failing start
  have hmodel : ∀ node ∈ Model.echo.nodes.toList, node.name ≠ "" := by decide
  have hname : "f" ≠ "" := by decide
  obtain ⟨jobs, fault, -, -, -, -, hruns⟩ :=
    compile_protocol Assembler.counts hmodel hname .standard 0
  have houtcome : (compile Model.echo "f").outcome start =
      .error (.backend "x" (.stated "injected")) := by decide +kernel
  have hlength : ((compile Model.echo "f").after start).backend.asked.length = 7 := by
    decide +kernel
  rw [outcome] at houtcome
  rw [Attempt.after] at hlength
  cases hrun : compile Model.echo "f" start with
  | ok answer d =>
    rw [hrun] at houtcome
    cases houtcome
  | error e d =>
    rw [hrun] at houtcome hlength
    cases houtcome
    obtain ⟨reached, hreached, hasked, -⟩ := (hruns start rfl rfl).2 _ _ hrun
    exact ⟨d, rfl, hlength, reached, hreached, hasked⟩

end Compiler
end Dataflow
