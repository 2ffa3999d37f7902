import Dataflow.Proofs.Compiler.Invariant
import Dataflow.Proofs.Compiler.Progress
import Dataflow.Proofs.Region.Grouping

/-!
# What merging makes of the nodes of a model

Compiling a node opens a region for it, lowers it, which adds to that region only (`Extends`), and
then asks to fold the region into the one before it.  So with every node the regions of the open
function turn from one row of groups into the next one (`compileNode_grouped`), and when the
function is finished they are the groups that the policy makes of the nodes and the instructions
emitted for them (`compile_groups`).
-/

namespace Dataflow

open Attempt

/-- The merges that have taken place, and those that were refused. -/
def Statistics.merges (stats : Statistics) : ℕ × ℕ := (stats.regionsMerged, stats.mergesRefused)

lemma Statistics.merges_mergeAttempted (stats : Statistics) (merged : Bool) :
    (stats.mergeAttempted merged).merges =
      (stats.regionsMerged + merged.toNat, stats.mergesRefused + (!merged).toNat) := by
  cases merged <;> rfl

lemma Statistics.merges_functionCompiled (stats : Statistics) (name : String) (nodes : ℕ) :
    (stats.functionCompiled name nodes).merges = stats.merges := by
  rw [functionCompiled]
  split <;> rfl

@[simp] lemma Segment.extend_nil (segment : Segment) : segment.extend [] = segment := by
  simp [extend]

@[simp] lemma Segment.extend_extend (segment : Segment) (instructions others : List Instruction) :
    (segment.extend instructions).extend others = segment.extend (instructions ++ others) := by
  simp [extend]

/-! ## The regions of an assembler -/

namespace Assembler

/-- The regions of the open function, which obey the policy of the assembler, are these segments. -/
def Segmented (a : Assembler) (segments : Segmentation) : Prop :=
  ∃ pending, a.pending = some pending ∧ pending.regions.Refines a.policy segments

variable {a b : Assembler} {segments : Segmentation}

namespace Segmented

lemma code_eq (h : a.Segmented segments) : a.code = segments.instructions := by
  obtain ⟨pending, hpending, hregions⟩ := h
  rw [code, hpending, ← hregions.segments_eq, ← RegionTable.assemble_eq]
  rfl

/-- Storage has nothing to do with regions. -/
lemma congr (h : a.Segmented segments) (hpending : b.pending = a.pending)
    (hpolicy : b.policy = a.policy) : b.Segmented segments := by
  rwa [Segmented, hpending, hpolicy]

lemma beginFunction {name : String} {parameters : List Parameter}
    (h : a.beginFunction name parameters = .ok b) : b.Segmented [] ∧ b.policy = a.policy := by
  obtain ⟨-, -, _, -, rfl⟩ := beginFunction_eq_ok.mp h
  exact ⟨⟨_, rfl, .empty _, rfl, rfl⟩, rfl⟩

/-- A region is opened for a node that has none. -/
lemma openRegion (h : a.Segmented segments) {node : NodeId} (hopen : a.openRegion node = .ok b) :
    b.Segmented (segments ++ [.single node]) ∧ node ∉ segments.nodes ∧ b.policy = a.policy := by
  obtain ⟨pending, hpending, hregions⟩ := h
  obtain ⟨other, table, hother, htable, rfl⟩ := openRegion_eq_ok.mp hopen
  obtain rfl : pending = other := Option.some.inj (hpending.symm.trans hother)
  have hrefines := RegionTable.refines_create hregions node
  rw [htable, Segmentation.create?] at hrefines
  split at hrefines
  · cases hrefines
  · next hnode =>
    cases hrefines with
    | some hrefines => exact ⟨⟨_, rfl, hrefines⟩, hnode, rfl⟩

/-- An instruction goes to the last segment. -/
lemma emit {before : Segmentation} {last : Segment} (h : a.Segmented (before ++ [last]))
    {instruction : Instruction} (hemit : a.emit instruction = .ok b) :
    b.Segmented (before ++ [last.extend [instruction]]) := by
  obtain ⟨pending, hpending, hregions⟩ := h
  obtain ⟨-, other, table, hother, htable, rfl⟩ := emit_eq_ok.mp hemit
  obtain rfl : pending = other := Option.some.inj (hpending.symm.trans hother)
  have hrefines := RegionTable.refines_emit hregions instruction
  have hideal : Segmentation.emit? (before ++ [last]) instruction =
      some (before ++ [last.extend [instruction]]) := by
    simp [Segmentation.emit?]
  rw [htable, hideal] at hrefines
  cases hrefines with
  | some hrefines => exact ⟨_, rfl, hrefines⟩

/-- The region that was opened last is found by its node, and merging it turns the segments into
those of the groups.  The answer says whether the node has joined a group. -/
lemma mergeRegion {groups : Grouping} {entry : NodeEntry} (hgroups : groups ≠ [])
    (hnode : entry.1 ∉ groups.segments.nodes)
    (h : a.Segmented (groups.segments ++ [(Group.single entry).segment])) :
    let answer := a.accept (a.mergeRegion? entry.1)
    let next := groups.absorb a.policy entry
    answer.2.Segmented next.segments ∧ answer.2.policy = a.policy ∧
      next.length = if answer.1 then groups.length else groups.length + 1 := by
  intro answer next
  obtain ⟨pending, hpending, hregions⟩ := h
  obtain ⟨region, hregion⟩ := Nat.exists_eq_add_one.mpr
    ((List.length_pos_of_ne_nil hgroups).trans_le groups.length_le_length_entries)
  have hfound : pending.regions.regionOf? entry.1 = some ⟨region + 1⟩ := by
    have hlength : groups.segments.nodes.length = region + 1 := by
      rw [Segmentation.length_nodes, Grouping.size_segments, hregion]
    rw [← hlength]
    refine RegionTable.regionOf?_last ?_ hnode
    rw [← hregions.sound.nodes_segments, hregions.segments_eq, Segmentation.nodes_append]
    rfl
  have hmerge := RegionTable.refines_mergeWithPredecessor hregions region
  rcases Grouping.merge?_segments a.policy entry hregion with
    ⟨hjoined, hlength⟩ | ⟨hrefused, hkept, hlength⟩
  · rw [hjoined] at hmerge
    cases htable : pending.regions.mergeWithPredecessor? ⟨region + 1⟩ with
    | none => rw [htable] at hmerge; cases hmerge
    | some table =>
      rw [htable] at hmerge
      cases hmerge with
      | some hmerge =>
        have hanswer : answer = (true, a.withPending { pending with regions := table }) := by
          have hnext := mergeRegion?_eq_some.mpr ⟨_, _, _, hpending, hfound, htable, rfl⟩
          exact congrArg a.accept hnext
        rw [hanswer]
        exact ⟨⟨_, rfl, hmerge⟩, rfl, hlength⟩
  · have hanswer : answer = (false, a) := by
      cases hnext : a.mergeRegion? entry.1 with
      | none => exact congrArg a.accept hnext
      | some granted =>
        obtain ⟨other, table, source, hother, hsource, htable, -⟩ := mergeRegion?_eq_some.mp hnext
        obtain rfl : pending = other := Option.some.inj (hpending.symm.trans hother)
        obtain rfl : (⟨region + 1⟩ : RegionId) = source :=
          Option.some.inj (hfound.symm.trans hsource)
        rw [hrefused, htable] at hmerge
        cases hmerge
    rw [hanswer]
    rw [hkept] at hregions
    exact ⟨⟨pending, hpending, hregions⟩, rfl, hlength⟩

end Segmented
end Assembler

/-- Negates its input twice. -/
def Model.negatedTwice : Model :=
  ⟨"twice", #[⟨⟨0⟩, "x", .input, [], .real, 1⟩,
    ⟨⟨1⟩, "once", .unary .neg, [⟨"input", ⟨[⟨⟨0⟩, 0, 1⟩]⟩⟩], .real, 1⟩,
    ⟨⟨2⟩, "twice", .unary .neg, [⟨"input", ⟨[⟨⟨1⟩, 0, 1⟩]⟩⟩], .real, 1⟩,
    ⟨⟨3⟩, "y", .output, [⟨"input", ⟨[⟨⟨2⟩, 0, 1⟩]⟩⟩], .real, 1⟩]⟩

namespace Compiler

/-! ## Lowering a node -/

/-- Instructions have been added to the region that was opened last.  No other region, nor what
decides about merges, nor their counts have changed. -/
structure Extends (c : Compiler Assembler) (code : List Instruction) (d : Compiler Assembler) :
    Prop where
  segmented : ∀ before last, c.backend.Segmented (before ++ [last]) →
    d.backend.Segmented (before ++ [last.extend code])
  policy : d.backend.policy = c.backend.policy
  options : d.options = c.options
  merges : d.session.statistics.merges = c.session.statistics.merges

namespace Extends

variable {c d e : Compiler Assembler} {code code' : List Instruction}

lemma trans (h : Extends c code d) (h' : Extends d code' e) : Extends c (code ++ code') e where
  segmented before last hsegmented := by
    have hboth := h'.segmented before _ (h.segmented before last hsegmented)
    rwa [Segment.extend_extend] at hboth
  policy := h'.policy.trans h.policy
  options := h'.options.trans h.options
  merges := h'.merges.trans h.merges

/-- Nothing has been added as long as the open function stays as it is. -/
lemma nothing (hpending : d.backend.pending = c.backend.pending)
    (hpolicy : d.backend.policy = c.backend.policy) (hoptions : d.options = c.options)
    (hmerges : d.session.statistics.merges = c.session.statistics.merges) : Extends c [] d where
  segmented before last h := by
    rw [Segment.extend_nil]
    exact h.congr hpending hpolicy
  policy := hpolicy
  options := hoptions
  merges := hmerges

lemma refl (c : Compiler Assembler) : Extends c [] c := nothing rfl rfl rfl rfl

end Extends

/-- An attempt that does no more than to add instructions to the region that was opened last. -/
def Adds {α : Type} (x : Attempt (Compiler Assembler) α) : Prop :=
  ∀ ⦃c a d⦄, x c = .ok a d → ∃ code, Extends c code d

namespace Adds

variable {α γ : Type}

lemma pure (a : α) : Adds (Pure.pure a) := by
  intro c a d h
  obtain ⟨-, rfl⟩ := EStateM.Result.ok.inj h
  exact ⟨[], .refl _⟩

lemma ofExcept (x : Except CompileError α) : Adds (MonadExcept.ofExcept x) := by
  intro c a d h
  obtain ⟨-, rfl⟩ := ofExcept_eq_ok.mp h
  exact ⟨[], .refl _⟩

lemma bind {x : Attempt (Compiler Assembler) α} {f : α → Attempt (Compiler Assembler) γ}
    (hx : Adds x) (hf : ∀ a, Adds (f a)) : Adds (x >>= f) := by
  intro c b e h
  obtain ⟨a, d, hrun, hrest⟩ := bind_eq_ok.mp h
  obtain ⟨code, hcode⟩ := hx hrun
  obtain ⟨code', hcode'⟩ := hf a hrest
  exact ⟨_, hcode.trans hcode'⟩

lemma get : Adds (MonadState.get : Attempt (Compiler Assembler) (Compiler Assembler)) := by
  intro c a d h
  obtain ⟨-, rfl⟩ := EStateM.Result.ok.inj h
  exact ⟨[], .refl _⟩

lemma onBehalfOf (name : String) {x : Attempt (Compiler Assembler) α} (hx : Adds x) :
    Adds (x.onBehalfOf name) := fun _ _ _ h => hx (onBehalfOf_eq_ok.mp h)

/-- The state may be changed where it has nothing to do with regions. -/
lemma modify {change : Compiler Assembler → Compiler Assembler}
    (h : ∀ c, Extends c [] (change c)) : Adds (modify change) := by
  intro c a d hrun
  obtain ⟨-, rfl⟩ := EStateM.Result.ok.inj hrun
  exact ⟨[], h c⟩

lemma allocate (spec : VariableSpec) : Adds (allocate spec) := by
  intro c var d h
  obtain ⟨backend, hnext, -, rfl⟩ := allocate_eq_ok.mp h
  obtain ⟨-, -, -, -, rfl⟩ := Assembler.allocate_eq_ok.mp hnext
  exact ⟨[], .nothing rfl rfl rfl rfl⟩

lemma emit (instruction : Instruction) : Adds (emit instruction) := by
  intro c a d h
  obtain ⟨backend, hbackend, rfl⟩ := emit_eq_ok.mp h
  refine ⟨[instruction], fun before last hsegmented => hsegmented.emit hbackend, ?_, rfl, rfl⟩
  obtain ⟨pending, rfl⟩ := Assembler.emit_frame hbackend
  rfl

/-- Lowering is made of such attempts. -/
lemma congruence : LowerCongruence id fun α _ x (_ : Attempt (Compiler Assembler) α) => Adds x where
  pure := pure
  ofExcept _ := ofExcept _
  bind := bind
  look hf := bind get fun seen => hf seen.scene
  elementType _ _ := bind get fun _ => ofExcept _
  checkOperands _ := bind get fun _ => ofExcept _
  allocate spec _ := allocate spec
  bindPort _ _ := modify fun _ => .nothing rfl rfl rfl rfl
  emit := emit

lemma allocateParameters (model : Model) : Adds (allocateParameters model) := by
  have hparameter : ∀ storage port, Adds (allocateParameter storage port) := fun storage port =>
    bind (onBehalfOf _ (allocate _)) fun _ =>
      bind (modify fun _ => .nothing rfl rfl rfl rfl) fun _ => pure _
  exact bind (congruence.mapM (g := allocateParameter .input) (hparameter .input) _) fun _ =>
    bind (congruence.mapM (g := allocateParameter .output) (hparameter .output) _) fun _ => pure _

end Adds

/-! ## Compiling a model -/

/-- The compiler compiles nodes one after another, and each adds some instructions.  The flag says
whether the first of them is the first node of the model. -/
inductive Emits (model : Model) :
    Bool → Compiler Assembler → List Node → List NodeEntry → Compiler Assembler → Prop
  /-- Nothing is left to compile. -/
  | nil {isFirst : Bool} {c : Compiler Assembler} : Emits model isFirst c [] [] c
  /-- A node is compiled, and then the others. -/
  | cons {isFirst : Bool} {c d e : Compiler Assembler} {node : Node} {rest : List Node}
    {code : List Instruction} {entries : List NodeEntry} :
    compileNode model node isFirst c = .ok () d → d.backend.code = c.backend.code ++ code →
    Emits model false d rest entries e →
    Emits model isFirst c (node :: rest) ((node.id, code) :: entries) e

/-- From one compiler to another, nodes have been compiled that the policy has made part of the
groups. -/
structure Proceeds (groups : Grouping) (c : Compiler Assembler) (entries : List NodeEntry)
    (next : Grouping) (d : Compiler Assembler) : Prop where
  grouped : next = groups.absorbAll c.backend.policy entries
  segmented : d.backend.Segmented next.segments
  policy : d.backend.policy = c.backend.policy
  options : d.options = c.options
  /-- A node that has not joined a group has begun one. -/
  merged : d.session.statistics.regionsMerged + next.length =
    c.session.statistics.regionsMerged + groups.length + entries.length
  /-- Every group but the first one has begun with a merge that was refused. -/
  refused : d.session.statistics.mergesRefused + (groups.length - 1) =
    c.session.statistics.mergesRefused + (next.length - 1)

namespace Proceeds

variable {groups next last : Grouping} {c d e : Compiler Assembler}
variable {entries entries' : List NodeEntry}

lemma refl (h : c.backend.Segmented groups.segments) : Proceeds groups c [] groups c :=
  ⟨rfl, h, rfl, rfl, rfl, rfl⟩

lemma trans (h : Proceeds groups c entries next d) (h' : Proceeds next d entries' last e) :
    Proceeds groups c (entries ++ entries') last e where
  grouped := by
    rw [h'.grouped, h.grouped, h.policy, Grouping.absorbAll, Grouping.absorbAll,
      Grouping.absorbAll, List.foldl_append]
  segmented := h'.segmented
  policy := h'.policy.trans h.policy
  options := h'.options.trans h.options
  merged := by
    have hmerged := h.merged
    have hmerged' := h'.merged
    rw [List.length_append]
    omega
  refused := by
    have hrefused := h.refused
    have hrefused' := h'.refused
    omega

end Proceeds

variable {model : Model} {name : String} {node : Node} {groups : Grouping}
variable {c d : Compiler Assembler}

lemma beginModel_grouped {parameters : List Parameter}
    (h : beginModel model name c = .ok parameters d) :
    d.backend.Segmented [] ∧ d.backend.policy = c.backend.policy ∧ d.options = c.options ∧
      d.session.statistics.merges = c.session.statistics.merges := by
  obtain ⟨_, c₁, hnotify, h₁⟩ := bind_eq_ok.mp h
  obtain ⟨_, c₂, hallocate, h₂⟩ := bind_eq_ok.mp h₁
  obtain ⟨_, c₃, hbegin, h₃⟩ := bind_eq_ok.mp h₂
  obtain ⟨-, rfl⟩ := EStateM.Result.ok.inj hnotify
  obtain ⟨-, rfl⟩ := EStateM.Result.ok.inj h₃
  obtain ⟨code, hextends⟩ := Adds.allocateParameters model hallocate
  obtain ⟨backend, hbackend, rfl⟩ := onBackend_change_eq_ok.mp (onBehalfOf_eq_ok.mp hbegin)
  obtain ⟨hsegmented, hpolicy⟩ := Assembler.Segmented.beginFunction hbackend
  exact ⟨hsegmented, hpolicy.trans hextends.policy, hextends.options, hextends.merges⟩

/-- A region is opened for a node that has none. -/
lemma beginNode_grouped (hc : c.backend.Segmented groups.segments)
    (h : beginNode node c = .ok () d) :
    d.backend.Segmented (groups.segments ++ [.single node.id]) ∧
      node.id ∉ groups.segments.nodes ∧ d.backend.policy = c.backend.policy ∧
      d.options = c.options ∧ d.session.statistics.merges = c.session.statistics.merges := by
  obtain ⟨_, c₁, hnotify, h₁⟩ := bind_eq_ok.mp h
  obtain ⟨_, c₂, hopen, hcount⟩ := bind_eq_ok.mp h₁
  obtain ⟨-, rfl⟩ := EStateM.Result.ok.inj hnotify
  obtain ⟨backend, hbackend, rfl⟩ := onBackend_change_eq_ok.mp (onBehalfOf_eq_ok.mp hopen)
  obtain ⟨-, rfl⟩ := EStateM.Result.ok.inj hcount
  obtain ⟨hsegmented, hnode, hpolicy⟩ := hc.openRegion hbackend
  exact ⟨hsegmented, hnode, hpolicy, rfl, rfl⟩

/-- After the first node nothing happens to the regions. -/
lemma endNode_first (h : endNode node true c = .ok () d) :
    d.backend = c.backend ∧ d.options = c.options ∧
      d.session.statistics.merges = c.session.statistics.merges := by
  obtain ⟨_, c₁, hfinish, h₁⟩ := bind_eq_ok.mp h
  obtain ⟨_, c₂, hmerge, hnotify⟩ := bind_eq_ok.mp h₁
  obtain ⟨_, _, hmodify, hcount⟩ := bind_eq_ok.mp hfinish
  obtain ⟨-, rfl⟩ := EStateM.Result.ok.inj hmodify
  obtain ⟨-, rfl⟩ := EStateM.Result.ok.inj hcount
  rw [mergeStep_run, Bool.not_true, Bool.and_false, if_neg Bool.false_ne_true] at hmerge
  obtain ⟨-, rfl⟩ := EStateM.Result.ok.inj hmerge
  obtain ⟨-, rfl⟩ := EStateM.Result.ok.inj hnotify
  exact ⟨rfl, rfl, rfl⟩

/-- After any other node a merge is asked for and counted. -/
lemma endNode_next (hmergeRegions : c.options.mergeRegions = true)
    (h : endNode node false c = .ok () d) :
    let answer := c.backend.accept (c.backend.mergeRegion? node.id)
    d.backend = answer.2 ∧ d.options = c.options ∧
      d.session.statistics.merges = (c.session.statistics.regionsMerged + answer.1.toNat,
        c.session.statistics.mergesRefused + (!answer.1).toNat) := by
  intro answer
  obtain ⟨_, c₁, hfinish, h₁⟩ := bind_eq_ok.mp h
  obtain ⟨_, c₂, hmerge, hnotify⟩ := bind_eq_ok.mp h₁
  obtain ⟨_, _, hmodify, hcount⟩ := bind_eq_ok.mp hfinish
  obtain ⟨-, rfl⟩ := EStateM.Result.ok.inj hmodify
  obtain ⟨-, rfl⟩ := EStateM.Result.ok.inj hcount
  rw [mergeStep_run, if_pos (by simpa using hmergeRegions)] at hmerge
  obtain ⟨-, rfl⟩ := EStateM.Result.ok.inj hmerge
  obtain ⟨-, rfl⟩ := EStateM.Result.ok.inj hnotify
  exact ⟨rfl, rfl, Statistics.merges_mergeAttempted _ _⟩

/-- Compiling a node makes it and its instructions part of the groups. -/
lemma compileNode_grouped {isFirst : Bool} (hfirst : isFirst = true ↔ groups = [])
    (hmergeRegions : c.options.mergeRegions = true) (hc : c.backend.Segmented groups.segments)
    (h : compileNode model node isFirst c = .ok () d) :
    ∃ code next, d.backend.code = c.backend.code ++ code ∧
      Proceeds groups c [(node.id, code)] next d := by
  rw [compileNode_split] at h
  obtain ⟨_, c₁, hbegin, h₁⟩ := bind_eq_ok.mp h
  obtain ⟨_, c₂, hlower, hend⟩ := bind_eq_ok.mp h₁
  obtain ⟨hopened, hnode, hpolicy, hoptions, hmerges⟩ := beginNode_grouped hc hbegin
  obtain ⟨code, hextends⟩ := Adds.congruence.lower _ (onBehalfOf_eq_ok.mp hlower)
  have hfilled := hextends.segmented _ _ hopened
  rw [← Group.segment_single (node.id, code)] at hfilled
  have hpolicy₂ := hextends.policy.trans hpolicy
  have hoptions₂ := hextends.options.trans hoptions
  obtain ⟨hmerged, hrefused⟩ := Prod.mk.inj (hextends.merges.trans hmerges)
  cases isFirst with
  | true =>
    obtain rfl := hfirst.mp rfl
    obtain ⟨hbackend, hoptions₃, hmerges₃⟩ := endNode_first hend
    obtain ⟨hmerged₃, hrefused₃⟩ := Prod.mk.inj hmerges₃
    rw [← hbackend] at hfilled hpolicy₂
    refine ⟨code, _, ?_, rfl, hfilled, hpolicy₂, hoptions₃.trans hoptions₂, ?_, ?_⟩
    · rw [hfilled.code_eq, hc.code_eq]
      simp [Segmentation.instructions, Grouping.segments, Group.instructions]
    · rw [hmerged₃, hmerged]
      rfl
    · rw [hrefused₃, hrefused]
      rfl
  | false =>
    have hgroups : groups ≠ [] := fun hnil => Bool.false_ne_true (hfirst.mpr hnil)
    have hpos := List.length_pos_of_ne_nil hgroups
    obtain ⟨hbackend, hoptions₃, hmerges₃⟩ :=
      endNode_next ((congrArg Options.mergeRegions hoptions₂).trans hmergeRegions) hend
    obtain ⟨hmerged₃, hrefused₃⟩ := Prod.mk.inj hmerges₃
    obtain ⟨hsegmented, hpolicy₃, hlength⟩ := hfilled.mergeRegion hgroups hnode
    rw [← hbackend] at hsegmented hpolicy₃
    rw [hpolicy₂] at hsegmented hlength
    refine ⟨code, _, ?_, rfl, hsegmented, hpolicy₃.trans hpolicy₂, hoptions₃.trans hoptions₂,
      ?_, ?_⟩
    · rw [hsegmented.code_eq, hc.code_eq, Grouping.instructions_segments,
        Grouping.instructions_segments, Grouping.entries_absorb, List.flatMap_append]
      simp
    · rw [Grouping.absorbAll, List.foldl_cons, List.foldl_nil, hlength, hmerged₃, hmerged]
      cases (c₂.backend.accept (c₂.backend.mergeRegion? node.id)).1
      · rfl
      · exact Nat.add_right_comm _ 1 _
    · rw [Grouping.absorbAll, List.foldl_cons, List.foldl_nil, hlength, hrefused₃, hrefused]
      cases (c₂.backend.accept (c₂.backend.mergeRegion? node.id)).1
      · simp only [Bool.not_false, Bool.toNat_true, Bool.false_eq_true, if_false]
        omega
      · rfl

/-- Compiling nodes makes them part of the groups, one after another. -/
lemma compileNodes_grouped {nodes : List Node} {isFirst : Bool}
    (hfirst : isFirst = true ↔ groups = []) (hmergeRegions : c.options.mergeRegions = true)
    (hc : c.backend.Segmented groups.segments)
    (h : compileNodes model nodes isFirst c = .ok () d) :
    ∃ entries next, Emits model isFirst c nodes entries d ∧ Proceeds groups c entries next d := by
  induction nodes generalizing groups c isFirst with
  | nil =>
    obtain ⟨-, rfl⟩ := EStateM.Result.ok.inj h
    exact ⟨[], groups, .nil, .refl hc⟩
  | cons node rest ih =>
    obtain ⟨_, c', hnode, hrest⟩ := bind_eq_ok.mp h
    obtain ⟨code, groups', hcode, hstep⟩ := compileNode_grouped hfirst hmergeRegions hc hnode
    have hne : groups' ≠ [] := by
      intro hnil
      have hentries := congrArg Grouping.entries hstep.grouped
      rw [hnil, Grouping.entries_absorbAll] at hentries
      simp [Grouping.entries] at hentries
    obtain ⟨entries, next, hemits, hsteps⟩ := ih (iff_of_false Bool.false_ne_true hne)
      ((congrArg Options.mergeRegions hstep.options).trans hmergeRegions) hstep.segmented hrest
    exact ⟨_, next, .cons hnode hcode hemits, hstep.trans hsteps⟩

lemma Emits.length_eq {isFirst : Bool} {nodes : List Node} {entries : List NodeEntry}
    (h : Emits model isFirst c nodes entries d) : entries.length = nodes.length := by
  induction h with
  | nil => rfl
  | cons _ _ _ ih => rw [List.length_cons, List.length_cons, ih]

/-- Compiling a model begins a function without groups and makes groups of all nodes. -/
lemma compileOpen_grouped {parameters : List Parameter}
    (hmergeRegions : c.options.mergeRegions = true)
    (h : compileOpen model name c = .ok parameters d) :
    ∃ begun entries groups, beginModel model name c = .ok parameters begun ∧
      Emits model true begun model.nodes.toList entries d ∧ Proceeds [] c entries groups d := by
  obtain ⟨begun, hbegin, hnodes⟩ := compileOpen_eq_ok h
  obtain ⟨hsegmented, hpolicy, hoptions, hmerges⟩ := beginModel_grouped hbegin
  obtain ⟨hmerged, hrefused⟩ := Prod.mk.inj hmerges
  obtain ⟨entries, groups, hemits, hall⟩ := compileNodes_grouped
    (iff_of_true rfl (rfl : ([] : Grouping) = []))
    ((congrArg Options.mergeRegions hoptions).trans hmergeRegions) hsegmented hnodes
  refine ⟨begun, entries, groups, hbegin, hemits, ?_⟩
  exact ⟨by rw [hall.grouped, hpolicy], hall.segmented, hall.policy.trans hpolicy,
    hall.options.trans hoptions, by rw [← hmerged]; exact hall.merged,
    by rw [← hrefused]; exact hall.refused⟩

/-- The finished functions stay as they are while a model is compiled. -/
lemma functions_preserved (functions : List Function) :
    Assembler.Preserved fun a => a.program.functions = functions :=
  .of_frame (fun _ h => h) (fun _ h => h) fun h hnext => by
    obtain ⟨-, -, -, -, rfl⟩ := Assembler.allocate_eq_ok.mp hnext
    exact h

/-- **What a merge policy yields.**  If a compilation with merges succeeds, the regions that stand
alone when the function is finished cut the nodes of the model, each with the instructions that were
emitted for it, into consecutive groups.  Under a limit, groups of several nodes keep to it and no
group has room for the first node of the next one; if merges are always allowed there is one group,
and if never, every node is one.  As many merges are counted as nodes have joined groups, and as
many refusals as there are other groups than the first one. -/
theorem compile_groups {function : CompiledFunction} (hmergeRegions : c.options.mergeRegions = true)
    (h : compile model name c = .ok function d) :
    ∃ (parameters : List Parameter) (begun opened : Compiler Assembler)
      (pending : PendingFunction) (groups : Grouping),
      beginModel model name (c.enter name) = .ok parameters begun ∧
      Emits model true begun model.nodes.toList groups.entries opened ∧
      opened.backend.pending = some pending ∧
      d.backend.program.functions = c.backend.program.functions ++ [pending.finish] ∧
      pending.regions.standalone.map (fun region => (region.node, region.instructions)) =
        groups.map (fun group => (group.first.1, group.instructions)) ∧
      (∀ limit, c.backend.policy = .atMost limit → groups.Greedy limit) ∧
      (c.backend.policy = .always → model.nodes.size ≠ 0 → groups.length = 1) ∧
      (c.backend.policy = .never → groups.length = model.nodes.size) ∧
      d.session.statistics.regionsMerged =
        c.session.statistics.regionsMerged + (model.nodes.size - groups.length) ∧
      d.session.statistics.mergesRefused =
        c.session.statistics.mergesRefused + (groups.length - 1) := by
  obtain ⟨parameters, opened, backend, hopen, hend, rfl, rfl⟩ := compile_eq_ok h
  have hfunctions := (compileOpen_upholds (functions_preserved c.backend.program.functions) rfl
    model name).backend
  rw [Attempt.after, hopen] at hfunctions
  obtain ⟨begun, entries, groups, hbegin, hemits, hall⟩ :=
    compileOpen_grouped (c := c.enter name) hmergeRegions hopen
  obtain ⟨pending, hpending, hregions⟩ := hall.segmented
  obtain ⟨other, hother, rfl⟩ := Assembler.endFunction_eq_ok.mp hend
  obtain rfl : pending = other := Option.some.inj (hpending.symm.trans hother)
  have hgrouped : groups = Grouping.absorbAll c.backend.policy entries [] := hall.grouped
  have hentries : groups.entries = entries := by
    rw [hgrouped, Grouping.entries_absorbAll]
    rfl
  have hlength : entries.length = model.nodes.size := by
    rw [hemits.length_eq, Array.length_toList]
  have hle : groups.length ≤ model.nodes.size := by
    rw [← hlength, ← hentries]
    exact groups.length_le_length_entries
  obtain ⟨hmerged, hrefused⟩ := Prod.mk.inj (opened.session.statistics.merges_functionCompiled name
    model.nodes.size)
  refine ⟨_, begun, opened, pending, groups, hbegin, hentries ▸ hemits, hpending,
    congrArg (· ++ [pending.finish]) hfunctions, ?_, fun limit hlimit => ?_,
    fun halways hne => ?_, fun hnever => ?_, hmerged.trans ?_, hrefused.trans ?_⟩
  · rw [RegionTable.standalone_eq, hregions.segments_eq, Grouping.segments, List.map_map]
    rfl
  · rw [hgrouped, hlimit]
    exact (Grouping.Greedy.nil limit).absorbAll entries
  · rw [hgrouped, halways]
    refine Grouping.length_absorbAll_always (Nat.zero_le _) fun hnil => hne ?_
    rw [← hlength, hnil]
    rfl
  · rw [hgrouped, hnever, Grouping.length_absorbAll_never, List.length_nil, hlength, Nat.zero_add]
  · have hcount : opened.session.statistics.regionsMerged + groups.length =
        c.session.statistics.regionsMerged + 0 + entries.length := hall.merged
    omega
  · have hcount : opened.session.statistics.mergesRefused + 0 =
        c.session.statistics.mergesRefused + (groups.length - 1) := hall.refused
    exact hcount

/-- With room for two instructions, the last of four nodes begins a second group. -/
theorem compile_groups_negatedTwice : ∃ answer last,
    compile Model.negatedTwice "f" (fresh (Assembler.fresh "m" (.atMost 2) 10) .standard) =
      .ok answer last ∧
    ∃ (pending : PendingFunction) (groups : Grouping),
      last.backend.program.functions = [pending.finish] ∧
      pending.regions.standalone.map (fun region => (region.node, region.instructions)) =
        groups.map (fun group => (group.first.1, group.instructions)) ∧
      groups.length = 2 ∧ groups.Greedy 2 := by
  have hcompile : (compile Model.negatedTwice "f").succeeds
      (fresh (Assembler.fresh "m" (.atMost 2) 10) .standard)
      (fun _ last => last.session.statistics.mergesRefused == 1) = true := by
    decide +kernel
  obtain ⟨answer, last, h, htest⟩ := Attempt.exists_of_succeeds hcompile
  obtain ⟨-, -, -, pending, groups, -, -, -, hfunctions, hregions, hgreedy, -, -, -, hrefused⟩ :=
    compile_groups rfl h
  refine ⟨answer, last, h, pending, groups, hfunctions, hregions, ?_, hgreedy 2 rfl⟩
  have hone : (1 : ℕ) = 0 + (groups.length - 1) := (beq_iff_eq.mp htest).symm.trans hrefused
  omega

end Compiler
end Dataflow
