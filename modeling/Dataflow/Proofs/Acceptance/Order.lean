import Dataflow.Proofs.Acceptance
import Dataflow.Proofs.Compiler.History
import Dataflow.Proofs.Failure

/-!
# Producers before consumers

A compiled model reads every port after the node that computes it, with one exception: an output may
read itself, since its parameter is bound from the start and the port of the node that is being
compiled is not looked for among the finished ones.  Any other node that reads its own port or a
later one is refused, with the error that names the first such port if nothing is wrong before
(`Compiler.compile_ordered`).
-/

namespace Dataflow

open Attempt

lemma Except.mapM_eq_error {ε α γ : Type} {f : α → Except ε γ} {before after : List α} {a : α}
    {e : ε} (hbefore : ∀ b ∈ before, ∃ c, f b = .ok c) (h : f a = .error e) :
    (before ++ a :: after).mapM f = .error e := by
  induction before with
  | nil =>
    rw [List.nil_append, List.mapM_cons, h]
    rfl
  | cons b rest ih =>
    obtain ⟨⟨c, hb⟩, hrest⟩ := List.forall_mem_cons.mp hbefore
    rw [List.cons_append, List.mapM_cons, hb]
    show ((rest ++ a :: after).mapM f >>= _) = _
    rw [ih hrest]
    rfl

/-! ## The node that reads too early -/

/-- The first range of a node with which something is wrong, where what is wrong is that the node
may not read its port. -/
structure Node.ReadsEarly (model : Model) (strict : Bool) (node : Node) (range : PortRange) :
    Prop where
  first : ∃ before after, node.ranges = before ++ range :: after ∧
    ∀ other ∈ before, model.Covers other ∧ node.MayRead other.port
  covered : model.Covers range
  early : ¬ node.MayRead range.port
  types : strict = true → model.TypesFit node

namespace Site

open Compiler

variable {site : Site} {range : PortRange} {index count : ℕ} {c d : Compiler Assembler}
variable {port : OutputPort}

section

variable (hmodel : site.model.Readable) (hc : Ready site.model count c)
variable (hnode : site.model.nodes[count]? = some site.node)
variable (hport : site.model.port? range.port = some port)

include hmodel hc hnode hport

omit hport in
/-- A range is resolved exactly if it ends within its port and the node may read that port. -/
lemma resolve_iff_covers (hrange : range ∈ site.node.ranges) :
    (∃ slice, site.resolve c range = .ok slice) ↔
      site.model.Covers range ∧ site.node.MayRead range.port := by
  have hreadable := (hmodel.nodes _ (Model.mem_nodes hnode)).ranges range hrange
  rw [resolve_iff hmodel.arranged hc hnode hrange, hreadable.offers_iff]

/-- A range that a node may not read is unbound. -/
lemma resolve_unbound (hrange : range ∈ site.node.ranges) (hcovers : site.model.Covers range)
    (hearly : ¬ site.node.MayRead range.port) :
    site.resolve c range = .error (.unboundReference site.node.name port.id port.name) := by
  have hnever : ∀ slice, site.resolve c range ≠ .ok slice := fun slice hslice =>
    hearly ((resolve_iff_covers hmodel hc hnode hrange).mp ⟨slice, hslice⟩).2
  have hreadable := (hmodel.nodes _ (Model.mem_nodes hnode)).ranges range hrange
  have hbounds : ¬ (range.length = 0 ∨ port.size < range.stop) := by
    obtain ⟨port', hport', hle⟩ := hcovers
    obtain rfl : port = port' := Option.some.inj (hport.symm.trans hport')
    rw [hreadable.stop_eq]
    exact not_or.mpr ⟨hreadable.nonempty, not_lt.mpr hle⟩
  have hrun : site.resolve c range = (do
      if port.node ≠ site.node.id ∧ !c.isCompiled port.node then site.unbound port
      (c.variableOf? range.port).elim (site.unbound port) fun var =>
        return ⟨var, range.start, range.length⟩) := by
    rw [resolve, portOf_of_some hport]
    show (if range.length = 0 ∨ port.size < range.stop then _ else _) = _
    refine (if_neg hbounds).trans ?_
    cases c.variableOf? range.port <;> rfl
  rw [hrun] at hnever ⊢
  by_cases hdone : port.node ≠ site.node.id ∧ !c.isCompiled port.node
  · exact if_pos hdone
  · rw [if_neg hdone] at hnever ⊢
    cases hvar : c.variableOf? range.port with
    | some var =>
      rw [hvar] at hnever
      exact absurd rfl (hnever _)
    | none => rfl

lemma inputSlices_unbound {before after : List PortRange}
    (hoperand : site.node.operand index = before ++ range :: after)
    (hbefore : ∀ other ∈ before, site.model.Covers other ∧ site.node.MayRead other.port)
    (hcovers : site.model.Covers range) (hearly : ¬ site.node.MayRead range.port) :
    site.inputSlices index c =
      .error (.unboundReference site.node.name port.id port.name) c := by
  have hmem : ∀ other ∈ before ++ range :: after, other ∈ site.node.ranges := fun other h =>
    Node.mem_ranges (hoperand ▸ h)
  have hrange : range ∈ site.node.ranges := hmem _ (by simp)
  have hfail : (before ++ range :: after).mapM (site.resolve c) =
      .error (.unboundReference site.node.name port.id port.name) := Except.mapM_eq_error
    (fun other hother => (resolve_iff_covers hmodel hc hnode (hmem other (by simp [hother]))).mpr
      (hbefore other hother))
    (resolve_unbound hmodel hc hnode hport hrange hcovers hearly)
  obtain ⟨first, rest, hcons⟩ := List.exists_cons_of_ne_nil
    (l := before ++ range :: after) (by simp)
  rw [hcons] at hfail hoperand
  have hrun : (site.inputRanges index >>= fun ranges =>
      (ranges.1 :: ranges.2).mapM (site.resolve c)) =
      .error (.unboundReference site.node.name port.id port.name) := by
    rw [inputRanges_of_operand hoperand]
    exact hfail
  rw [inputSlices, bind_run, get_run]
  exact (ofExcept_run _ c).trans (by rw [hrun])

end

section

variable {before after : List PortRange}
variable (hmodel : site.model.Readable) (hc : Ready site.model count c) (hregion : c.HasRegion)
variable (hnode : site.model.nodes[count]? = some site.node)
variable (hport : site.model.port? range.port = some port)
variable (hearly : site.node.ReadsEarly site.model c.options.checkElementTypes range)

include hmodel hc hnode hport hearly

/-- The only input port of a node is resolved at once or after its types are checked. -/
lemma inputSlices_early {name : String} (hkind : site.node.kind.inputNames = [name]) :
    site.inputSlices 0 c = .error (.unboundReference site.node.name port.id port.name) c ∧
      site.checkInput 0 c = .ok () c := by
  have hreadable := hmodel.nodes _ (Model.mem_nodes hnode)
  obtain ⟨hoperand, hne⟩ := hreadable.operand_zero hkind
  obtain ⟨before, after, hranges, hbefore⟩ := hearly.first
  refine ⟨inputSlices_unbound hmodel hc hnode hport (hoperand.trans hranges) hbefore hearly.covered
    hearly.early, ?_⟩
  obtain ⟨_, d, hrun, rfl⟩ := (checkInput_exact hmodel.arranged hnode 0).run ⟨hoperand ▸ hne,
    fun hstrict => (Model.typesFit_iff_single hreadable.arranged hkind).mp (hearly.types hstrict)⟩
  exact hrun

omit hport hearly in
include hregion in
/-- An operand of a single range can be prepared if the range can be read. -/
lemma inputContiguous_single {other : PortRange} (hoperand : site.node.operand index = [other])
    (hread : site.model.Covers other ∧ site.node.MayRead other.port) :
    ∃ slice d, site.inputContiguous index c = .ok slice d ∧ Ready site.model count d := by
  have hmem : other ∈ site.node.ranges := Node.mem_ranges (hoperand ▸ List.mem_cons_self)
  have hreadable := (hmodel.nodes _ (Model.mem_nodes hnode)).ranges other hmem
  have hcondition : site.model.CanRead site.node (site.node.operand index) := by
    rw [hoperand]
    exact ⟨List.cons_ne_nil other [],
      List.forall_mem_singleton.mpr (hread.imp_left hreadable.offers_iff.mpr)⟩
  obtain ⟨slice, d, hrun, ⟨code, hstep⟩, hspends, -⟩ :=
    (inputContiguous_exact hmodel.arranged hc hregion hnode index).run ⟨hcondition,
      fun _ => hoperand ▸ Model.oneType_singleton _ _, hoperand ▸ hc.within,
      fun hmany => absurd (congrArg List.length hoperand) hmany⟩
  rw [hoperand] at hspends
  exact ⟨slice, d, hrun, hc.step hstep (hspends.within hc.within)⟩

include hregion

/-- Of two operands the first one may be prepared before the second one fails. -/
lemma operands_early {name name' : String} (hkind : site.node.kind.inputNames = [name, name'])
    (rest : Slice → Slice → Attempt (Compiler Assembler) Unit) :
    ∃ d, (do
        site.checkOperands
        let lhs ← site.inputContiguous 0
        let rhs ← site.inputContiguous 1
        rest lhs rhs : Attempt (Compiler Assembler) Unit) c =
      .error (.unboundReference site.node.name port.id port.name) d := by
  have hreadable := hmodel.nodes _ (Model.mem_nodes hnode)
  obtain ⟨lhs, rhs, hpair, hlhs, hrhs⟩ := hreadable.operand_pair hkind
  obtain ⟨before, after, hranges, hbefore⟩ := hearly.first
  obtain ⟨_, d, hcheck, rfl⟩ := (checkOperands_exact (c := c) hmodel.arranged hnode).run
    ⟨⟨hlhs ▸ List.cons_ne_nil _ _, hrhs ▸ List.cons_ne_nil _ _⟩,
      fun hstrict => (Model.typesFit_iff_pair hreadable.arranged hkind).mp (hearly.types hstrict)⟩
  rw [hpair] at hranges
  cases before with
  | nil =>
    obtain ⟨rfl, -⟩ := List.cons_eq_cons.mp hranges
    have hlhs' : site.node.operand 0 = [] ++ [lhs] := hlhs
    have herror := inputSlices_unbound hmodel hc hnode hport hlhs'
      (fun _ h => absurd h List.not_mem_nil) hearly.covered hearly.early
    exact ⟨d, bind_eq_error.mpr (.inr ⟨(), d, hcheck, bind_eq_error.mpr (.inl
      (bind_eq_error.mpr (.inl herror)))⟩)⟩
  | cons first others =>
    obtain ⟨rfl, hothers⟩ := List.cons_eq_cons.mp hranges
    obtain rfl : others = [] := by
      cases others with
      | nil => rfl
      | cons _ others => simp at hothers
    obtain ⟨rfl, -⟩ := List.cons_eq_cons.mp hothers
    obtain ⟨slice, c₁, hrun, hready⟩ := inputContiguous_single hmodel hc hregion hnode hlhs
      (hbefore _ List.mem_cons_self)
    have hrhs' : site.node.operand 1 = [] ++ [rhs] := hrhs
    have herror := inputSlices_unbound hmodel hready hnode
      hport hrhs' (fun _ h => absurd h List.not_mem_nil) hearly.covered hearly.early
    exact ⟨c₁, bind_eq_error.mpr (.inr ⟨(), d, hcheck, bind_eq_error.mpr (.inr ⟨slice, c₁, hrun,
      bind_eq_error.mpr (.inl (bind_eq_error.mpr (.inl herror)))⟩)⟩)⟩

/-- Lowering a node that reads too early fails with the first such range. -/
lemma lower_early :
    ∃ d, site.lower c = .error (.unboundReference site.node.name port.id port.name) d := by
  have hone {name : String} (hkind : site.node.kind.inputNames = [name]) :=
    inputSlices_early hmodel hc hnode hport hearly hkind
  have hpointwise {name : String} (hkind : site.node.kind.inputNames = [name])
      (instruction : Slice → Slice → Instruction) : ∃ d, site.lowerPointwise instruction c =
        .error (.unboundReference site.node.name port.id port.name) d := by
    obtain ⟨hslices, hcheck⟩ := hone hkind
    exact ⟨c, bind_eq_error.mpr (.inr ⟨(), c, hcheck, bind_eq_error.mpr (.inl
      (bind_eq_error.mpr (.inl hslices)))⟩)⟩
  have hnone (hkind : site.node.kind.inputNames = []) : False := by
    obtain ⟨before, after, hranges, -⟩ := hearly.first
    rw [(hmodel.arranged.arranged _ (Model.mem_nodes hnode)).ranges_eq_nil hkind] at hranges
    exact List.append_ne_nil_of_right_ne_nil before (by simp) hranges.symm
  rw [lower]
  cases hkind : site.node.kind with
  | input => exact (hnone (by rw [hkind]; rfl)).elim
  | constant values => exact (hnone (by rw [hkind]; rfl)).elim
  | output => exact ⟨c, bind_eq_error.mpr (.inl (hone (by rw [hkind]; rfl)).1)⟩
  | concat => exact ⟨c, bind_eq_error.mpr (.inl (hone (by rw [hkind]; rfl)).1)⟩
  | reduce op =>
    obtain ⟨hslices, hcheck⟩ := hone (by rw [hkind]; rfl)
    exact ⟨c, bind_eq_error.mpr (.inr ⟨(), c, hcheck, bind_eq_error.mpr (.inl hslices)⟩)⟩
  | unary op => exact hpointwise (by rw [hkind]; rfl) _
  | accumulator => exact hpointwise (by rw [hkind]; rfl) _
  | binary op => exact operands_early hmodel hc hregion hnode hport hearly (by rw [hkind]; rfl) _
  | dot => exact operands_early hmodel hc hregion hnode hport hearly (by rw [hkind]; rfl) _

end

end Site

namespace Compiler

variable {model : Model} {node : Node} {range : PortRange} {port : OutputPort} {count : ℕ}
variable {c d : Compiler Assembler}

/-- Compiling a node that reads too early fails with the first such range. -/
lemma compileNode_early (hmodel : model.Readable) (hc : Underway model count c)
    (hnode : model.nodes[count]? = some node) (hport : model.port? range.port = some port)
    (hearly : node.ReadsEarly model c.options.checkElementTypes range) (isFirst : Bool) :
    ∃ d, compileNode model node isFirst c =
      .error (.unboundReference node.name port.id port.name) d := by
  obtain ⟨_, c₁, hbegin, hready, hstep, -, nodes, hopened, hne, -⟩ :=
    (beginNode_exact hmodel.arranged hc hnode).run trivial
  rw [← hstep.options] at hearly
  obtain ⟨d, hlower⟩ : ∃ d, Site.lower ⟨model, node⟩ c₁ = .error _ d :=
    Site.lower_early hmodel hready ⟨nodes, hopened, hne⟩ hnode hport hearly
  rw [compileNode_split]
  exact ⟨d, bind_eq_error.mpr (.inr ⟨(), c₁, hbegin, bind_eq_error.mpr (.inl
    (onBehalfOf_eq_error.mpr ⟨_, hlower, rfl⟩))⟩)⟩

/-- Compiling nodes fails with the first one that reads too early, if those before it can be
compiled. -/
lemma compileNodes_early (hmodel : model.Readable) {before after : List Node}
    (hc : Underway model count c) (hnodes : model.nodes.toList.drop count = before ++ node :: after)
    (hport : model.port? range.port = some port)
    (hearly : node.ReadsEarly model c.options.checkElementTypes range)
    (hfits : ∀ other ∈ before, model.Fits c.options.checkElementTypes other)
    (hroom : c.backend.used + (before.map Node.charge).sum ≤ c.backend.limit) (isFirst : Bool) :
    ∃ d, compileNodes model (before ++ node :: after) isFirst c =
      .error (.unboundReference node.name port.id port.name) d := by
  induction before generalizing c count isFirst with
  | nil =>
    obtain ⟨hget, -⟩ := Model.drop_nodes_eq_cons_iff.mp hnodes
    obtain ⟨d, herror⟩ := compileNode_early hmodel hc hget hport hearly isFirst
    exact ⟨d, bind_eq_error.mpr (.inl herror)⟩
  | cons first rest ih =>
    obtain ⟨hfirst, hrest⟩ := List.forall_mem_cons.mp hfits
    rw [List.map_cons, List.sum_cons] at hroom
    obtain ⟨hget, hdrop⟩ := Model.drop_nodes_eq_cons_iff.mp hnodes
    obtain ⟨_, c₁, hrun, hunderway, hoptions, hused, hlimit⟩ :=
      (compileNode_exact hmodel hc hget isFirst).run ⟨hfirst, by omega⟩
    obtain ⟨d, herror⟩ := ih hunderway hdrop (hoptions ▸ hearly) (hoptions ▸ hrest)
      (by rw [hused, hlimit]; omega) false
    exact ⟨d, bind_eq_error.mpr (.inr ⟨(), c₁, hrun, herror⟩)⟩

/-- What a model has to meet before one of its nodes reads too early: no function has the name of
the new one, the nodes before that node fit, and there is storage up to there. -/
structure Reaches (c : Compiler Assembler) (model : Model) (name : String) (before : List Node) :
    Prop where
  new : c.backend.program.function? name = none
  fits : ∀ node ∈ before, model.Fits c.options.checkElementTypes node
  room : c.backend.used + model.parameterSize + (before.map Node.charge).sum ≤ c.backend.limit

lemma compile_early {name : String} (hmodel : model.Readable) (hc : c.Idle)
    {before after : List Node} (hnodes : model.nodes.toList = before ++ node :: after)
    (hreaches : c.Reaches model name before) (hport : model.port? range.port = some port)
    (hearly : node.ReadsEarly model c.options.checkElementTypes range) :
    ∃ d, compile model name c = .error (.unboundReference node.name port.id port.name) d := by
  have hroom := hreaches.room
  obtain ⟨parameters, c₁, hbegin, hunderway, hoptions, hused, hlimit⟩ :=
    (beginModel_exact (c := c.enter name) hmodel.arranged ⟨hc.orderly, hc.pending, hc.within⟩
      rfl rfl).run
      ⟨show c.backend.used + model.parameterSize ≤ c.backend.limit by omega, hreaches.new⟩
  have hroom₁ : c₁.backend.used + (before.map Node.charge).sum ≤ c₁.backend.limit := by
    rw [hused, hlimit]
    exact hroom
  have hoptions₁ : c₁.options = c.options := hoptions
  obtain ⟨d, herror⟩ := compileNodes_early hmodel hunderway hnodes hport (hoptions₁ ▸ hearly)
    (hoptions₁ ▸ hreaches.fits) hroom₁ true
  have hopen : compileOpen model name (c.enter name) =
      .error (.unboundReference node.name port.id port.name) d := by
    rw [compileOpen_split, hnodes]
    exact bind_eq_error.mpr (.inr ⟨parameters, c₁, hbegin, bind_eq_error.mpr (.inl herror)⟩)
  rw [compile, compileBody_eq, bind_run, hopen]
  exact ⟨_, rfl⟩

end Compiler

/-! ## Compilers that can begin a compilation -/

namespace Assembler

/-- An orderly assembler that has not reserved more than its limit. -/
structure Bounded (a : Assembler) : Prop extends a.Orderly where
  within : a.used ≤ a.limit
  returns : a.committed.elements ≤ a.limit

/-- An assembler without an open function. -/
structure Resting (a : Assembler) : Prop extends a.Bounded where
  pending : a.pending = none

variable {a b : Assembler}

namespace Bounded

lemma allocate (h : a.Bounded) {spec : VariableSpec}
    (hnext : (a.declare spec).allocate a.vars.next = .ok b) : b.Bounded := by
  have horderly := Orderly.preserved.allocate h.toOrderly hnext
  obtain ⟨var, -, -, hle, rfl⟩ := allocate_eq_ok.mp hnext
  exact ⟨horderly, hle, h.returns⟩

lemma declare (h : a.Bounded) (spec : VariableSpec) : (a.declare spec).Bounded :=
  ⟨h.toOrderly.declare spec, h.within, h.returns⟩

lemma preserved : Preserved Bounded where
  declare spec h := h.declare spec
  allocate h hnext := h.allocate hnext
  beginFunction h hnext := by
    have horderly := Orderly.preserved.beginFunction h.toOrderly hnext
    obtain ⟨-, -, vars, -, rfl⟩ := beginFunction_eq_ok.mp hnext
    exact ⟨horderly, h.within, h.returns⟩
  openRegion h hnext := by
    have horderly := Orderly.preserved.openRegion h.toOrderly hnext
    obtain ⟨pending, table, -, -, rfl⟩ := openRegion_eq_ok.mp hnext
    exact ⟨horderly, h.within, h.returns⟩
  emit h hnext := by
    have horderly := Orderly.preserved.emit h.toOrderly hnext
    obtain ⟨-, pending, table, -, -, rfl⟩ := emit_eq_ok.mp hnext
    exact ⟨horderly, h.within, h.returns⟩
  mergeRegion {a} node h := by
    have horderly := Orderly.preserved.mergeRegion node h.toOrderly
    cases hnext : a.mergeRegion? node with
    | none => exact h
    | some next =>
      rw [hnext] at horderly
      obtain ⟨pending, table, source, -, -, -, rfl⟩ := mergeRegion?_eq_some.mp hnext
      exact ⟨horderly, h.within, h.returns⟩

end Bounded

namespace Resting

lemma declare (h : a.Resting) (spec : VariableSpec) : (a.declare spec).Resting :=
  ⟨h.toBounded.declare spec, h.pending⟩

lemma allocate (h : a.Resting) {spec : VariableSpec}
    (hnext : (a.declare spec).allocate a.vars.next = .ok b) : b.Resting := by
  refine ⟨h.toBounded.allocate hnext, ?_⟩
  obtain ⟨var, -, -, -, rfl⟩ := allocate_eq_ok.mp hnext
  exact h.pending

lemma endFunction (h : a.Bounded) (hnext : a.endFunction = .ok b) : b.Resting := by
  obtain ⟨pending, -, rfl⟩ := endFunction_eq_ok.mp hnext
  exact ⟨⟨⟨⟨h.tidy.numbered, fun _ h => (nomatch h)⟩, le_refl _⟩, h.within, h.within⟩, rfl⟩

lemma discardFunction (h : a.Bounded) : a.discardFunction.Resting :=
  ⟨⟨h.toOrderly.discardFunction, h.returns, h.returns⟩, rfl⟩

end Resting
end Assembler

namespace Compiler

lemma keeps_allocateParameters {J : Assembler → Prop} {options : Options}
    (hJ : ∀ spec, Keeps (Upholds J options) VarId (allocate spec)) (model : Model) :
    Keeps (Upholds J options) (List Parameter) (allocateParameters model) := by
  have hall (storage : StorageClass) (ports : List OutputPort) :
      Keeps (Upholds J options) (List Parameter) (ports.mapM (allocateParameter storage)) := by
    induction ports with
    | nil => exact .pure _
    | cons port rest ih =>
      rw [List.mapM_cons]
      exact .bind (.bind (.onBehalfOf _ (hJ _)) fun _ =>
        .bind (keeps_modify (fun _ => rfl) fun _ => rfl) fun _ => .pure _) fun _ =>
          .bind ih fun _ => .pure _
  exact .bind (hall _ _) fun _ => .bind (hall _ _) fun _ => .pure _

/-- No function is left open by the end of a history. -/
lemma history_idle {program : String} {policy : MergePolicy} {limit : ℕ} {options : Options}
    (history : List Operation) :
    (history.foldl perform (fresh (Assembler.fresh program policy limit) options)).Idle ∧
      (history.foldl perform (fresh (Assembler.fresh program policy limit) options)).options =
        options := by
  have hallocate : ∀ spec, Keeps (Upholds Assembler.Resting options) VarId (allocate spec) :=
    fun spec => keeps_allocate (fun h => h.declare spec) fun h => h.allocate
  have hcompile (model : Model) (name : String) :
      Keeps (Upholds Assembler.Resting options) CompiledFunction (compile model name) :=
    fun compiler h => compile_upholds Assembler.Bounded.preserved Assembler.Resting.endFunction
      Assembler.Resting.discardFunction ⟨h.backend.toBounded, h.options⟩ model name
  obtain ⟨hbackend, hoptions⟩ : Upholds Assembler.Resting options
      (history.foldl perform (fresh (Assembler.fresh program policy limit) options)) :=
    history_upholds ⟨⟨⟨.fresh program policy limit, Nat.zero_le _, Nat.zero_le _⟩, rfl⟩, rfl⟩
    fun operation _ compiler h => perform_upholds (fun spec _ => hallocate spec)
      (fun model name _ => hcompile model name) h
      fun model _ => keeps_allocateParameters hallocate model
  exact ⟨⟨hbackend.toOrderly, hbackend.pending, hbackend.within⟩, hoptions⟩

/-! ## Compilations in order -/

/-- A failed compilation adds no function. -/
lemma functions_of_error {c d : Compiler Assembler} {model : Model} {name : String}
    {e : CompileError} (h : compile model name c = .error e d) :
    d.backend.program.functions = c.backend.program.functions := by
  rw [compile_eq_error h]
  exact (compileOpen_extends model name c).backend.functions

/-- **Producers come before consumers, but for outputs that read themselves.**  Whatever a compiler
has done before, a model that has been read from a text is compiled only if every range of every
node belongs to a port that is computed by an earlier node, or by the node itself if it is an
output.  A node with a range of any other port makes the compilation fail, and no function is added.
The error says that the port is unbound if this range is the first thing that is wrong with the
node, and nothing is wrong before the node is reached. -/
theorem compile_ordered {model : Model} {text : String} (h : Model.parse text = .ok model)
    (program name : String) (policy : MergePolicy) (limit : ℕ) (options : Options)
    (history : List Operation) :
    let start := history.foldl perform (fresh (Assembler.fresh program policy limit) options)
    (∀ answer last, compile model name start = .ok answer last →
      ∀ (i : ℕ) (node : Node), model.nodes[i]? = some node → ∀ range ∈ node.ranges,
        ∃ (j : ℕ) (producer : Node), model.nodes[j]? = some producer ∧
          producer.port.id = range.port ∧ (j < i ∨ node.kind = .output ∧ j = i)) ∧
    ∀ before node after, model.nodes.toList = before ++ node :: after → ∀ range ∈ node.ranges,
      ¬ node.MayRead range.port → ∃ e last, compile model name start = .error e last ∧
        last.backend.program.functions = start.backend.program.functions ∧
        (start.Reaches model name before →
          node.ReadsEarly model options.checkElementTypes range →
          ∃ port, model.port? range.port = some port ∧
            e = .unboundReference node.name port.id port.name) := by
  intro start
  have hmodel := Model.readable_of_parse h
  obtain ⟨hidle, hoptions⟩ : start.Idle ∧ start.options = options := history_idle history
  have hexact : Exact (compile model name) start _ _ := compile_exact hmodel hidle
  refine ⟨fun answer last hrun i node hnode range hrange => ?_,
    fun before node after hnodes range hrange hearly => ?_⟩
  · obtain ⟨⟨-, hfits, -⟩, -⟩ := hexact.sound hrun
    have hid := hmodel.numbered i node hnode
    obtain ⟨producer, hproducer, -⟩ :=
      ((hmodel.nodes node (Model.mem_nodes hnode)).ranges range hrange).exists_node
    refine ⟨range.port.index, producer, hproducer, hmodel.numbered.port_id hproducer, ?_⟩
    have hread := (hfits node (Model.mem_nodes hnode)).ordered range hrange
    rw [Node.MayRead, hid] at hread
    refine hread.imp_right fun hown => ⟨hown.1, ?_⟩
    rw [hown.2, hmodel.numbered.port_id hnode]
  · have hmem : node ∈ model.nodes.toList := by simp [hnodes]
    cases hrun : compile model name start with
    | ok answer last =>
      obtain ⟨⟨-, hfits, -⟩, -⟩ := hexact.sound hrun
      exact absurd ((hfits node hmem).ordered range hrange) hearly
    | error e last =>
      refine ⟨e, last, rfl, functions_of_error hrun, fun hreaches hfirst => ?_⟩
      obtain ⟨producer, -, hport⟩ :=
        ((hmodel.nodes node hmem).ranges range hrange).exists_node
      rw [← hoptions] at hfirst
      obtain ⟨last', herror⟩ := compile_early hmodel hidle hnodes hreaches hport hfirst
      rw [hrun] at herror
      obtain ⟨rfl, -⟩ := EStateM.Result.error.inj herror
      exact ⟨producer.port, hport, rfl⟩

/-- A node that reads an output behind it, which reads itself. -/
def reversed : Model :=
  ⟨"reversed", #[⟨⟨0⟩, "n", .unary .neg, [⟨"input", ⟨[⟨⟨1⟩, 0, 1⟩]⟩⟩], .real, 1⟩,
    ⟨⟨1⟩, "y", .output, [⟨"input", ⟨[⟨⟨1⟩, 0, 1⟩]⟩⟩], .real, 1⟩]⟩

theorem compile_ordered_reversed :
    Model.parse "model reversed\nnode n: real[1] = neg y\noutput y: real[1] = y" = .ok reversed ∧
    ∃ last, compile reversed "f" ([Operation.compile Model.echo "e", .pushScope].foldl perform
        (fresh (Assembler.fresh "m" .always 10) .standard)) =
      .error (.unboundReference "n" ⟨1⟩ "y") last ∧
      last.backend.program.functions.map Function.name = ["e"] := by
  have hparse : Model.parse "model reversed\nnode n: real[1] = neg y\noutput y: real[1] = y" =
      .ok reversed := by decide +kernel
  obtain ⟨-, hearly⟩ := compile_ordered hparse "m" "f" .always 10 .standard
    [.compile Model.echo "e", .pushScope]
  obtain ⟨e, last, hrun, hfunctions, herror⟩ :=
    hearly [] _ _ rfl ⟨⟨1⟩, 0, 1⟩ (by decide) (by decide)
  obtain ⟨port, hport, rfl⟩ := herror ⟨by decide +kernel, by decide, by decide +kernel⟩
    ⟨⟨[], [], by decide, by decide⟩, by decide, by decide, by decide⟩
  obtain rfl : ⟨⟨1⟩, ⟨1⟩, "y", .real, 1⟩ = port := Option.some.inj hport
  exact ⟨hparse, last, hrun, hfunctions ▸ by decide +kernel⟩

/-- An output that reads itself. -/
def selfRead : Model :=
  ⟨"a", #[⟨⟨0⟩, "y", .output, [⟨"input", ⟨[⟨⟨0⟩, 0, 1⟩]⟩⟩], .real, 1⟩]⟩

/-- An output that reads itself is compiled, though no node stands before it. -/
theorem compile_selfRead :
    Model.parse "model a\noutput y: real[1] = y" = .ok selfRead ∧
    ∃ answer last, compile selfRead "f" (fresh (Assembler.fresh "m" .always 10) .standard) =
      .ok answer last ∧ last.backend.program.functions.map Function.body =
        [[.copy ⟨⟨0⟩, 0, 1⟩ ⟨⟨0⟩, 0, 1⟩]] := by
  have hcompile : (compile selfRead "f").succeeds
      (fresh (Assembler.fresh "m" .always 10) .standard) (fun _ last =>
        decide (last.backend.program.functions.map Function.body =
          [[.copy ⟨⟨0⟩, 0, 1⟩ ⟨⟨0⟩, 0, 1⟩]])) = true := by
    decide +kernel
  obtain ⟨answer, last, h, htest⟩ := Attempt.exists_of_succeeds hcompile
  exact ⟨by decide +kernel, answer, last, h, of_decide_eq_true htest⟩

end Compiler
end Dataflow
