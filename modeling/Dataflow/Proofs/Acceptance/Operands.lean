import Dataflow.Proofs.Acceptance.Requirements
import Dataflow.Proofs.Acceptance.Steps

/-!
# When operands can be prepared

The nodes of a model are compiled in order (`Compiler.Ready`).  A range of the next node can be
resolved exactly if it is a part of its port and the node may read that port (`Site.resolve_iff`),
and an operand can be prepared if it has a range, all its ranges can be resolved, their element
types agree where they have to, and there is storage to gather them (`Site.inputContiguous_exact`).
Gathering also asks that no end and no sum leaves the words (`InWords`); a single range is only
looked up, and its end is seen when the slice is used.
-/

namespace Dataflow

open Attempt

namespace Except

lemma exists_mapM_eq_ok {ε α γ : Type} {f : α → Except ε γ} {list : List α} :
    (∃ results, list.mapM f = .ok results) ↔ ∀ a ∈ list, ∃ b, f a = .ok b := by
  constructor
  · rintro ⟨results, h⟩ a ha
    obtain ⟨i, hi, rfl⟩ := List.getElem_of_mem ha
    have hall := mapM_eq_ok.mp h
    exact ⟨_, hall.get hi (hall.length_eq ▸ hi)⟩
  · intro h
    induction list with
    | nil => exact ⟨[], rfl⟩
    | cons a rest ih =>
      obtain ⟨⟨b, hb⟩, hrest⟩ := List.forall_mem_cons.mp h
      obtain ⟨bs, hbs⟩ := ih hrest
      exact ⟨b :: bs, mapM_eq_ok.mpr (.cons hb (mapM_eq_ok.mp hbs))⟩

end Except

/-! ## The compiler between two nodes -/

namespace Compiler

/-- The first nodes of a model have been compiled, as many as given, and the ports that are bound
have their storage. -/
structure Ready (model : Model) (count : ℕ) (c : Compiler Assembler) : Prop
    extends Scoped model count c where
  stored : ∀ port id var, c.variableOf? port = some id → c.backend.vars.get? id = some var →
    var.allocated = true
  compiled : ∀ node : NodeId, c.isCompiled node = true ↔ node.index < count
  within : c.backend.used ≤ c.backend.limit

variable {model : Model} {node : Node} {count : ℕ} {c d : Compiler Assembler}
variable {added : List Instruction}

/-- Instructions and variables may be added. -/
lemma Ready.step (h : Ready model count c) (hstep : c.Step added d)
    (hwithin : d.backend.used ≤ d.backend.limit) : Ready model count d where
  toScoped := h.toScoped.step hstep.tidy hstep.backend.vars hstep.scopes
  stored port id var hid hvar := by
    rw [hstep.variableOf?_eq] at hid
    obtain ⟨_, old, -, hold, -⟩ := h.home port id hid
    have hsame := hstep.backend.vars.get? hold
    obtain rfl : old = var := Option.some.inj (hsame.symm.trans hvar)
    exact h.stored port id old hid hold
  compiled other := by rw [hstep.isCompiled_eq, h.compiled]
  within := hwithin

/-- A slice that a range has been resolved to. -/
structure Stands (c : Compiler Assembler) (range : PortRange) (slice : Slice) : Prop where
  length : slice.length = range.length
  stop : slice.stop = range.start + range.length
  placed : slice.Placed c.backend.vars false

/-- Slices that some ranges have been resolved to. -/
def Fed (c : Compiler Assembler) : List PortRange → List Slice → Prop := List.Forall₂ (Stands c)

section

variable {ranges : List PortRange} {slices : List Slice} (h : Fed c ranges slices)

include h

lemma Fed.total : (slices.map Slice.length).sum = totalLength ranges := by
  induction h with
  | nil => rfl
  | cons hslice _ ih =>
    rw [List.map_cons, List.sum_cons, ih, hslice.length]
    rfl

lemma Fed.placed : ∀ slice ∈ slices, slice.Placed c.backend.vars false := by
  induction h with
  | nil => exact fun _ hmem => absurd hmem List.not_mem_nil
  | cons hslice _ ih => exact List.forall_mem_cons.mpr ⟨hslice.placed, ih⟩

/-- The slices end at words if the ranges do. -/
lemma Fed.words : (∀ slice ∈ slices, slice.stop ≤ Word.top) ↔
    ∀ range ∈ ranges, range.Addressable := by
  induction h with
  | nil => simp
  | cons hslice _ ih =>
    rw [List.forall_mem_cons, List.forall_mem_cons, ih, hslice.stop]
    rfl

end

end Compiler

namespace Site

open Compiler

variable {site : Site} {range : PortRange} {index count : ℕ} {c d : Compiler Assembler}

/-! ## Resolving a range -/

/-- The slice that a range stands for is the range in the variable of its port. -/
lemma resolve_eq_ok_iff {slice : Slice} : site.resolve c range = .ok slice ↔
    ∃ port, site.model.port? range.port = some port ∧
      ¬ (range.length = 0 ∨ port.size < range.stop) ∧
      ¬ (port.node ≠ site.node.id ∧ !c.isCompiled port.node) ∧
      ∃ var, c.variableOf? range.port = some var ∧ ⟨var, range.start, range.length⟩ = slice := by
  rw [resolve, Except.bind_eq_ok]
  refine exists_congr fun port => ?_
  rw [Except.guard_bind_eq_ok fun _ => malformed_ne_ok,
    Except.guard_bind_eq_ok fun _ => unbound_ne_ok]
  refine and_congr ⟨portOf_eq_ok, fun h => by rw [portOf, h]⟩ (and_congr_right fun _ =>
    and_congr_right fun _ => ?_)
  cases c.variableOf? range.port with
  | none => simp [unbound]
  | some var => simp [Except.pure_eq_ok]

section

variable (hmodel : site.model.Arranged) (hc : Ready site.model count c)
variable (hnode : site.model.nodes[count]? = some site.node) (hrange : range ∈ site.node.ranges)

include hmodel hc hnode hrange

/-- A node may read the ports that have a variable and belong to the node itself or to one that is
compiled. -/
lemma mayRead_iff {other : Node} (hother : site.model.nodes[range.port.index]? = some other) :
    ¬ (other.port.node ≠ site.node.id ∧ !c.isCompiled other.port.node) ∧
      (c.variableOf? range.port).isSome ↔ site.node.MayRead range.port := by
  have hid := hmodel.numbered count _ hnode
  have hotherid : other.id = ⟨range.port.index⟩ := hmodel.numbered _ _ hother
  have hown (hsame : range.port.index = count) : site.node = other := by
    rw [hsame] at hother
    exact Option.some.inj (hnode.symm.trans hother)
  rw [Node.MayRead, hc.bound _ _ hother, Node.port, hotherid, hid, Bool.not_eq_true',
    ← Bool.not_eq_true, hc.compiled]
  simp only [Node.port, hid, ne_eq, NodeId.mk.injEq, not_and, not_not]
  constructor
  · rintro ⟨hdone, hsome⟩
    by_cases hlt : range.port.index < count
    · exact .inl hlt
    · -- the node itself, and an input reads nothing
      have hsame : range.port.index = count := by
        by_contra hne
        exact hlt (hdone hne)
      have hstorage := hsome.resolve_left hlt
      rw [← hown hsame] at hstorage
      refine .inr ⟨?_, congrArg PortId.mk hsame⟩
      cases hkind : site.node.kind with
      | output => rfl
      | input =>
        have harranged := hmodel.arranged _ (Model.mem_nodes hnode)
        rw [harranged.ranges_eq_nil (by rw [hkind]; rfl)] at hrange
        exact absurd hrange List.not_mem_nil
      | _ => exact absurd (by rw [hkind]; rfl) hstorage
  · rintro (hlt | ⟨hkind, hself⟩)
    · exact ⟨fun _ => hlt, .inl hlt⟩
    · have hsame : range.port.index = count := congrArg PortId.index hself
      refine ⟨fun hne => absurd hsame hne, .inr ?_⟩
      rw [← hown hsame, hkind]
      decide

/-- A range is resolved exactly if it is a part of its port and the node may read that port. -/
lemma resolve_iff : (∃ slice, site.resolve c range = .ok slice) ↔
    site.model.Offers range ∧ site.node.MayRead range.port := by
  obtain ⟨other, hother, hport⟩ := hmodel.exists_port (Model.mem_nodes hnode) hrange
  have hoffers : ¬ (range.length = 0 ∨ other.port.size < range.stop) ↔
      site.model.Offers range := by
    simp only [Model.Offers, hport, Option.some.injEq, exists_eq_left', not_or, not_lt, ne_eq]
  rw [← hoffers, ← mayRead_iff hmodel hc hnode hrange hother]
  constructor
  · rintro ⟨slice, hslice⟩
    obtain ⟨port, hport', hbounds, hdone, var, hvar, -⟩ := resolve_eq_ok_iff.mp hslice
    obtain rfl : other.port = port := Option.some.inj (hport.symm.trans hport')
    exact ⟨hbounds, hdone, by rw [hvar]; rfl⟩
  · rintro ⟨hbounds, hdone, hsome⟩
    obtain ⟨var, hvar⟩ := Option.isSome_iff_exists.mp hsome
    exact ⟨_, resolve_eq_ok_iff.mpr ⟨_, hport, hbounds, hdone, var, hvar, rfl⟩⟩

omit hmodel hnode hrange in
/-- The slice of a range lies inside a variable with storage, unless its end is no word. -/
lemma stands_of_resolve {slice : Slice} (h : site.resolve c range = .ok slice) :
    Stands c range slice := by
  obtain ⟨port, hport, hbounds, -, id, hid, rfl⟩ := resolve_eq_ok_iff.mp h
  obtain ⟨other, var, hother, hvar, hhome⟩ := hc.home _ _ hid
  obtain rfl : other.port = port := by
    rw [Model.port?, hother, Option.map_some, Option.some.injEq] at hport
    exact hport
  obtain ⟨hnonempty, hstop⟩ := not_or.mp hbounds
  refine ⟨rfl, rfl, var, hvar, hc.stored _ _ _ hid hvar, hnonempty, fun hword => ?_,
    fun h => Bool.false_ne_true h.1⟩
  -- the end of the range has not stopped at the largest word
  rw [hhome.size]
  exact (le_min (le_refl _) hword).trans (not_lt.mp hstop)

end

lemma inputRanges_ne_ok (h : site.node.operand index = []) {ranges : PortRange × List PortRange} :
    site.inputRanges index ≠ .ok ranges := by
  intro hranges
  rw [Node.operand] at h
  rw [inputRanges] at hranges
  split at hranges
  · exact malformed_ne_ok hranges
  · exact malformed_ne_ok hranges
  · next hinput =>
    rw [hinput] at h
    cases h

lemma inputRanges_of_operand {first : PortRange} {rest : List PortRange}
    (h : site.node.operand index = first :: rest) :
    site.inputRanges index = .ok (first, rest) := by
  rw [Node.operand] at h
  rw [inputRanges]
  split
  · next hinput =>
    rw [hinput] at h
    cases h
  · next hinput =>
    rw [hinput] at h
    cases h
  · next hinput =>
    rw [hinput] at h
    obtain ⟨rfl, rfl⟩ := List.cons_eq_cons.mp h
    rfl

/-! ## Types -/

lemma portOf_of_some {port : OutputPort} (h : site.model.port? range.port = some port) :
    site.portOf range = .ok port := by
  rw [portOf, h]

/-- The ranges belong to ports of the model. -/
def Ported (model : Model) (ranges : List PortRange) : Prop :=
  ∀ range ∈ ranges, ∃ port, model.port? range.port = some port

lemma checkRangeTypes_eq_ok {first : ElementType} {ranges : List PortRange}
    (hports : Ported site.model ranges) :
    site.checkRangeTypes index first ranges = .ok () ↔
      ∀ range ∈ ranges, site.model.typeOf? range = some first := by
  induction ranges with
  | nil => exact ⟨fun _ _ h => absurd h List.not_mem_nil, fun _ => rfl⟩
  | cons range rest ih =>
    obtain ⟨⟨port, hport⟩, hrest⟩ := List.forall_mem_cons.mp hports
    rw [checkRangeTypes, portOf_of_some hport]
    show (if port.elementType ≠ first then _ else _) = _ ↔ _
    rw [Except.guard_bind_eq_ok fun _ => malformed_ne_ok, ih hrest, List.forall_mem_cons,
      Model.typeOf?, hport, Option.map_some, Option.some.injEq, not_not]

lemma forM_portOf_eq_ok {ranges : List PortRange} (hports : Ported site.model ranges) :
    ranges.forM (fun range => discard (site.portOf range)) = .ok () := by
  rw [Except.forM_eq_ok]
  intro range hmem
  obtain ⟨port, hport⟩ := hports range hmem
  rw [portOf_of_some hport]
  rfl

/-- The type of an input is that of its first range.  It is found exactly if there is one and the
types agree, where they have to. -/
lemma inputType_eq_ok_iff {strict : Bool} (hports : Ported site.model (site.node.operand index))
    {elementType : ElementType} : site.inputType strict index = .ok elementType ↔
      (∃ first rest, site.node.operand index = first :: rest ∧
        site.model.typeOf? first = some elementType) ∧
      (strict = true → site.model.OneType (site.node.operand index)) := by
  cases hoperand : site.node.operand index with
  | nil =>
    refine iff_of_false (fun h => ?_) (by simp)
    obtain ⟨_, hranges, -⟩ := Except.bind_eq_ok.mp h
    exact inputRanges_ne_ok hoperand hranges
  | cons first rest =>
    rw [hoperand] at hports
    obtain ⟨⟨port, hport⟩, hrest⟩ := List.forall_mem_cons.mp hports
    have htype : site.model.typeOf? first = some port.elementType := by
      rw [Model.typeOf?, hport, Option.map_some]
    have hfirst : (∃ head tail, first :: rest = head :: tail ∧
        site.model.typeOf? head = some elementType) ↔ port.elementType = elementType := by
      rw [← Option.some.injEq, ← htype]
      constructor
      · rintro ⟨head, tail, heq, hhead⟩
        rwa [(List.cons_eq_cons.mp heq).1]
      · exact fun hhead => ⟨first, rest, rfl, hhead⟩
    have hrun : site.inputType strict index = (do
        if strict then site.checkRangeTypes index port.elementType rest
        else rest.forM fun range => discard (site.portOf range)
        return port.elementType) := by
      rw [inputType, inputRanges_of_operand hoperand]
      show (site.portOf first >>= _) = _
      rw [portOf_of_some hport]
      rfl
    rw [hrun, hfirst]
    cases strict with
    | false =>
      simp only [Bool.false_eq_true, if_false, false_imp_iff, and_true]
      rw [forM_portOf_eq_ok hrest]
      exact Except.pure_eq_ok
    | true =>
      have hall : site.checkRangeTypes index port.elementType rest = .ok () ↔
          site.model.OneType (first :: rest) :=
        (checkRangeTypes_eq_ok hrest).trans (Model.oneType_cons_iff htype).symm
      simp only [if_true, true_imp_iff, ← hall]
      constructor
      · intro h
        obtain ⟨_, hcheck, hresult⟩ := Except.bind_eq_ok.mp h
        exact ⟨Except.pure_eq_ok.mp hresult, hcheck⟩
      · rintro ⟨hresult, hcheck⟩
        exact Except.bind_eq_ok.mpr ⟨(), hcheck, Except.pure_eq_ok.mpr hresult⟩

lemma inputType_iff (strict : Bool) (hports : Ported site.model (site.node.operand index)) :
    (∃ elementType, site.inputType strict index = .ok elementType) ↔
      site.node.operand index ≠ [] ∧
        (strict = true → site.model.OneType (site.node.operand index)) := by
  constructor
  · rintro ⟨elementType, htype⟩
    obtain ⟨⟨first, rest, hoperand, -⟩, hone⟩ := (inputType_eq_ok_iff hports).mp htype
    exact ⟨hoperand ▸ List.cons_ne_nil first rest, hone⟩
  · rintro ⟨hne, hone⟩
    obtain ⟨first, rest, hoperand⟩ := List.exists_cons_of_ne_nil hne
    obtain ⟨port, hport⟩ := hports first (hoperand ▸ List.mem_cons_self)
    have htype : site.model.typeOf? first = some port.elementType := by
      rw [Model.typeOf?, hport, Option.map_some]
    exact ⟨port.elementType,
      (inputType_eq_ok_iff hports).mpr ⟨⟨first, rest, hoperand, htype⟩, hone⟩⟩

/-- The types of two operands are checked with success exactly if there are ranges on both sides and
the types agree, where they have to. -/
lemma checkOperandTypes_eq_ok (strict : Bool)
    (hlhs : Ported site.model (site.node.operand 0))
    (hrhs : Ported site.model (site.node.operand 1)) :
    site.checkOperandTypes strict = .ok () ↔
      (site.node.operand 0 ≠ [] ∧ site.node.operand 1 ≠ []) ∧
        (strict = true → site.model.OneType (site.node.operand 0 ++ site.node.operand 1)) := by
  rw [checkOperandTypes]
  constructor
  · intro h
    obtain ⟨lhs, hleft, h⟩ := Except.bind_eq_ok.mp h
    obtain ⟨rhs, hright, h⟩ := Except.bind_eq_ok.mp h
    refine ⟨⟨((inputType_iff _ hlhs).mp ⟨lhs, hleft⟩).1,
      ((inputType_iff _ hrhs).mp ⟨rhs, hright⟩).1⟩, fun hstrict => ?_⟩
    obtain ⟨⟨first, rest, hoperand, htype⟩, hone⟩ := (inputType_eq_ok_iff hlhs).mp hleft
    obtain ⟨⟨first', rest', hoperand', htype'⟩, hone'⟩ := (inputType_eq_ok_iff hrhs).mp hright
    obtain rfl : lhs = rhs := by
      by_contra hne
      rw [if_pos ⟨hstrict, hne⟩] at h
      exact malformed_ne_ok h
    -- every range has the type of the first one on its side
    have hevery : ∀ range ∈ site.node.operand 0 ++ site.node.operand 1,
        site.model.typeOf? range = some lhs := by
      refine List.forall_mem_append.mpr ⟨fun range hrange => ?_, fun range hrange => ?_⟩
      · rw [← htype]
        exact hone hstrict range hrange first (hoperand ▸ List.mem_cons_self)
      · rw [← htype']
        exact hone' hstrict range hrange first' (hoperand' ▸ List.mem_cons_self)
    exact fun range hrange other hother => (hevery range hrange).trans (hevery other hother).symm
  · rintro ⟨⟨hne, hne'⟩, hone⟩
    obtain ⟨lhs, hleft⟩ := (inputType_iff strict hlhs).mpr
      ⟨hne, fun hstrict => (hone hstrict).mono fun _ => List.mem_append_left _⟩
    obtain ⟨rhs, hright⟩ := (inputType_iff strict hrhs).mpr
      ⟨hne', fun hstrict => (hone hstrict).mono fun _ => List.mem_append_right _⟩
    obtain ⟨⟨first, rest, hoperand, htype⟩, -⟩ := (inputType_eq_ok_iff hlhs).mp hleft
    obtain ⟨⟨first', rest', hoperand', htype'⟩, -⟩ := (inputType_eq_ok_iff hrhs).mp hright
    refine Except.bind_eq_ok.mpr ⟨lhs, hleft, Except.bind_eq_ok.mpr ⟨rhs, hright, ?_⟩⟩
    refine if_neg fun hdiffer => hdiffer.2 ?_
    have hsame := hone hdiffer.1 first (by simp [hoperand]) first' (by simp [hoperand'])
    rwa [htype, htype', Option.some.injEq] at hsame

/-! ## Operands -/

section

variable (hmodel : site.model.Arranged) (hc : Ready site.model count c)
variable (hnode : site.model.nodes[count]? = some site.node)

include hmodel hnode

lemma ported_operand (index : ℕ) : Ported site.model (site.node.operand index) := by
  intro range hrange
  obtain ⟨other, -, hport⟩ := hmodel.exists_port (Model.mem_nodes hnode) (Node.mem_ranges hrange)
  exact ⟨_, hport⟩

lemma checkInput_exact (index : ℕ) :
    Exact (site.checkInput index) c (site.node.operand index ≠ [] ∧
        (c.options.checkElementTypes = true → site.model.OneType (site.node.operand index)))
      fun _ d => d = c := by
  have hports := ported_operand hmodel hnode index
  refine .look ((Exact.ofExcept (site.inputType_check _ index)).discard.congr
    (inputType_iff _ hports) ?_)
  rintro - _ _ ⟨_, -, rfl⟩
  rfl

lemma checkOperands_exact :
    Exact site.checkOperands c ((site.node.operand 0 ≠ [] ∧ site.node.operand 1 ≠ []) ∧
        (c.options.checkElementTypes = true →
          site.model.OneType (site.node.operand 0 ++ site.node.operand 1))) fun _ d => d = c := by
  have hcheck := checkOperandTypes_eq_ok c.options.checkElementTypes
    (ported_operand hmodel hnode 0) (ported_operand hmodel hnode 1)
  rw [← hcheck]
  refine .look ((Exact.ofExcept (site.checkOperandTypes_check _)).congr
    ⟨?_, fun h => ⟨(), h⟩⟩ ?_)
  · rintro ⟨_, h⟩
    exact h
  · rintro - _ _ ⟨-, rfl⟩
    rfl

include hc

lemma inputSlices_exact (index : ℕ) :
    Exact (site.inputSlices index) c (site.model.CanRead site.node (site.node.operand index))
      fun slices d => d = c ∧ Fed c (site.node.operand index) slices := by
  have hrun : Exact (site.inputSlices index) c
      (∃ slices, (site.inputRanges index >>= fun ranges =>
        (ranges.1 :: ranges.2).mapM (site.resolve c)) = .ok slices) fun slices d =>
      (site.inputRanges index >>= fun ranges =>
        (ranges.1 :: ranges.2).mapM (site.resolve c)) = .ok slices ∧ d = c :=
    .look (.ofExcept ((site.inputRanges_check index).bind fun _ =>
      .mapM (site.resolve_check c.scene) _))
  cases hoperand : site.node.operand index with
  | nil =>
    -- there is no first range
    have hnone : ∀ slices, (site.inputRanges index >>= fun ranges =>
        (ranges.1 :: ranges.2).mapM (site.resolve c)) ≠ .ok slices := fun slices h => by
      obtain ⟨_, hranges, -⟩ := Except.bind_eq_ok.mp h
      exact inputRanges_ne_ok hoperand hranges
    exact hrun.congr (iff_of_false (fun ⟨slices, h⟩ => hnone slices h) fun h => h.1 rfl)
      fun ⟨slices, h⟩ => absurd h (hnone slices)
  | cons first rest =>
    have hmem : ∀ range ∈ first :: rest, range ∈ site.node.ranges := fun range h =>
      Node.mem_ranges (hoperand ▸ h)
    have hresolve : (site.inputRanges index >>= fun ranges =>
        (ranges.1 :: ranges.2).mapM (site.resolve c)) = (first :: rest).mapM (site.resolve c) := by
      rw [inputRanges_of_operand hoperand]
      rfl
    rw [hresolve] at hrun
    refine hrun.congr ?_ ?_
    · rw [Except.exists_mapM_eq_ok, Model.CanRead, and_iff_right (List.cons_ne_nil first rest)]
      exact forall₂_congr fun range hrange => resolve_iff hmodel hc hnode (hmem range hrange)
    · rintro - slices _ ⟨h, rfl⟩
      exact ⟨rfl, (Except.mapM_eq_ok.mp h).imp fun _ _ => stands_of_resolve hc⟩

end

/-! ## Gathering -/

/-- Slices are copied to a variable that has room for them if their ends are words. -/
lemma copyConsecutive_exact {id : VarId} {var : Variable} {size : ℕ} {slices : List Slice}
    (hc : c.backend.Tidy) (hregion : c.HasRegion) (hvar : c.backend.vars.get? id = some var)
    (hallocated : var.allocated = true) (hstorage : var.storage ≠ .input)
    (hword : var.size ≤ Word.top) (hplaced : ∀ slice ∈ slices, slice.Placed c.backend.vars false)
    {offset : ℕ} (hroom : offset + (slices.map Slice.length).sum ≤ var.size) :
    Exact (copyConsecutive ⟨id, 0, size⟩ offset slices) c
      (∀ slice ∈ slices, slice.stop ≤ Word.top)
      fun _ d => c.Step (copies ⟨id, 0, size⟩ offset slices) d ∧ c.Spends 0 d ∧
        d.backend.vars = c.backend.vars := by
  induction slices generalizing c offset with
  | nil =>
    refine (Exact.pure ()).congr (by simp) ?_
    rintro - _ _ ⟨-, rfl⟩
    exact ⟨.refl hc, .refl _, rfl⟩
  | cons src rest ih =>
    obtain ⟨hsrc, hrest⟩ := List.forall_mem_cons.mp hplaced
    rw [List.map_cons, List.sum_cons, ← Nat.add_assoc] at hroom
    have hnonempty : src.length ≠ 0 := by
      obtain ⟨_, -, -, hlength, -⟩ := hsrc
      exact hlength
    have hstop : (Slice.sub ⟨id, 0, size⟩ offset src.length).stop = offset + src.length :=
      congrArg (· + src.length) (Nat.zero_add offset)
    have hcopy : (Instruction.copy (Slice.sub ⟨id, 0, size⟩ offset src.length) src).Placed
        c.backend.vars :=
      ⟨⟨var, hvar, hallocated, hnonempty, fun _ => by
        rw [Instruction.dst, hstop]
        omega, fun h => hstorage h.2⟩, List.forall_mem_singleton.mpr hsrc,
        by simp [Instruction.lengthsFit, Slice.sub]⟩
    have hends : ((Slice.sub ⟨id, 0, size⟩ offset src.length).stop ≤ Word.top ∧
        ∀ slice ∈ [src], slice.stop ≤ Word.top) ↔ src.stop ≤ Word.top := by
      rw [hstop, List.forall_mem_singleton, and_iff_right (by omega)]
    rw [List.forall_mem_cons, ← hends]
    refine (emit_exact hc hregion hcopy).bind ?_
    rintro - - c₁ ⟨hstep, hspends, hvars⟩
    refine (ih hstep.tidy (hspends.hasRegion hregion) (hvars ▸ hvar) (hvars ▸ hrest) hroom).congr
      Iff.rfl ?_
    rintro - - d ⟨hstep', hspends', hvars'⟩
    exact ⟨hstep.trans hstep', hspends.trans hspends', hvars'.trans hvars⟩

/-- The number of elements of slices is found if it is a word. -/
lemma joinedSize_exact {ranges : List PortRange} {slices : List Slice} (h : Fed c ranges slices) :
    Exact (MonadExcept.ofExcept (site.joinedSize slices)) c (totalLength ranges ≤ Word.top)
      fun size d => size = totalLength ranges ∧ d = c := by
  have hsize (size : ℕ) : site.joinedSize slices = .ok size ↔
      totalLength ranges ≤ Word.top ∧ size = totalLength ranges := by
    rw [joinedSize_eq_ok, h.total]
  refine (Exact.ofExcept (site.joinedSize_check slices)).congr ?_ ?_
  · simp only [hsize, exists_and_left, exists_eq, and_true]
  · rintro - size d ⟨hok, rfl⟩
    exact ⟨((hsize size).mp hok).2, rfl⟩

/-- Ranges that are gathered become a slice of all of a new variable. -/
lemma gather_exact (hc : c.backend.Tidy) (hregion : c.HasRegion)
    (hports : Ported site.model (site.node.operand index))
    (hread : site.model.CanRead site.node (site.node.operand index)) {slices : List Slice}
    (hslices : Fed c (site.node.operand index) slices) :
    let ranges := site.node.operand index
    Exact (site.gather index slices) c
      ((c.options.checkElementTypes = true → site.model.OneType ranges) ∧
        c.backend.used + totalLength ranges ≤ c.backend.limit ∧ InWords ranges)
      fun slice d => (∃ code, c.Step code d) ∧ c.Spends (totalLength ranges) d ∧
        slice.length = totalLength ranges ∧ slice.stop = totalLength ranges ∧
        slice.Placed d.backend.vars false := by
  intro ranges
  have htypes := (inputType_iff c.options.checkElementTypes hports).trans
    (and_iff_right hread.1)
  have hrun : Exact (site.gather index slices) c
      ((c.options.checkElementTypes = true → site.model.OneType ranges) ∧
        totalLength ranges ≤ Word.top ∧ c.backend.used + totalLength ranges ≤ c.backend.limit ∧
        ∀ range ∈ ranges, range.Addressable)
      fun slice d => (∃ code, c.Step code d) ∧ c.Spends (totalLength ranges) d ∧
        slice.length = totalLength ranges ∧ slice.stop = totalLength ranges ∧
        slice.Placed d.backend.vars false := by
    rw [← hslices.words]
    refine .look (((Exact.ofExcept (site.inputType_check _ index)).check_bind And.right ?_).iff
      (and_congr_left' htypes))
    rintro - elementType -
    refine (joinedSize_exact hslices).check_bind And.right ?_
    rintro hword _ ⟨rfl, -⟩
    refine (allocate_exact hc _).bind ?_
    rintro - id c₁ ⟨hstep, hspends, -, hvar⟩
    refine ((copyConsecutive_exact hstep.tidy (hspends.hasRegion hregion) hvar rfl
      (fun h => StorageClass.noConfusion h) hword
      (fun slice hslice => (hslices.placed slice hslice).mono hstep.backend.vars)
      (by rw [Nat.zero_add, hslices.total]; exact le_refl _)).bind
        fun _ _ c₂ ⟨hstep', hspends', hvars⟩ => ?_).iff (and_iff_left trivial)
    refine (Exact.pure _).mono ?_
    rintro - _ _ ⟨rfl, rfl⟩
    exact ⟨⟨_, hstep.trans hstep'⟩, hspends.trans hspends', rfl, Nat.zero_add _, _, hvars ▸ hvar,
      rfl, hread.totalLength_ne_zero, fun _ => (Nat.zero_add _).le, fun h => Bool.false_ne_true h.1⟩
  refine hrun.iff ?_
  exact ⟨fun ⟨htypes, htotal, hlimit, hends⟩ => ⟨htypes, hlimit, htotal, hends⟩,
    fun ⟨htypes, hlimit, htotal, hends⟩ => ⟨htypes, htotal, hlimit, hends⟩⟩

section

variable (hmodel : site.model.Arranged) (hc : Ready site.model count c) (hregion : c.HasRegion)
variable (hnode : site.model.nodes[count]? = some site.node)

include hmodel hc hregion hnode

/-- An operand can be prepared if its ranges can be read, its types agree, and what it is gathered
in has storage. -/
lemma inputContiguous_exact (index : ℕ) :
    let ranges := site.node.operand index
    Exact (site.inputContiguous index) c
      (site.model.CanRead site.node ranges ∧
        (c.options.checkElementTypes = true → site.model.OneType ranges) ∧
        c.backend.used + gathering ranges ≤ c.backend.limit ∧
        (ranges.length ≠ 1 → InWords ranges))
      fun slice d => (∃ code, c.Step code d) ∧ c.Spends (gathering ranges) d ∧
        slice.length = totalLength ranges ∧ (slice.stop ≤ Word.top ↔ InWords ranges) ∧
        slice.Placed d.backend.vars false := by
  intro ranges
  rw [inputContiguous_eq]
  refine (inputSlices_exact hmodel hc hnode index).check_bind And.left ?_
  rintro hread slices ⟨-, hslices⟩
  have hlength : ranges.length = slices.length := hslices.length_eq
  split
  · next slice =>
    -- a single range is read in its place
    obtain ⟨range, hrange⟩ := List.length_eq_one_iff.mp hlength
    have hnone : gathering ranges = 0 := if_pos hlength
    have hstands : Stands c range slice := by
      have hall : Fed c [range] [slice] := hrange ▸ hslices
      exact (List.forall₂_cons.mp hall).1
    rw [hnone]
    refine (Exact.pure slice).congr
      (iff_of_true trivial ⟨fun _ => ?_, hc.within, fun hne => absurd hlength hne⟩) ?_
    · exact hrange ▸ Model.oneType_singleton _ _
    · rintro - _ _ ⟨rfl, rfl⟩
      refine ⟨⟨_, .refl hc.tidy⟩, .refl _, ?_, ?_, hstands.placed⟩
      · rw [hrange, totalLength_singleton, hstands.length]
      · rw [hrange, hstands.stop]
        constructor
        · intro hword
          refine ⟨?_, List.forall_mem_singleton.mpr hword⟩
          rw [totalLength_singleton]
          omega
        · exact fun hwords => hwords.ends range List.mem_cons_self
  · next hnot =>
    have hmany : ranges.length ≠ 1 := by
      rw [hlength]
      intro hone
      obtain ⟨slice, hslice⟩ := List.length_eq_one_iff.mp hone
      exact hnot slice hslice
    have hall : gathering ranges = totalLength ranges := if_neg hmany
    rw [hall]
    refine (gather_exact hc.tidy hregion (ported_operand hmodel hnode index) hread hslices).congr
      (and_congr_right fun _ => and_congr_right fun _ => (imp_iff_right hmany).symm) ?_
    rintro ⟨-, -, hwords⟩ slice d ⟨hcode, hspends, hsize, hstop, hplaced⟩
    exact ⟨hcode, hspends, hsize, iff_of_true (hstop ▸ hwords.total) hwords, hplaced⟩

end

end Site
end Dataflow
