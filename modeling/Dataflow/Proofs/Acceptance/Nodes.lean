import Dataflow.Proofs.Acceptance.Operands

/-!
# When nodes can be lowered

Each kind of node has its own checks, in its own order.  Whatever the kind, lowering the next node
succeeds exactly if it meets the requirements of the compiler and its storage can be reserved
(`Site.lower_exact`).
-/

namespace Dataflow

open Attempt

lemma broadcastSize?_eq_some {lhs rhs size : ℕ} :
    broadcastSize? lhs rhs = some size ↔ Broadcasts lhs rhs size := by
  rw [broadcastSize?, Broadcasts]
  split_ifs <;> simp <;> omega

/-! ## Lowering -/

namespace Site

open Compiler

variable {site : Site} {count : ℕ} {c d : Compiler Assembler}

lemma checkResult_exact (produced : ℕ) :
    Exact (site.checkResult produced) c (site.node.size = produced) fun _ d => d = c where
  sound hrun := ⟨(checkResult_ok hrun).2, (checkResult_ok hrun).1⟩
  complete hsize := by
    refine ⟨(), c, ofExcept_eq_ok.mpr ⟨?_, rfl⟩⟩
    rw [checkSize, if_pos hsize]
  portable hrun := (site.checkSize_check produced _ (ofExcept_eq_error.mp hrun).1).portable

/-- A slice of all of a variable that may be written. -/
def Whole (c : Compiler Assembler) (size : ℕ) (dst : Slice) : Prop :=
  ∃ id var, dst = ⟨id, 0, size⟩ ∧ c.backend.vars.get? id = some var ∧ var.allocated = true ∧
    var.storage ≠ .input ∧ var.size = size

lemma Whole.length_eq {size : ℕ} {dst : Slice} (h : Whole c size dst) : dst.length = size := by
  obtain ⟨id, var, rfl, -⟩ := h
  rfl

lemma Whole.stop_eq {size : ℕ} {dst : Slice} (h : Whole c size dst) : dst.stop = size := by
  obtain ⟨id, var, rfl, -⟩ := h
  exact Nat.zero_add size

lemma Whole.placed {size : ℕ} {dst : Slice} (h : Whole c size dst) (hsize : size ≠ 0)
    (written : Bool) : dst.Placed c.backend.vars written := by
  have hstop := h.stop_eq
  obtain ⟨id, var, rfl, hvar, hallocated, hstorage, hvarsize⟩ := h
  exact ⟨var, hvar, hallocated, hsize, fun _ => (hstop.trans hvarsize.symm).le,
    fun h => hstorage h.2⟩

/-- A node without a variable gets one if it has elements and they can be reserved. -/
lemma output_exact (hc : c.backend.Tidy) (hfree : c.variableOf? site.node.port.id = none)
    (initial : Option Float) :
    Exact (site.output initial) c
      (site.node.size ≠ 0 ∧ c.backend.used + site.node.size ≤ c.backend.limit)
      fun dst d => d.backend.Tidy ∧ c.Spends site.node.size d ∧ Whole d site.node.size dst := by
  have hport : site.node.port.size = site.node.size := rfl
  have hrun : site.output initial c = (allocatePort site.node.port initial >>= fun var =>
      pure (⟨var, 0, site.node.size⟩ : Slice) : Attempt (Compiler Assembler) Slice) c := by
    simp only [output, getOrAllocatePort_eq, bind_run, get_run, hfree, Option.elim_none]
  refine .of_run hrun ?_
  unfold allocatePort
  by_cases hsize : site.node.size = 0
  · simp only [hport, if_pos hsize]
    exact .of_error (fun h => h.1 hsize) rfl trivial
  · simp only [hport, if_neg hsize, bind_assoc, pure_bind]
    refine ((allocate_exact hc _).bind_always ?_).iff (and_iff_right hsize).symm
    rintro - id c₁ ⟨hstep, hspends, -, hvar⟩
    refine (Exact.change _).bind_always ?_
    rintro - - _ rfl
    refine (Exact.pure _).mono ?_
    rintro - _ _ ⟨rfl, rfl⟩
    exact ⟨hstep.tidy, hspends.bindPort _ _, id, _, rfl, hvar, rfl,
      fun h => StorageClass.noConfusion h, rfl⟩

/-- Slices are folded into a single element one after another, if their ends are words. -/
lemma reduceAll_exact {op : ReduceOp} {dst : Slice} {slices : List Slice} (hc : c.backend.Tidy)
    (hregion : c.HasRegion) (hword : dst.stop ≤ Word.top)
    (h : ∀ src ∈ slices, (Instruction.reduce op dst src).Placed c.backend.vars) :
    Exact (slices.forM fun src => emit (.reduce op dst src)) c
      (∀ slice ∈ slices, slice.stop ≤ Word.top) fun _ d => c.Spends 0 d := by
  induction slices generalizing c with
  | nil =>
    refine (Exact.pure ()).congr (by simp) ?_
    rintro - _ _ ⟨-, rfl⟩
    exact .refl _
  | cons src rest ih =>
    obtain ⟨hsrc, hrest⟩ := List.forall_mem_cons.mp h
    have hends : (dst.stop ≤ Word.top ∧ ∀ slice ∈ [src], slice.stop ≤ Word.top) ↔
        src.stop ≤ Word.top := by
      rw [List.forall_mem_singleton, and_iff_right hword]
    rw [List.forall_mem_cons, ← hends]
    refine (emit_exact hc hregion hsrc).bind ?_
    rintro - - c₁ ⟨hstep, hspends, hvars⟩
    refine (ih hstep.tidy (hspends.hasRegion hregion) (hvars ▸ hrest)).mono ?_
    rintro - - d hspends'
    exact hspends.trans hspends'

/-- A node without a variable ends with its one instruction, if the result has the right size, has
elements and can be reserved, and no end is beyond the words. -/
lemma conclude_exact (instruction : Slice → Instruction) (hc : c.backend.Tidy)
    (hregion : c.HasRegion) (hfree : c.variableOf? site.node.port.id = none) {produced : ℕ}
    {q : Prop}
    (hplaced : ∀ {vars dst}, c.backend.vars.Prefix vars → (∀ written, dst.Placed vars written) →
      dst.length = produced → (instruction dst).Placed vars)
    (hwords : ∀ dst, ((instruction dst).dst.stop ≤ Word.top ∧
      ∀ slice ∈ (instruction dst).sources, slice.stop ≤ Word.top) ↔ dst.stop ≤ Word.top ∧ q) :
    Exact (do
        site.checkResult produced
        let dst ← site.output none
        emit (instruction dst)) c
      (site.node.size = produced ∧ (site.node.size ≠ 0 ∧
        c.backend.used + site.node.size ≤ c.backend.limit) ∧ site.node.size ≤ Word.top ∧ q)
      fun _ d => c.Spends site.node.size d := by
  refine (checkResult_exact produced).check_bind id ?_
  rintro hfit - -
  refine (output_exact hc hfree none).bind ?_
  rintro ⟨hsize, -⟩ dst c₁ ⟨htidy, hspends, hdst⟩
  refine (emit_exact htidy (hspends.hasRegion hregion) (hplaced hspends.vars
    (hdst.placed hsize) (hdst.length_eq.trans hfit))).congr ?_ ?_
  · rw [hwords dst, hdst.stop_eq]
  rintro - - d ⟨-, hspends', -⟩
  exact hspends.trans hspends'

section

variable (hmodel : site.model.Arranged) (hc : Ready site.model count c) (hregion : c.HasRegion)
variable (hnode : site.model.nodes[count]? = some site.node)

include hmodel hnode hc hregion

/-- Operations on one operand. -/
lemma lowerPointwise_exact {name : String} (hkind : site.node.kind.inputNames = [name])
    (hfree : c.variableOf? site.node.port.id = none) {instruction : Slice → Slice → Instruction}
    (hplaced : ∀ {vars dst src}, (∀ written, dst.Placed vars written) →
      src.Placed vars false → src.length = dst.length → (instruction dst src).Placed vars)
    (hwords : ∀ dst src, ((instruction dst src).dst.stop ≤ Word.top ∧
      ∀ slice ∈ (instruction dst src).sources, slice.stop ≤ Word.top) ↔
        dst.stop ≤ Word.top ∧ src.stop ≤ Word.top)
    (hshaped : site.node.Shaped ↔ Fills (site.node.operand 0) site.node.size) :
    Exact (site.lowerPointwise instruction) c
      (site.model.Lowers c.options.checkElementTypes site.node ∧
        c.backend.used + (gathering (site.node.operand 0) + site.node.size) ≤ c.backend.limit)
      fun _ d => c.Spends (gathering (site.node.operand 0) + site.node.size) d := by
  have harranged := hmodel.arranged _ (Model.mem_nodes hnode)
  set ranges := site.node.operand 0 with hranges
  have hrun : Exact (site.lowerPointwise instruction) c
      ((ranges ≠ [] ∧ (c.options.checkElementTypes = true → site.model.OneType ranges)) ∧
        (site.model.CanRead site.node ranges ∧
          (c.options.checkElementTypes = true → site.model.OneType ranges) ∧
          c.backend.used + gathering ranges ≤ c.backend.limit ∧
          (ranges.length ≠ 1 → InWords ranges)) ∧
        site.node.size = totalLength ranges ∧ (site.node.size ≠ 0 ∧
          c.backend.used + gathering ranges + site.node.size ≤ c.backend.limit) ∧
        site.node.size ≤ Word.top ∧ InWords ranges)
      fun _ d => c.Spends (gathering ranges + site.node.size) d := by
    refine (checkInput_exact hmodel hnode 0).check_bind id ?_
    rintro - - -
    refine (inputContiguous_exact hmodel hc hregion hnode 0).bind ?_
    rintro - src c₁ ⟨⟨code, hstep⟩, hspends, hlength, hends, hsrc⟩
    rw [← hspends.used, ← hspends.limit, ← hlength, ← hends]
    refine (conclude_exact _ hstep.tidy (hspends.hasRegion hregion)
      ((hstep.variableOf?_eq _).trans hfree) (fun hvars hdst hfit =>
        hplaced hdst (hsrc.mono hvars) hfit.symm) fun dst => hwords dst src).mono ?_
    rintro - - d hspends'
    exact hspends.trans hspends'
  refine hrun.iff ?_
  rw [Model.lowers_iff_single harranged hkind, hshaped]
  constructor
  · rintro ⟨⟨-, htypes⟩, ⟨hread, -, -, -⟩, hsum, ⟨-, hlimit⟩, hword, hwords⟩
    exact ⟨⟨hread, hwords.ends, ⟨hsum, hword⟩, htypes⟩, by omega⟩
  · rintro ⟨⟨hread, hends, ⟨hsum, hword⟩, htypes⟩, hlimit⟩
    have hwords : InWords ranges := ⟨hsum ▸ hword, hends⟩
    exact ⟨⟨hread.1, htypes⟩, ⟨hread, htypes, by omega, fun _ => hwords⟩, hsum,
      ⟨hsum ▸ hread.totalLength_ne_zero, by omega⟩, hword, hwords⟩

/-- Putting ranges one after another, in storage that can be had under a condition. -/
lemma lowerConcatenation_exact {name : String} (hkind : site.node.kind.inputNames = [name])
    (hshaped : site.node.Shaped ↔ Fills (site.node.operand 0) site.node.size) {amount : ℕ}
    {q : Prop}
    {destination : Attempt (Compiler Assembler) Slice}
    (hdestination : Exact destination c q
      fun dst d => d.backend.Tidy ∧ c.Spends amount d ∧ Whole d site.node.size dst) :
    Exact (site.lowerConcatenation destination) c
      (site.model.Lowers c.options.checkElementTypes site.node ∧ q)
      fun _ d => c.Spends amount d := by
  have harranged := hmodel.arranged _ (Model.mem_nodes hnode)
  have hrun : Exact (site.lowerConcatenation destination) c
      (site.model.CanRead site.node (site.node.operand 0) ∧
        (site.node.operand 0 ≠ [] ∧
          (c.options.checkElementTypes = true → site.model.OneType (site.node.operand 0))) ∧
        totalLength (site.node.operand 0) ≤ Word.top ∧
        site.node.size = totalLength (site.node.operand 0) ∧ q ∧
        ∀ range ∈ site.node.operand 0, range.Addressable)
      fun _ d => c.Spends amount d := by
    refine (inputSlices_exact hmodel hc hnode 0).check_bind And.left ?_
    rintro - slices ⟨-, hslices⟩
    refine (checkInput_exact hmodel hnode 0).check_bind id ?_
    rintro - - -
    refine (joinedSize_exact hslices).check_bind And.right ?_
    rintro hword _ ⟨rfl, -⟩
    refine (checkResult_exact _).check_bind id ?_
    rintro hsum - -
    refine hdestination.bind ?_
    rintro - dst c₁ ⟨htidy, hspends, id, var, rfl, hvar, hallocated, hstorage, hsize⟩
    rw [← hslices.words]
    refine (copyConsecutive_exact htidy (hspends.hasRegion hregion) hvar hallocated hstorage
      (by omega) (fun slice hslice => (hslices.placed slice hslice).mono hspends.vars)
      (by rw [hslices.total]; omega)).mono ?_
    rintro - - d ⟨-, hspends', -⟩
    exact hspends.trans hspends'
  refine hrun.iff ?_
  rw [Model.lowers_iff_single harranged hkind, hshaped]
  constructor
  · rintro ⟨hread, ⟨-, htypes⟩, hword, hsum, hq, hends⟩
    exact ⟨⟨hread, hends, ⟨hsum, hsum ▸ hword⟩, htypes⟩, hq⟩
  · rintro ⟨⟨hread, hends, ⟨hsum, hword⟩, htypes⟩, hq⟩
    exact ⟨hread, ⟨hread.1, htypes⟩, hsum ▸ hword, hsum, hq, hends⟩

lemma lowerReduce_exact {op : ReduceOp} (hkind : site.node.kind = .reduce op)
    (hfree : c.variableOf? site.node.port.id = none) :
    Exact (site.lowerReduce op) c
      (site.model.Lowers c.options.checkElementTypes site.node ∧
        c.backend.used + site.node.size ≤ c.backend.limit)
      fun _ d => c.Spends site.node.size d := by
  have hnames : site.node.kind.inputNames = ["input"] := by
    rw [hkind]
    rfl
  have harranged := hmodel.arranged _ (Model.mem_nodes hnode)
  have hshaped : site.node.Shaped ↔ site.node.size = 1 := by rw [Node.Shaped, hkind]
  have hrun : Exact (site.lowerReduce op) c
      ((site.node.operand 0 ≠ [] ∧
          (c.options.checkElementTypes = true → site.model.OneType (site.node.operand 0))) ∧
        site.model.CanRead site.node (site.node.operand 0) ∧ site.node.size = 1 ∧
        (site.node.size ≠ 0 ∧ c.backend.used + site.node.size ≤ c.backend.limit) ∧
        ∀ range ∈ site.node.operand 0, range.Addressable)
      fun _ d => c.Spends site.node.size d := by
    refine (checkInput_exact hmodel hnode 0).check_bind id ?_
    rintro - - -
    refine (inputSlices_exact hmodel hc hnode 0).check_bind And.left ?_
    rintro - slices ⟨-, hslices⟩
    refine (checkResult_exact 1).check_bind id ?_
    rintro hone - -
    refine (output_exact hc.tidy hfree _).bind ?_
    rintro ⟨hsize, -⟩ dst c₁ ⟨htidy, hspends, hdst⟩
    have hregion₁ := hspends.hasRegion hregion
    have hplaced := hdst.placed hsize
    have hword : dst.stop ≤ Word.top := by
      rw [hdst.stop_eq, hone]
      decide
    have hfill : (Instruction.fill dst op.identity).Placed c₁.backend.vars :=
      ⟨hplaced true, fun _ h => absurd h List.not_mem_nil, rfl⟩
    rw [← hslices.words]
    refine ((emit_exact htidy hregion₁ hfill).iff (iff_of_true
      ⟨hword, fun _ h => absurd h List.not_mem_nil⟩ trivial)).always_bind ?_
    rintro - c₂ ⟨hstep₂, hspends₂, hvars₂⟩
    refine (reduceAll_exact hstep₂.tidy (hspends₂.hasRegion hregion₁) hword
      fun src hsrc => ?_).mono ?_
    · have hfit : dst.length = 1 := hdst.length_eq.trans hone
      rw [hvars₂]
      exact ⟨hplaced true,
        List.forall_mem_singleton.mpr ((hslices.placed src hsrc).mono hspends.vars),
        by simp [Instruction.lengthsFit, hfit]⟩
    · rintro - - d hspends₃
      exact (hspends.trans hspends₂).trans hspends₃
  refine hrun.iff ?_
  rw [Model.lowers_iff_single harranged hnames, hshaped]
  constructor
  · rintro ⟨⟨-, htypes⟩, hread, hone, ⟨-, hlimit⟩, hends⟩
    exact ⟨⟨hread, hends, hone, htypes⟩, hlimit⟩
  · rintro ⟨⟨hread, hends, hone, htypes⟩, hlimit⟩
    exact ⟨⟨hread.1, htypes⟩, hread, hone, ⟨by omega, hlimit⟩, hends⟩

/-- Operations on two operands. -/
lemma pair_exact (hfree : c.variableOf? site.node.port.id = none) {amount : ℕ} {q : Prop}
    {rest : Slice → Slice → Attempt (Compiler Assembler) Unit}
    (hlimit : q → c.backend.used + (gathering (site.node.operand 0) +
      gathering (site.node.operand 1)) ≤ c.backend.limit)
    (hwords : q → InWords (site.node.operand 0) ∧ InWords (site.node.operand 1))
    (hrest : ∀ lhs rhs c₁, c₁.backend.Tidy → c₁.HasRegion →
      c₁.variableOf? site.node.port.id = none →
      c.Spends (gathering (site.node.operand 0) + gathering (site.node.operand 1)) c₁ →
      lhs.length = totalLength (site.node.operand 0) →
      rhs.length = totalLength (site.node.operand 1) →
      (lhs.stop ≤ Word.top ↔ InWords (site.node.operand 0)) →
      (rhs.stop ≤ Word.top ↔ InWords (site.node.operand 1)) →
      lhs.Placed c₁.backend.vars false → rhs.Placed c₁.backend.vars false →
      Exact (rest lhs rhs) c₁ q fun _ d => c₁.Spends amount d) :
    Exact (do
        site.checkOperands
        let lhs ← site.inputContiguous 0
        let rhs ← site.inputContiguous 1
        rest lhs rhs) c
      (site.model.CanRead site.node (site.node.operand 0) ∧
        site.model.CanRead site.node (site.node.operand 1) ∧
        (c.options.checkElementTypes = true →
          site.model.OneType (site.node.operand 0 ++ site.node.operand 1)) ∧ q)
      fun _ d => c.Spends (gathering (site.node.operand 0) + gathering (site.node.operand 1) +
        amount) d := by
  set lhsRanges := site.node.operand 0 with hlhsRanges
  set rhsRanges := site.node.operand 1 with hrhsRanges
  have hrun : Exact (do
        site.checkOperands
        let lhs ← site.inputContiguous 0
        let rhs ← site.inputContiguous 1
        rest lhs rhs) c
      (((lhsRanges ≠ [] ∧ rhsRanges ≠ []) ∧
          (c.options.checkElementTypes = true → site.model.OneType (lhsRanges ++ rhsRanges))) ∧
        (site.model.CanRead site.node lhsRanges ∧
          (c.options.checkElementTypes = true → site.model.OneType lhsRanges) ∧
          c.backend.used + gathering lhsRanges ≤ c.backend.limit ∧
          (lhsRanges.length ≠ 1 → InWords lhsRanges)) ∧
        (site.model.CanRead site.node rhsRanges ∧
          (c.options.checkElementTypes = true → site.model.OneType rhsRanges) ∧
          c.backend.used + gathering lhsRanges + gathering rhsRanges ≤ c.backend.limit ∧
          (rhsRanges.length ≠ 1 → InWords rhsRanges)) ∧ q)
      fun _ d => c.Spends (gathering lhsRanges + gathering rhsRanges + amount) d := by
    refine (checkOperands_exact hmodel hnode).check_bind id ?_
    rintro - - -
    refine (inputContiguous_exact hmodel hc hregion hnode 0).bind ?_
    rintro ⟨-, -, hwithin, -⟩ lhs c₁ ⟨⟨code, hstep⟩, hspends, hlength, hends, hlhs⟩
    have hready := hc.step hstep (hspends.within hwithin)
    have hregion₁ := hspends.hasRegion hregion
    rw [← hspends.used, ← hspends.limit, ← hstep.options]
    refine (inputContiguous_exact hmodel hready hregion₁ hnode 1).bind ?_
    rintro - rhs c₂ ⟨⟨code', hstep'⟩, hspends', hlength', hends', hrhs⟩
    have hsteps := hstep.trans hstep'
    have hspent := hspends.trans hspends'
    refine (hrest lhs rhs c₂ hsteps.tidy (hspent.hasRegion hregion)
      ((hsteps.variableOf?_eq _).trans hfree) hspent hlength hlength' hends hends'
      (hlhs.mono hstep'.backend.vars) hrhs).mono ?_
    rintro - - d hspends''
    exact hspent.trans hspends''
  refine hrun.iff ?_
  constructor
  · rintro ⟨⟨-, htypes⟩, ⟨hread, -⟩, ⟨hread', -⟩, hq⟩
    exact ⟨hread, hread', htypes, hq⟩
  · rintro ⟨hread, hread', htypes, hq⟩
    have hwithin := hlimit hq
    exact ⟨⟨⟨hread.1, hread'.1⟩, htypes⟩,
      ⟨hread, fun hstrict => (htypes hstrict).mono fun _ => List.mem_append_left _, by omega,
        fun _ => (hwords hq).1⟩,
      ⟨hread', fun hstrict => (htypes hstrict).mono fun _ => List.mem_append_right _, by omega,
        fun _ => (hwords hq).2⟩, hq⟩

lemma lowerBinary_exact {op : BinaryOp} (hkind : site.node.kind = .binary op)
    (hfree : c.variableOf? site.node.port.id = none) :
    Exact (site.lowerBinary op) c
      (site.model.Lowers c.options.checkElementTypes site.node ∧
        c.backend.used + (gathering (site.node.operand 0) + gathering (site.node.operand 1) +
          site.node.size) ≤ c.backend.limit)
      fun _ d => c.Spends (gathering (site.node.operand 0) + gathering (site.node.operand 1) +
        site.node.size) d := by
  have harranged := hmodel.arranged _ (Model.mem_nodes hnode)
  have hnames : site.node.kind.inputNames = ["lhs", "rhs"] := by
    rw [hkind]
    rfl
  refine (pair_exact hmodel hc hregion hnode hfree
    (q := Broadcasts (totalLength (site.node.operand 0)) (totalLength (site.node.operand 1))
        site.node.size ∧
      (site.node.size ≠ 0 ∧ c.backend.used + (gathering (site.node.operand 0) +
        gathering (site.node.operand 1)) + site.node.size ≤ c.backend.limit) ∧
      site.node.size ≤ Word.top ∧ InWords (site.node.operand 0) ∧ InWords (site.node.operand 1))
    (fun h => by omega) (fun h => h.2.2.2) ?_).iff ?_
  · intro lhs rhs c₁ htidy hregion₁ hfree₁ hspends hlhs hrhs hends hends' hplaced hplaced'
    rw [← broadcastSize?_eq_some, ← hlhs, ← hrhs, ← hends, ← hends', ← hspends.used,
      ← hspends.limit]
    cases hsize : broadcastSize? lhs.length rhs.length with
    | none => exact .of_error (fun h => nomatch h.1) rfl trivial
    | some size =>
      refine (conclude_exact (q := lhs.stop ≤ Word.top ∧ rhs.stop ≤ Word.top)
        (fun dst => .binary op dst lhs rhs) htidy hregion₁ hfree₁
        (fun hvars hdst hfit => ⟨hdst true, ?_, ?_⟩) fun dst => ?_).iff ?_
      · simp only [Instruction.sources, List.forall_mem_cons]
        exact ⟨hplaced.mono hvars, hplaced'.mono hvars, fun _ h => absurd h List.not_mem_nil⟩
      · simp [Instruction.lengthsFit, hsize, hfit]
      · simp [Instruction.dst, Instruction.sources]
      · rw [Option.some.injEq, eq_comm]
  · rw [Model.lowers_iff_pair harranged hnames, Node.Shaped, hkind]
    constructor
    · rintro ⟨hread, hread', htypes, hbroadcasts, ⟨-, hlimit⟩, -, hwords, hwords'⟩
      exact ⟨⟨hread, hread', hwords.ends, hwords'.ends,
        ⟨_, _, ⟨rfl, hwords.total⟩, ⟨rfl, hwords'.total⟩, hbroadcasts⟩, htypes⟩, by omega⟩
    · rintro ⟨⟨hread, hread', hends, hends', ⟨_, _, ⟨rfl, hword⟩, ⟨rfl, hword'⟩, hbroadcasts⟩,
        htypes⟩, hlimit⟩
      have hlhs := hread.totalLength_ne_zero
      have hrhs := hread'.totalLength_ne_zero
      have hsize : site.node.size ≠ 0 ∧ site.node.size ≤ Word.top := by
        rw [Broadcasts] at hbroadcasts
        omega
      exact ⟨hread, hread', htypes, hbroadcasts, ⟨hsize.1, by omega⟩, hsize.2, ⟨hword, hends⟩,
        hword', hends'⟩

lemma lowerDot_exact (hkind : site.node.kind = .dot)
    (hfree : c.variableOf? site.node.port.id = none) :
    Exact site.lowerDot c
      (site.model.Lowers c.options.checkElementTypes site.node ∧
        c.backend.used + (gathering (site.node.operand 0) + gathering (site.node.operand 1) +
          site.node.size) ≤ c.backend.limit)
      fun _ d => c.Spends (gathering (site.node.operand 0) + gathering (site.node.operand 1) +
        site.node.size) d := by
  have harranged := hmodel.arranged _ (Model.mem_nodes hnode)
  have hnames : site.node.kind.inputNames = ["lhs", "rhs"] := by
    rw [hkind]
    rfl
  refine (pair_exact hmodel hc hregion hnode hfree
    (q := totalLength (site.node.operand 0) = totalLength (site.node.operand 1) ∧
      site.node.size = 1 ∧ (site.node.size ≠ 0 ∧ c.backend.used + (gathering (site.node.operand 0) +
        gathering (site.node.operand 1)) + site.node.size ≤ c.backend.limit) ∧
      site.node.size ≤ Word.top ∧ InWords (site.node.operand 0) ∧ InWords (site.node.operand 1))
    (fun h => by omega) (fun h => h.2.2.2.2) ?_).iff ?_
  · intro lhs rhs c₁ htidy hregion₁ hfree₁ hspends hlhs hrhs hends hends' hplaced hplaced'
    rw [← hlhs, ← hrhs, ← hends, ← hends', ← hspends.used, ← hspends.limit]
    simp only
    split
    · next hdiffer => exact .of_error (fun h => hdiffer h.1) rfl trivial
    · next hsame =>
      refine (conclude_exact (q := lhs.stop ≤ Word.top ∧ rhs.stop ≤ Word.top)
        (fun dst => .dot dst lhs rhs) htidy hregion₁ hfree₁
        (fun hvars hdst hfit => ⟨hdst true, ?_, ?_⟩) fun dst => ?_).iff
        (and_iff_right (not_not.mp hsame)).symm
      · simp only [Instruction.sources, List.forall_mem_cons]
        exact ⟨hplaced.mono hvars, hplaced'.mono hvars, fun _ h => absurd h List.not_mem_nil⟩
      · simp [Instruction.lengthsFit, hfit, not_not.mp hsame]
      · simp [Instruction.dst, Instruction.sources]
  · rw [Model.lowers_iff_pair harranged hnames, Node.Shaped, hkind]
    constructor
    · rintro ⟨hread, hread', htypes, hsame, hone, ⟨-, hlimit⟩, -, hwords, hwords'⟩
      exact ⟨⟨hread, hread', hwords.ends, hwords'.ends,
        ⟨hone, _, ⟨rfl, hwords.total⟩, ⟨hsame, hwords.total⟩⟩, htypes⟩, by omega⟩
    · rintro ⟨⟨hread, hread', hends, hends', ⟨hone, _, ⟨rfl, hword⟩, ⟨hsame, -⟩⟩, htypes⟩, hlimit⟩
      have hsize : 1 ≤ Word.top := by decide
      exact ⟨hread, hread', htypes, hsame, hone, ⟨by omega, by omega⟩, by omega, ⟨hword, hends⟩,
        hsame ▸ hword, hends'⟩

omit hregion in
lemma lowerConstant_exact {values : List Float} (hkind : site.node.kind = .constant values) :
    Exact (discard (allocateData site.node.port values)) c
      (site.model.Lowers c.options.checkElementTypes site.node ∧
        c.backend.used + site.node.size ≤ c.backend.limit)
      fun _ d => c.Spends site.node.size d := by
  have harranged := hmodel.arranged _ (Model.mem_nodes hnode)
  have hshaped : site.node.Shaped ↔ values.length = site.node.size := by
    rw [Node.Shaped, hkind]
  rw [Model.lowers_iff_none harranged (by rw [hkind]; rfl), hshaped]
  have hport : site.node.port.size = site.node.size := rfl
  unfold allocateData
  by_cases hlength : values.length = site.node.size
  · have hrun : Exact (allocate ⟨none, .global, site.node.port.elementType, values.length,
        .data values⟩ >>= fun var => (modify fun compiler : Compiler Assembler =>
          compiler.bindPort site.node.port.id var) >>= fun _ => pure var) c
        (c.backend.used + values.length ≤ c.backend.limit)
        fun _ d => c.Spends values.length d := by
      refine (allocate_exact hc.tidy _).bind_always ?_
      rintro - id c₁ ⟨-, hspends, -⟩
      refine (Exact.change _).bind_always ?_
      rintro - - _ rfl
      refine (Exact.pure id).mono ?_
      rintro - _ _ ⟨-, rfl⟩
      exact hspends.bindPort _ _
    simp only [hport, if_neg (not_not.mpr hlength)]
    rw [hlength] at hrun ⊢
    refine hrun.discard.congr (iff_and_self.mpr fun _ => rfl) ?_
    rintro - - d ⟨-, hspends⟩
    exact hspends
  · simp only [hport, if_pos (show values.length ≠ site.node.size from hlength)]
    exact .of_error (fun h => hlength h.1) rfl trivial

omit hregion in
/-- An input or an output has its storage. -/
lemma boundOutput_exact (hstorage : site.node.kind.storage ≠ .global) :
    Exact site.boundOutput c True fun dst d => d = c ∧ ∃ id var, dst = ⟨id, 0, site.node.size⟩ ∧
      c.backend.vars.get? id = some var ∧ var.allocated = true ∧
      var.storage = site.node.kind.storage ∧ var.size = site.node.size := by
  obtain ⟨id, var, hid, hvar, hhome⟩ :=
    hc.prepared hnode (hmodel.numbered count _ hnode) hstorage
  rw [boundOutput_eq]
  refine .look ?_
  rw [hid, Option.elim_some]
  refine (Exact.pure _).mono ?_
  rintro - _ _ ⟨rfl, rfl⟩
  exact ⟨rfl, id, var, rfl, hvar, hc.stored _ _ _ hid hvar, hhome.storage, hhome.size⟩

/-- **When a node can be lowered.**  Whatever the kind of the next node, lowering it succeeds
exactly if it meets the requirements and its storage can be reserved. -/
lemma lower_exact :
    Exact site.lower c
      (site.model.Lowers c.options.checkElementTypes site.node ∧
        c.backend.used + site.node.demand ≤ c.backend.limit)
      fun _ d => c.Spends site.node.demand d := by
  have hid := hmodel.numbered count _ hnode
  have harranged := hmodel.arranged _ (Model.mem_nodes hnode)
  have hfree (hstorage : site.node.kind.storage = .global) :
      c.variableOf? site.node.port.id = none := hc.free hnode hid hstorage
  have hglobal (hstorage : site.node.kind.storage = .global) :
      site.node.demand = site.node.gathered + site.node.size := by
    rw [Node.demand, if_pos hstorage]
  have hbound (hgathered : site.node.gathered = 0) (hstorage : site.node.kind.storage ≠ .global) :
      site.node.demand = 0 := by
    rw [Node.demand, hgathered, if_neg hstorage]
  rw [lower]
  cases hkind : site.node.kind with
  | input =>
    have hshaped : site.node.Shaped ↔ True := by rw [Node.Shaped, hkind]
    rw [Model.lowers_iff_none harranged (by rw [hkind]; rfl), hshaped,
      hbound (by rw [Node.gathered, hkind]) (by rw [hkind]; decide)]
    refine (boundOutput_exact hmodel hc hnode (by rw [hkind]; decide)).discard.congr
      (iff_of_true trivial ⟨trivial, hc.within⟩) ?_
    rintro - - _ ⟨_, rfl, -⟩
    exact .refl _
  | output =>
    rw [hbound (by rw [Node.gathered, hkind]) (by rw [hkind]; decide)]
    refine lowerConcatenation_exact hmodel hc hregion hnode (by rw [hkind]; rfl)
      (by rw [Node.Shaped, hkind]) ?_
    refine (boundOutput_exact hmodel hc hnode (by rw [hkind]; decide)).congr
      (iff_of_true trivial hc.within) ?_
    rintro - dst _ ⟨rfl, id, var, rfl, hvar, hallocated, hstorage, hsize⟩
    refine ⟨hc.tidy, .refl _, id, var, rfl, hvar, hallocated, ?_, hsize⟩
    rw [hstorage, hkind]
    decide
  | constant values =>
    rw [hglobal (by rw [hkind]; rfl), Node.gathered, hkind, Nat.zero_add]
    exact lowerConstant_exact hmodel hc hnode hkind
  | concat =>
    rw [hglobal (by rw [hkind]; rfl), Node.gathered, hkind, Nat.zero_add]
    have hshaped : site.node.Shaped ↔ Fills (site.node.operand 0) site.node.size := by
      rw [Node.Shaped, hkind]
    refine (lowerConcatenation_exact hmodel hc hregion hnode (by rw [hkind]; rfl) hshaped
      (output_exact hc.tidy (hfree (by rw [hkind]; rfl)) none)).iff ?_
    refine and_congr_right fun hlowers => and_iff_right ?_
    have hread := hlowers.canRead 0 (by rw [hkind]; exact Nat.one_pos)
    exact (hshaped.mp hlowers.shape).1 ▸ hread.totalLength_ne_zero
  | reduce op =>
    rw [hglobal (by rw [hkind]; rfl), Node.gathered, hkind, Nat.zero_add]
    exact lowerReduce_exact hmodel hc hregion hnode hkind (hfree (by rw [hkind]; rfl))
  | binary op =>
    rw [hglobal (by rw [hkind]; rfl), Node.gathered, hkind]
    exact lowerBinary_exact hmodel hc hregion hnode hkind (hfree (by rw [hkind]; rfl))
  | dot =>
    rw [hglobal (by rw [hkind]; rfl), Node.gathered, hkind]
    exact lowerDot_exact hmodel hc hregion hnode hkind (hfree (by rw [hkind]; rfl))
  | unary op =>
    rw [hglobal (by rw [hkind]; rfl), Node.gathered, hkind]
    refine lowerPointwise_exact hmodel hc hregion hnode (by rw [hkind]; rfl)
      (hfree (by rw [hkind]; rfl)) (fun hdst hsrc hfit => ⟨hdst true, ?_, ?_⟩) (fun dst src => ?_)
      (by rw [Node.Shaped, hkind])
    · exact List.forall_mem_singleton.mpr hsrc
    · simp [Instruction.lengthsFit, hfit]
    · simp [Instruction.dst, Instruction.sources]
  | accumulator =>
    rw [hglobal (by rw [hkind]; rfl), Node.gathered, hkind]
    refine lowerPointwise_exact hmodel hc hregion hnode (by rw [hkind]; rfl)
      (hfree (by rw [hkind]; rfl)) (fun hdst hsrc hfit => ⟨hdst true, ?_, ?_⟩) (fun dst src => ?_)
      (by rw [Node.Shaped, hkind])
    · exact List.forall_mem_cons.mpr ⟨hdst false, List.forall_mem_singleton.mpr hsrc⟩
    · simp [Instruction.lengthsFit, hfit]
    · simp [Instruction.dst, Instruction.sources]

end

end Site
end Dataflow
