import Dataflow.Proofs.Compiler.Operands

/-!
# Lowering nodes

Lowering a node that has no variable yet gives it one behind all others and adds its code; lowering
an input or an output uses the variable that it has.  In either case the bindings of all other ports
stay (`Lowered`).
-/

namespace Dataflow

open Attempt

/-- The storage class of the variable of a node's port. -/
def NodeKind.storage : NodeKind → StorageClass
  | .input => .input
  | .output => .output
  | _ => .global

/-- A variable that is fit to hold the port of a node. -/
structure Home (node : Node) (var : Variable) : Prop where
  elementType : var.elementType = node.elementType
  size : var.size = node.size
  storage : var.storage = node.kind.storage
  data : ∀ values, node.kind = .constant values →
    var.initializer = .data values ∧ values.length = node.size
  zero : node.kind = .accumulator ∨ node.kind = .output → var.initializer = .zero

/-- The port of a node is never held in scratch storage. -/
lemma Home.ne_scratch {node : Node} {var : Variable} (h : Home node var) :
    var.storage ≠ .scratch := by
  rw [h.storage]
  cases node.kind <;> exact fun heq => (nomatch heq)

namespace Compiler

/-- The compiler has added instructions and variables, and has given a port a new variable if it had
none. -/
structure Moves (own : PortId) (c : Compiler Assembler) (added : List Instruction)
    (d : Compiler Assembler) : Prop where
  backend : c.backend.Step added d.backend
  compiled : d.compiled = c.compiled
  options : d.options = c.options
  keeps : ∀ port var, c.variableOf? port = some var → d.variableOf? port = some var
  only : ∀ port var, d.variableOf? port = some var → c.variableOf? port = some var ∨
    port = own ∧ c.backend.vars.size ≤ var.index

/-- A node that has its variable from the start. -/
def Prepared (node : Node) (c : Compiler Assembler) : Prop :=
  ∃ id var, c.variableOf? node.port.id = some id ∧ c.backend.vars.get? id = some var ∧
    Home node var

/-- Every variable that has been added is that of a port, or an instruction that has been added
reads it. -/
def Employs (own : PortId) (c : Compiler Assembler) (added : List Instruction)
    (d : Compiler Assembler) : Prop :=
  ∀ id : VarId, c.backend.vars.size ≤ id.index → id.index < d.backend.vars.size →
    d.variableOf? own = some id ∨
      ∃ instruction ∈ added, ∃ slice ∈ instruction.sources, slice.var = id

/-- A node has been lowered. -/
structure Lowered (model : Model) (node : Node) (c : Compiler Assembler)
    (added : List Instruction) (d : Compiler Assembler) : Prop
    extends Moves node.port.id c added d where
  own : ∃ id var, d.variableOf? node.port.id = some id ∧ d.backend.vars.get? id = some var ∧
    Home node var ∧
    NodeCode model d.backend.vars c.backend.vars.size d.variableOf? node id added
  employs : Employs node.port.id c added d

lemma employs_of_vars_eq {c d : Compiler Assembler} (h : d.backend.vars = c.backend.vars)
    (own : PortId) (added : List Instruction) : Employs own c added d :=
  fun _ hnew hlt => absurd (h ▸ hlt) (not_lt.mpr hnew)

variable {c d e : Compiler Assembler} {added added' : List Instruction} {own : PortId}

lemma Step.moves (h : c.Step added d) : Moves own c added d where
  backend := h.backend
  compiled := h.compiled
  options := h.options
  keeps port _ hvar := (h.variableOf?_eq port).trans hvar
  only port _ hvar := .inl ((h.variableOf?_eq port).symm.trans hvar)

lemma Step.then (h : c.Step added d) (h' : Moves own d added' e) :
    Moves own c (added ++ added') e where
  backend := h.backend.trans h'.backend
  compiled := h'.compiled.trans h.compiled
  options := h'.options.trans h.options
  keeps port var hvar := h'.keeps port var ((h.variableOf?_eq port).trans hvar)
  only port var hvar := by
    rcases h'.only port var hvar with hold | ⟨hport, hnew⟩
    · exact .inl ((h.variableOf?_eq port).symm.trans hold)
    · exact .inr ⟨hport, h.backend.vars.size_le.trans hnew⟩

lemma Moves.step (h : Moves own c added d) (h' : d.Step added' e) :
    Moves own c (added ++ added') e where
  backend := h.backend.trans h'.backend
  compiled := h'.compiled.trans h.compiled
  options := h'.options.trans h.options
  keeps port var hvar := (h'.variableOf?_eq port).trans (h.keeps port var hvar)
  only port var hvar := h.only port var ((h'.variableOf?_eq port).symm.trans hvar)

/-- Binding a port that had no variable to a new one. -/
lemma Step.bindPort (h : c.Step added d) (hfree : c.variableOf? own = none) {var : VarId}
    (hvar : c.backend.vars.size ≤ var.index) : Moves own c added (d.bindPort own var) where
  backend := h.backend
  compiled := h.compiled
  options := h.options
  keeps port other hother := by
    have hne : own ≠ port := by
      rintro rfl
      rw [hfree] at hother
      cases hother
    exact (d.scopes.lookup_bind_of_ne hne var).trans ((h.variableOf?_eq port).trans hother)
  only port other hother := by
    by_cases heq : own = port
    · subst heq
      rw [variableOf?_bindPort, Option.some.injEq] at hother
      exact .inr ⟨rfl, hother ▸ hvar⟩
    · have hlookup := d.scopes.lookup_bind_of_ne heq var
      exact .inl ((h.variableOf?_eq port).symm.trans (hlookup.symm.trans hother))

/-! ## Allocating the node's variable -/

/-- Allocating the variable of a port binds the port to the last variable. -/
lemma allocateBound_ok (hc : c.backend.Tidy) {spec : VariableSpec} {own : PortId} {id : VarId}
    (h : (do
      let var ← allocate spec
      modify fun compiler => compiler.bindPort own var
      return var : Attempt (Compiler Assembler) VarId) c = .ok id d) :
    id = c.backend.vars.next ∧ ∃ c', c.Step [] c' ∧ d = c'.bindPort own id ∧
      c'.backend.vars.get? id = some (c.backend.allotted spec) ∧
      c'.backend.vars.size = c.backend.vars.size + 1 := by
  obtain ⟨var, c', hallocate, h⟩ := bind_eq_ok.mp h
  obtain ⟨rfl, rfl⟩ := EStateM.Result.ok.inj h
  obtain ⟨hstep, rfl, hlist⟩ := allocate_ok hc hallocate
  refine ⟨rfl, c', hstep, rfl, VariableTable.get?_next hlist, ?_⟩
  rw [← VariableTable.length_toList, hlist, List.length_append, VariableTable.length_toList,
    List.length_singleton]

lemma throw_bind_run_ne_ok {α γ : Type} {e : CompileError} {f : α → Attempt (Compiler Assembler) γ}
    {b : γ} : (throw e >>= f) c ≠ .ok b d := fun h => (nomatch h)

end Compiler

namespace Site

open Compiler

variable {site : Site} {c d : Compiler Assembler}

/-- A node without a variable gets a new one. -/
lemma output_ok (hc : c.backend.Tidy) (hfree : c.variableOf? site.node.port.id = none)
    {initial : Option Float} {dst : Slice} (h : site.output initial c = .ok dst d) :
    ∃ id var, dst = ⟨id, 0, site.node.size⟩ ∧ Moves site.node.port.id c [] d ∧
      d.variableOf? site.node.port.id = some id ∧ d.backend.vars.get? id = some var ∧
      var.elementType = site.node.elementType ∧ var.size = site.node.size ∧
      var.storage = .global ∧ (initial = none → var.initializer = .zero) ∧
      id = c.backend.vars.next ∧ d.backend.vars.size = c.backend.vars.size + 1 := by
  obtain ⟨id, _, hget, h⟩ := bind_eq_ok.mp h
  obtain ⟨rfl, rfl⟩ := EStateM.Result.ok.inj h
  rw [getOrAllocatePort_eq] at hget
  obtain ⟨_, _, hlook, hget⟩ := bind_eq_ok.mp hget
  obtain ⟨rfl, rfl⟩ := EStateM.Result.ok.inj hlook
  rw [hfree, Option.elim_none] at hget
  unfold allocatePort at hget
  simp only at hget
  split at hget
  · exact absurd hget throw_bind_run_ne_ok
  · obtain ⟨rfl, c', hstep, rfl, hvar, hone⟩ := allocateBound_ok hc hget
    refine ⟨_, _, rfl, hstep.bindPort hfree (le_refl _), variableOf?_bindPort _ _ _, hvar, rfl,
      rfl, rfl, ?_, rfl, hone⟩
    rintro rfl
    rfl

lemma boundOutput_ok {dst : Slice} (h : site.boundOutput c = .ok dst d) :
    d = c ∧ ∃ id, c.variableOf? site.node.port.id = some id ∧ dst = ⟨id, 0, site.node.size⟩ := by
  rw [boundOutput_eq] at h
  obtain ⟨_, _, hlook, h⟩ := bind_eq_ok.mp h
  obtain ⟨rfl, rfl⟩ := EStateM.Result.ok.inj hlook
  cases hid : c.variableOf? site.node.port.id with
  | none =>
    rw [hid, Option.elim_none] at h
    exact absurd (ofExcept_eq_ok.mp h).1 unbound_ne_ok
  | some id =>
    rw [hid, Option.elim_some] at h
    obtain ⟨rfl, rfl⟩ := EStateM.Result.ok.inj h
    exact ⟨rfl, id, rfl, rfl⟩

/-! ## Checks -/

lemma checkInput_ok {index : ℕ} (h : site.checkInput index c = .ok () d) : d = c := by
  obtain ⟨_, _, hlook, h⟩ := bind_eq_ok.mp h
  obtain ⟨rfl, rfl⟩ := EStateM.Result.ok.inj hlook
  rw [discard_eq] at h
  obtain ⟨_, _, hcheck, h⟩ := bind_eq_ok.mp h
  obtain ⟨-, rfl⟩ := ofExcept_eq_ok.mp hcheck
  exact (EStateM.Result.ok.inj h).2.symm

lemma checkOperands_ok (h : site.checkOperands c = .ok () d) : d = c := by
  obtain ⟨_, _, hlook, h⟩ := bind_eq_ok.mp h
  obtain ⟨rfl, rfl⟩ := EStateM.Result.ok.inj hlook
  exact (ofExcept_eq_ok.mp h).2.symm

lemma checkResult_ok {produced : ℕ} (h : site.checkResult produced c = .ok () d) :
    d = c ∧ site.node.size = produced := by
  obtain ⟨hcheck, rfl⟩ := ofExcept_eq_ok.mp h
  refine ⟨rfl, ?_⟩
  rw [checkSize] at hcheck
  by_contra hne
  rw [if_neg hne] at hcheck
  exact absurd hcheck malformed_ne_ok

/-! ## The kinds of nodes -/

/-- What every node without a variable of its own has in common: its operands are prepared, it gets
its variable, and its own instructions follow. -/
lemma lowered_of_output {c₁ c₂ : Compiler Assembler} {code code' : List Instruction}
    {initial : Option Float} {dst : Slice} (hfree : c.variableOf? site.node.port.id = none)
    (hoperands : c.Step code c₁) (houtput : site.output initial c₁ = .ok dst c₂)
    (hused : ∀ id : VarId, c.backend.vars.size ≤ id.index → id.index < c₁.backend.vars.size →
      ∃ instruction ∈ code', ∃ slice ∈ instruction.sources, slice.var = id)
    (hown : c₂.backend.Tidy → c₂.Step code' d ∧ d.backend.vars = c₂.backend.vars)
    (hstorage : site.node.kind.storage = .global)
    (hdata : ∀ values, site.node.kind ≠ .constant values)
    (hzero : site.node.kind = .accumulator → initial = none)
    (hcode : ∀ id, dst = ⟨id, 0, site.node.size⟩ → c₁.backend.vars.Prefix d.backend.vars →
      (∀ port var, c.variableOf? port = some var → d.variableOf? port = some var) →
      NodeCode site.model d.backend.vars c.backend.vars.size d.variableOf? site.node id
        (code ++ code')) :
    Lowered site.model site.node c (code ++ code') d := by
  have hfree' := (hoperands.variableOf?_eq _).trans hfree
  obtain ⟨id, var, rfl, hmoves, hid, hvar, htype, hsize, hglobal, hinitial, hlast, hone⟩ :=
    output_ok hoperands.tidy hfree' houtput
  obtain ⟨hstep, hvars⟩ := hown hmoves.backend.tidy
  have hall := (hoperands.then hmoves).step hstep
  rw [List.append_nil] at hall
  refine ⟨hall, ⟨id, var, (hstep.variableOf?_eq _).trans hid, hstep.backend.vars.get? hvar,
    ⟨htype, hsize, hglobal.trans hstorage.symm, fun values hkind => absurd hkind (hdata values),
      fun hkind => hinitial (hkind.elim hzero fun houtput => ?_)⟩,
    hcode id rfl (hmoves.backend.vars.trans hstep.backend.vars) hall.keeps⟩,
    fun other hnew hlt => ?_⟩
  · rw [houtput] at hstorage
    cases hstorage
  · rw [hvars, hone] at hlt
    rcases Nat.lt_succ_iff_lt_or_eq.mp hlt with hbefore | heq
    · obtain ⟨instruction, hmem, hreads⟩ := hused other hnew hbefore
      exact .inr ⟨instruction, List.mem_append_right _ hmem, hreads⟩
    · have hother : other = id := hlast ▸ congrArg VarId.mk heq
      rw [hother]
      exact .inl ((hstep.variableOf?_eq _).trans hid)

lemma forM_emit_ok (hc : c.backend.Tidy) {emitted : Slice → Instruction} {slices : List Slice}
    (h : slices.forM (fun src => emit (emitted src)) c = .ok () d) :
    c.Step (slices.map emitted) d ∧ d.backend.vars = c.backend.vars := by
  induction slices generalizing c with
  | nil =>
    obtain ⟨-, rfl⟩ := EStateM.Result.ok.inj h
    exact ⟨.refl hc, rfl⟩
  | cons src rest ih =>
    obtain ⟨_, c', hemit, hrest⟩ := bind_eq_ok.mp h
    obtain ⟨hstep, hvars⟩ := emit_ok hc hemit
    obtain ⟨hsteps, hvars'⟩ := ih hstep.tidy hrest
    exact ⟨hstep.trans hsteps, hvars'.trans hvars⟩

/-- Two operands, one prepared after the other. -/
lemma operands_ok (hc : c.backend.Tidy)
    (hbound : ∀ port var, c.variableOf? port = some var → var.index < c.backend.vars.size)
    {lhs rhs : Slice} {c₁ c₂ : Compiler Assembler}
    (hlhs : site.inputContiguous 0 c = .ok lhs c₁) (hrhs : site.inputContiguous 1 c₁ = .ok rhs c₂) :
    ∃ code code', c.Step (code ++ code') c₂ ∧
      Operand site.model c₂.backend.vars c.backend.vars.size c.variableOf?
        (site.node.operand 0) code lhs ∧
      Operand site.model c₂.backend.vars c.backend.vars.size c.variableOf?
        (site.node.operand 1) code' rhs ∧
      (∀ instruction ∈ code', instruction.dst.var ≠ lhs.var) ∧
      ∀ id, c.backend.vars.size ≤ id.index → id.index < c₂.backend.vars.size →
        ∃ slice ∈ [lhs, rhs], slice.var = id := by
  obtain ⟨code, hstep, hoperand, -, hlt, hused⟩ := inputContiguous_ok hc hbound hlhs
  have hplace : c₁.variableOf? = c.variableOf? := funext hstep.variableOf?_eq
  have hbound' : ∀ port var, c₁.variableOf? port = some var → var.index < c₁.backend.vars.size :=
    fun port var hvar => (hbound port var (by rwa [← hplace])).trans_le hstep.backend.vars.size_le
  obtain ⟨code', hstep', hoperand', hnew, -, hused'⟩ := inputContiguous_ok hstep.tidy hbound' hrhs
  rw [hplace] at hoperand'
  refine ⟨code, code', hstep.trans hstep',
    hoperand.mono hstep'.backend.vars (le_refl _) fun _ _ h => h,
    hoperand'.mono (.refl _) hstep.backend.vars.size_le fun _ _ h => h,
    fun instruction hmem heq => ?_, fun id hid hlast => ?_⟩
  · exact absurd (heq ▸ hnew instruction hmem) (not_le.mpr hlt)
  · by_cases hfirst : id.index < c₁.backend.vars.size
    · exact ⟨lhs, List.mem_cons_self, hused id hid hfirst⟩
    · exact ⟨rhs, List.mem_cons_of_mem _ List.mem_cons_self, hused' id (not_lt.mp hfirst) hlast⟩

/-- A concatenation copies what it reads, one slice after another, to where the result belongs. -/
lemma lowerConcatenation_ok {destination : Attempt (Compiler Assembler) Slice}
    (h : site.lowerConcatenation destination c = .ok () d) :
    ∃ slices dst c₁, List.Forall₂ (Reads site.model c.variableOf?) (site.node.operand 0) slices ∧
      site.node.size = (slices.map Slice.length).sum ∧ destination c = .ok dst c₁ ∧
      copyConsecutive dst 0 slices c₁ = .ok () d := by
  obtain ⟨slices, _, hslices, h₁⟩ := bind_eq_ok.mp h
  obtain ⟨rfl, hreads⟩ := inputSlices_ok hslices
  obtain ⟨_, _, hinput, h₂⟩ := bind_eq_ok.mp h₁
  obtain rfl := checkInput_ok hinput
  obtain ⟨size, _, htotal, h₃⟩ := bind_eq_ok.mp h₂
  obtain ⟨hsum, rfl⟩ := ofExcept_eq_ok.mp htotal
  obtain ⟨_, _, hresult, h₄⟩ := bind_eq_ok.mp h₃
  obtain ⟨rfl, hsize⟩ := checkResult_ok hresult
  obtain ⟨dst, c₁, hdestination, hcopies⟩ := bind_eq_ok.mp h₄
  exact ⟨slices, dst, c₁, hreads, hsize.trans (joinedSize_eq_ok.mp hsum).2, hdestination,
    hcopies⟩

section

variable (hc : c.backend.Tidy) (hfree : c.variableOf? site.node.port.id = none)

include hc hfree

lemma lowerConcat_ok (hkind : site.node.kind = .concat)
    (h : site.lowerConcatenation (site.output none) c = .ok () d) :
    ∃ code, Lowered site.model site.node c code d := by
  obtain ⟨slices, dst, c', hreads, hsize, houtput, hcopies⟩ := lowerConcatenation_ok h
  refine ⟨_, lowered_of_output hfree (.refl hc) houtput
    (fun _ hnew hlt => absurd hlt (not_lt.mpr hnew))
    (fun htidy => copyConsecutive_ok htidy hcopies) (by rw [hkind]; rfl)
    (fun values hvalues => by rw [hkind] at hvalues; cases hvalues) (fun _ => rfl) ?_⟩
  rintro id rfl - hplace
  exact .concatenation (.inr hkind) (Reads.forall_mono hplace hreads) hsize

lemma lowerReduce_ok {op : ReduceOp} (hkind : site.node.kind = .reduce op)
    (h : site.lowerReduce op c = .ok () d) :
    ∃ code, Lowered site.model site.node c code d := by
  obtain ⟨_, _, hinput, h₁⟩ := bind_eq_ok.mp h
  obtain rfl := checkInput_ok hinput
  obtain ⟨slices, _, hslices, h₂⟩ := bind_eq_ok.mp h₁
  obtain ⟨rfl, hreads⟩ := inputSlices_ok hslices
  obtain ⟨_, _, hresult, h₃⟩ := bind_eq_ok.mp h₂
  obtain ⟨rfl, hsize⟩ := checkResult_ok hresult
  obtain ⟨dst, c₁, houtput, h₄⟩ := bind_eq_ok.mp h₃
  obtain ⟨_, c₂, hfill, h₅⟩ := bind_eq_ok.mp h₄
  have hown (htidy : c₁.backend.Tidy) :
      c₁.Step (.fill dst op.identity :: slices.map fun src => .reduce op dst src) d ∧
        d.backend.vars = c₁.backend.vars := by
    obtain ⟨hstep, hvars⟩ := emit_ok htidy hfill
    obtain ⟨hsteps, hvars'⟩ := forM_emit_ok hstep.tidy h₅
    exact ⟨hstep.trans hsteps, hvars'.trans hvars⟩
  refine ⟨_, lowered_of_output hfree (.refl hc) houtput
    (fun _ hnew hlt => absurd hlt (not_lt.mpr hnew)) hown (by rw [hkind]; rfl)
    (fun values hvalues => by rw [hkind] at hvalues; cases hvalues)
    (fun hacc => by rw [hkind] at hacc; cases hacc) ?_⟩
  rintro id rfl - hplace
  exact .reduce hkind hsize (Reads.forall_mono hplace hreads)

variable (hbound : ∀ port var, c.variableOf? port = some var → var.index < c.backend.vars.size)

include hbound

/-- The operations on one operand. -/
lemma lowerPointwise_ok {instruction : Slice → Slice → Instruction}
    (hsource : ∀ dst src, src ∈ (instruction dst src).sources)
    (hstorage : site.node.kind.storage = .global)
    (hdata : ∀ values, site.node.kind ≠ .constant values)
    (hcode : ∀ {vars old place id code src},
      Operand site.model vars old place (site.node.operand 0) code src →
      NodeCode site.model vars old place site.node id
        (code ++ [instruction ⟨id, 0, site.node.size⟩ src]))
    (h : site.lowerPointwise instruction c = .ok () d) :
    ∃ code, Lowered site.model site.node c code d := by
  obtain ⟨_, _, hinput, h₁⟩ := bind_eq_ok.mp h
  obtain rfl := checkInput_ok hinput
  obtain ⟨src, c₁, hsrc, h₂⟩ := bind_eq_ok.mp h₁
  obtain ⟨code, hstep, hoperand, -, -, hused⟩ := inputContiguous_ok hc hbound hsrc
  obtain ⟨_, _, hresult, h₃⟩ := bind_eq_ok.mp h₂
  obtain ⟨rfl, -⟩ := checkResult_ok hresult
  obtain ⟨dst, c₂, houtput, h₄⟩ := bind_eq_ok.mp h₃
  refine ⟨_, lowered_of_output hfree hstep houtput
    (fun id hnew hlt => ⟨_, List.mem_cons_self, src, hsource dst src, hused id hnew hlt⟩)
    (fun htidy => emit_ok htidy h₄) hstorage hdata (fun _ => rfl) ?_⟩
  rintro id rfl hvars hplace
  exact hcode (hoperand.mono hvars (le_refl _) hplace)

lemma lowerBinary_ok {op : BinaryOp} (hkind : site.node.kind = .binary op)
    (h : site.lowerBinary op c = .ok () d) :
    ∃ code, Lowered site.model site.node c code d := by
  obtain ⟨_, _, hcheck, h₁⟩ := bind_eq_ok.mp h
  obtain rfl := checkOperands_ok hcheck
  obtain ⟨lhs, c₁, hlhs, h₂⟩ := bind_eq_ok.mp h₁
  obtain ⟨rhs, c₂, hrhs, h₃⟩ := bind_eq_ok.mp h₂
  obtain ⟨code, code', hstep, hoperand, hoperand', hkeep, hused⟩ :=
    operands_ok hc hbound hlhs hrhs
  cases hsize : broadcastSize? lhs.length rhs.length with
  | none =>
    rw [hsize] at h₃
    exact absurd (ofExcept_eq_ok.mp h₃).1 malformed_ne_ok
  | some size =>
    rw [hsize] at h₃
    obtain ⟨_, _, hresult, h₄⟩ := bind_eq_ok.mp h₃
    obtain ⟨rfl, -⟩ := checkResult_ok hresult
    obtain ⟨dst, c₃, houtput, h₅⟩ := bind_eq_ok.mp h₄
    refine ⟨_, lowered_of_output hfree hstep houtput
      (fun id hnew hlt => ⟨.binary op dst lhs rhs, List.mem_cons_self, hused id hnew hlt⟩)
      (fun htidy => emit_ok htidy h₅)
      (by rw [hkind]; rfl) (fun values hvalues => by rw [hkind] at hvalues; cases hvalues)
      (fun _ => rfl) ?_⟩
    rintro id rfl hvars hplace
    exact .binary hkind (hoperand.mono hvars (le_refl _) hplace)
      (hoperand'.mono hvars (le_refl _) hplace) hkeep

lemma lowerDot_ok (hkind : site.node.kind = .dot) (h : site.lowerDot c = .ok () d) :
    ∃ code, Lowered site.model site.node c code d := by
  obtain ⟨_, _, hcheck, h₁⟩ := bind_eq_ok.mp h
  obtain rfl := checkOperands_ok hcheck
  obtain ⟨lhs, c₁, hlhs, h₂⟩ := bind_eq_ok.mp h₁
  obtain ⟨rhs, c₂, hrhs, h₃⟩ := bind_eq_ok.mp h₂
  obtain ⟨code, code', hstep, hoperand, hoperand', hkeep, hused⟩ :=
    operands_ok hc hbound hlhs hrhs
  simp only at h₃
  split at h₃
  · obtain ⟨_, _, hfail, -⟩ := bind_eq_ok.mp h₃
    exact absurd (ofExcept_eq_ok.mp hfail).1 malformed_ne_ok
  · obtain ⟨_, _, hresult, h₄⟩ := bind_eq_ok.mp h₃
    obtain ⟨rfl, hsize⟩ := checkResult_ok hresult
    obtain ⟨dst, c₃, houtput, h₅⟩ := bind_eq_ok.mp h₄
    refine ⟨_, lowered_of_output hfree hstep houtput
      (fun id hnew hlt => ⟨.dot dst lhs rhs, List.mem_cons_self, hused id hnew hlt⟩)
      (fun htidy => emit_ok htidy h₅)
      (by rw [hkind]; rfl) (fun values hvalues => by rw [hkind] at hvalues; cases hvalues)
      (fun _ => rfl) ?_⟩
    rintro id rfl hvars hplace
    exact .dot hkind hsize (hoperand.mono hvars (le_refl _) hplace)
      (hoperand'.mono hvars (le_refl _) hplace) hkeep

end

lemma lowerConstant_ok (hc : c.backend.Tidy) (hfree : c.variableOf? site.node.port.id = none)
    {values : List Float} (hkind : site.node.kind = .constant values)
    (h : discard (allocateData site.node.port values) c = .ok () d) :
    ∃ code, Lowered site.model site.node c code d := by
  rw [discard_eq] at h
  obtain ⟨id, _, hdata, h₁⟩ := bind_eq_ok.mp h
  obtain ⟨-, rfl⟩ := EStateM.Result.ok.inj h₁
  rw [allocateData] at hdata
  simp only at hdata
  split at hdata
  · exact absurd hdata throw_bind_run_ne_ok
  · next hlength =>
    obtain ⟨rfl, c', hstep, rfl, hvar, hone⟩ := allocateBound_ok hc hdata
    have hsize : values.length = site.node.size := not_not.mp hlength
    refine ⟨[], hstep.bindPort hfree (le_refl _), ⟨_, _, variableOf?_bindPort _ _ _, hvar,
      ⟨rfl, hsize, by rw [hkind]; rfl, fun others hothers => ?_, fun hacc => ?_⟩, .constant hkind⟩,
      fun id hnew hlt => .inl ?_⟩
    · rw [hkind, NodeKind.constant.injEq] at hothers
      rw [← hothers]
      exact ⟨rfl, hsize⟩
    · rw [hkind] at hacc
      rcases hacc with hacc | hacc <;> cases hacc
    · have hindex : c.backend.vars.size = id.index := by
        have hlt' : id.index < c'.backend.vars.size := hlt
        omega
      rw [variableOf?_bindPort]
      exact congrArg some (congrArg VarId.mk hindex)

lemma lowerInput_ok (hc : c.backend.Tidy) (hown : Prepared site.node c)
    (hkind : site.node.kind = .input) (h : discard site.boundOutput c = .ok () d) :
    ∃ code, Lowered site.model site.node c code d := by
  rw [discard_eq] at h
  obtain ⟨_, _, hbound, h₁⟩ := bind_eq_ok.mp h
  obtain ⟨-, rfl⟩ := EStateM.Result.ok.inj h₁
  obtain ⟨rfl, -⟩ := boundOutput_ok hbound
  obtain ⟨id, var, hid, hvar, hhome⟩ := hown
  exact ⟨[], (Step.refl hc).moves, ⟨id, var, hid, hvar, hhome, .input hkind⟩,
    employs_of_vars_eq rfl _ _⟩

lemma lowerOutput_ok (hc : c.backend.Tidy) (hown : Prepared site.node c)
    (hkind : site.node.kind = .output)
    (h : site.lowerConcatenation site.boundOutput c = .ok () d) :
    ∃ code, Lowered site.model site.node c code d := by
  obtain ⟨slices, dst, _, hreads, hsize, hbound, hcopies⟩ := lowerConcatenation_ok h
  obtain ⟨rfl, id, hid, rfl⟩ := boundOutput_ok hbound
  obtain ⟨other, var, hother, hvar, hhome⟩ := hown
  obtain rfl : id = other := Option.some.inj (hid.symm.trans hother)
  obtain ⟨hstep, hvars⟩ := copyConsecutive_ok hc hcopies
  exact ⟨_, hstep.moves, ⟨id, var, (hstep.variableOf?_eq _).trans hid,
    hstep.backend.vars.get? hvar, hhome, .concatenation (.inl hkind)
      (Reads.forall_mono (fun port _ h => (hstep.variableOf?_eq port).trans h) hreads) hsize⟩,
    employs_of_vars_eq hvars _ _⟩

/-- Lowering a node, whatever its kind, gives the code of that kind. -/
lemma lower_ok (site : Site) (hc : c.backend.Tidy)
    (hbound : ∀ port var, c.variableOf? port = some var → var.index < c.backend.vars.size)
    (hparameter : site.node.kind.storage ≠ .global → Prepared site.node c)
    (hfree : site.node.kind.storage = .global → c.variableOf? site.node.port.id = none)
    (h : site.lower c = .ok () d) : ∃ code, Lowered site.model site.node c code d := by
  rw [lower] at h
  cases hkind : site.node.kind with
  | input =>
    rw [hkind] at h hparameter
    exact lowerInput_ok hc (hparameter (by decide)) hkind h
  | output =>
    rw [hkind] at h hparameter
    exact lowerOutput_ok hc (hparameter (by decide)) hkind h
  | constant values =>
    rw [hkind] at h hfree
    exact lowerConstant_ok hc (hfree rfl) hkind h
  | concat =>
    rw [hkind] at h hfree
    exact lowerConcat_ok hc (hfree rfl) hkind h
  | reduce op =>
    rw [hkind] at h hfree
    exact lowerReduce_ok hc (hfree rfl) hkind h
  | binary op =>
    rw [hkind] at h hfree
    exact lowerBinary_ok hc (hfree rfl) hbound hkind h
  | dot =>
    rw [hkind] at h hfree
    exact lowerDot_ok hc (hfree rfl) hbound hkind h
  | unary op =>
    rw [hkind] at h hfree
    exact lowerPointwise_ok hc (hfree rfl) hbound (fun _ _ => List.mem_cons_self)
      (by rw [hkind]; rfl) (fun values hvalues => by rw [hkind] at hvalues; cases hvalues)
      (.unary hkind) h
  | accumulator =>
    rw [hkind] at h hfree
    exact lowerPointwise_ok hc (hfree rfl) hbound
      (fun _ _ => List.mem_cons_of_mem _ List.mem_cons_self) (by rw [hkind]; rfl)
      (fun values hvalues => by rw [hkind] at hvalues; cases hvalues) (.accumulator hkind) h

end Site
end Dataflow
