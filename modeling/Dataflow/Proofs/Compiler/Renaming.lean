import Dataflow.Compiler.Compile
import Dataflow.Proofs.Except

/-!
# Renaming variables

A compiler passes the numbers of variables on, but never looks at them.  So if all variables are
renamed, operands are resolved to the renamed slices, and whatever is checked on the way comes out
the same.  `Renames α` says how an `α` is renamed.

What the compiler checks by itself blames the graph (`GraphCheck`): a refusal can only come from the
backend.
-/

namespace Dataflow

/-- Types whose values may mention variables. -/
class Renames (α : Type) where
  /-- The value with other variables. -/
  rename : (VarId → VarId) → α → α
  rename_id : ∀ a, rename id a = a

open Renames

namespace Renames

instance : Renames Unit := ⟨fun _ a => a, fun _ => rfl⟩
instance : Renames ℕ := ⟨fun _ a => a, fun _ => rfl⟩
instance : Renames ElementType := ⟨fun _ a => a, fun _ => rfl⟩
instance : Renames Parameter := ⟨fun _ a => a, fun _ => rfl⟩
instance : Renames VarId := ⟨fun ρ id => ρ id, fun _ => rfl⟩
instance : Renames Slice := ⟨fun ρ slice => { slice with var := ρ slice.var }, fun _ => rfl⟩

instance {α : Type} [Renames α] : Renames (List α) where
  rename ρ list := list.map (rename ρ)
  rename_id list := by rw [funext rename_id, List.map_id']

instance : Renames Instruction where
  rename ρ
    | .copy dst src => .copy (rename ρ dst) (rename ρ src)
    | .fill dst value => .fill (rename ρ dst) value
    | .binary op dst lhs rhs => .binary op (rename ρ dst) (rename ρ lhs) (rename ρ rhs)
    | .unary op dst src => .unary op (rename ρ dst) (rename ρ src)
    | .reduce op dst src => .reduce op (rename ρ dst) (rename ρ src)
    | .dot dst lhs rhs => .dot (rename ρ dst) (rename ρ lhs) (rename ρ rhs)
    | .accumulate dst src => .accumulate (rename ρ dst) (rename ρ src)
  rename_id instruction := by cases instruction <;> rfl

instance : Renames (PortId × VarId) := ⟨fun ρ binding => (binding.1, ρ binding.2), fun _ => rfl⟩

instance : Renames ScopeStack where
  rename ρ scopes := ⟨rename ρ scopes.innermost, rename ρ scopes.outer⟩
  rename_id scopes := by
    show ScopeStack.mk _ _ = _
    rw [rename_id, rename_id]

instance {β : Type} : Renames (Compiler β) where
  rename ρ compiler := { compiler with scopes := rename ρ compiler.scopes }
  rename_id compiler := by
    show Compiler.mk _ _ _ _ _ = _
    rw [rename_id]

variable (ρ : VarId → VarId)

@[simp] lemma rename_nil {α : Type} [Renames α] : rename ρ ([] : List α) = [] := rfl

@[simp] lemma rename_cons {α : Type} [Renames α] (a : α) (rest : List α) :
    rename ρ (a :: rest) = rename ρ a :: rename ρ rest := rfl

@[simp] lemma length_rename (slice : Slice) : (rename ρ slice).length = slice.length := rfl

/-- Renaming keeps lengths. -/
lemma lengths_rename (slices : List Slice) :
    (rename ρ slices).map Slice.length = slices.map Slice.length :=
  List.map_map

@[simp] lemma rename_parameters (parameters : List Parameter) :
    rename ρ parameters = parameters := List.map_id' _

@[simp] lemma rename_append {α : Type} [Renames α] (list list' : List α) :
    rename ρ (list ++ list') = rename ρ list ++ rename ρ list' := List.map_append

lemma mapM_rename {ε α γ : Type} [Renames γ] {f g : α → Except ε γ} {list : List α}
    (h : ∀ a ∈ list, g a = (f a).map (rename ρ)) :
    list.mapM g = (list.mapM f).map (rename ρ) := by
  induction list with
  | nil => rfl
  | cons a rest ih =>
    obtain ⟨ha, hrest⟩ := List.forall_mem_cons.mp h
    rw [List.mapM_cons, List.mapM_cons, ha, ih hrest]
    cases f a with
    | error e => rfl
    | ok b => cases rest.mapM f <;> rfl

end Renames

lemma Frame.lookup_rename (ρ : VarId → VarId) (frame : Frame) (port : PortId) :
    Frame.lookup (frame.map (rename ρ)) port = (Frame.lookup frame port).map ρ := by
  rw [Frame.lookup, Frame.lookup, List.find?_map, Option.map_map, Option.map_map]
  rfl

lemma ScopeStack.lookup_rename (ρ : VarId → VarId) (scopes : ScopeStack) (port : PortId) :
    (rename ρ scopes).lookup port = (scopes.lookup port).map ρ := by
  have hframes : ∀ frames : List Frame,
      (frames.map fun frame => frame.map (rename ρ)).findSome?
          (fun frame => Frame.lookup frame port) =
        (frames.findSome? fun frame => Frame.lookup frame port).map ρ := by
    intro frames
    induction frames with
    | nil => rfl
    | cons frame rest ih =>
      rw [List.map_cons, List.findSome?_cons, List.findSome?_cons, Frame.lookup_rename, ih]
      cases Frame.lookup frame port <;> rfl
  exact hframes scopes.frames

namespace Compiler

variable {β : Type}

lemma variableOf?_rename (ρ : VarId → VarId) (compiler : Compiler β) (port : PortId) :
    (rename ρ compiler).variableOf? port = (compiler.variableOf? port).map ρ :=
  compiler.scopes.lookup_rename ρ port

end Compiler

/-- Parameters are named when they are declared.  The names of all other variables are made of their
numbers. -/
def VariableSpec.Proper (spec : VariableSpec) : Prop :=
  spec.name.isSome = spec.storage.isParameter

/-- A fault that mentions no variable, unless by a name that it was declared with. -/
def BackendFault.Anonymous : BackendFault → Prop
  | noFunction | noRegion | functionOpen _ | functionExists .. | undeclaredParameter _
  | inputWritten _ | regionExists _ | overflow | stated _ => True
  | unknownVariable _ | unallocated _ | allocatedTwice _ | storageExhausted .. | sliceOutOfBounds ..
  | lengthMismatch _ => False

/-! ## Checks -/

/-- The graph is to blame, not the backend. -/
def CompileError.BlamesGraph : CompileError → Prop
  | structural .. | unboundReference .. => True
  | backend .. => False

lemma CompileError.BlamesGraph.withOrigin_eq {e : CompileError} (h : e.BlamesGraph)
    (name : String) : e.withOrigin name = e := by
  cases e with
  | structural | unboundReference => rfl
  | backend => exact h.elim

/-- A check that blames the graph if it fails. -/
def GraphCheck {α : Type} (x : Except CompileError α) : Prop := ∀ e, x = .error e → e.BlamesGraph

namespace GraphCheck

variable {α γ : Type}

lemma ok (a : α) : GraphCheck (.ok a : Except CompileError α) := fun _ h => (nomatch h)

lemma error {e : CompileError} (he : e.BlamesGraph) :
    GraphCheck (.error e : Except CompileError α) :=
  fun _ h => Except.error.inj h ▸ he

lemma bind {x : Except CompileError α} {f : α → Except CompileError γ} (hx : GraphCheck x)
    (hf : ∀ a, GraphCheck (f a)) : GraphCheck (x >>= f) := by
  cases x with
  | error e => exact .error (hx e rfl)
  | ok a => exact hf a

lemma mapM {f : α → Except CompileError γ} (hf : ∀ a, GraphCheck (f a)) (list : List α) :
    GraphCheck (list.mapM f) := by
  induction list with
  | nil => exact .ok []
  | cons a rest ih =>
    rw [List.mapM_cons]
    exact (hf a).bind fun b => ih.bind fun bs => .ok (b :: bs)

lemma forM {f : α → Except CompileError Unit} (hf : ∀ a, GraphCheck (f a)) (list : List α) :
    GraphCheck (list.forM f) := by
  induction list with
  | nil => exact .ok ()
  | cons a rest ih => exact (hf a).bind fun _ => ih

end GraphCheck

namespace Site

variable (site : Site)

lemma malformed_check {α : Type} (fault : StructuralFault) :
    GraphCheck (site.malformed fault : Except CompileError α) := .error trivial

lemma unbound_check {α : Type} (port : OutputPort) :
    GraphCheck (site.unbound port : Except CompileError α) := .error trivial

lemma inputRanges_check (index : ℕ) : GraphCheck (site.inputRanges index) := by
  rw [inputRanges]
  split
  · exact site.malformed_check _
  · exact site.malformed_check _
  · exact .ok _

lemma portOf_check (range : PortRange) : GraphCheck (site.portOf range) := by
  rw [portOf]
  split
  · exact .ok _
  · exact site.malformed_check _

lemma checkRangeTypes_check (index : ℕ) (first : ElementType) (ranges : List PortRange) :
    GraphCheck (site.checkRangeTypes index first ranges) := by
  induction ranges with
  | nil => exact .ok ()
  | cons range rest ih =>
    refine (site.portOf_check range).bind fun port => ?_
    split
    · exact (site.malformed_check _).bind fun _ => ih
    · exact ih

lemma inputType_check (strict : Bool) (index : ℕ) : GraphCheck (site.inputType strict index) := by
  refine (site.inputRanges_check index).bind fun ranges => (site.portOf_check _).bind fun port => ?_
  simp only
  split
  · exact (site.checkRangeTypes_check _ _ _).bind fun _ => .ok _
  · refine (GraphCheck.forM (fun range => ?_) _).bind fun _ => .ok _
    have hport := site.portOf_check range
    cases h : site.portOf range with
    | ok port => exact .ok ()
    | error e => exact .error (hport e h)

lemma checkOperandTypes_check (strict : Bool) : GraphCheck (site.checkOperandTypes strict) := by
  refine (site.inputType_check _ _).bind fun _ => (site.inputType_check _ _).bind fun _ => ?_
  split
  · exact site.malformed_check _
  · exact .ok ()

lemma checkSize_check (produced : ℕ) : GraphCheck (site.checkSize produced) := by
  rw [checkSize]
  split
  · exact .ok ()
  · exact site.malformed_check _

lemma joinedSize_check (slices : List Slice) : GraphCheck (site.joinedSize slices) := by
  rw [joinedSize]
  split
  · exact .ok _
  · exact site.malformed_check _

lemma joinedSize_rename (ρ : VarId → VarId) (slices : List Slice) :
    site.joinedSize (rename ρ slices) = (site.joinedSize slices).map (rename ρ) := by
  rw [joinedSize, joinedSize, lengths_rename]
  split <;> rfl

variable {β : Type} (compiler : Compiler β)

/-- The checks of a range, one after another. -/
lemma resolve_eq (range : PortRange) : site.resolve compiler range = (do
    let port ← site.portOf range
    if range.length = 0 ∨ port.size < range.stop then
      site.malformed (.outOfBounds port.name range.start range.stop port.size)
    else if port.node ≠ site.node.id ∧ !compiler.isCompiled port.node then
      site.unbound port
    else
      (compiler.variableOf? range.port).elim (site.unbound port) fun var =>
        .ok ⟨var, range.start, range.length⟩) := by
  refine bind_congr fun port => ?_
  by_cases hbounds : range.length = 0 ∨ port.size < range.stop
  · simp only [if_pos hbounds]
    rfl
  · by_cases hdone : port.node ≠ site.node.id ∧ !compiler.isCompiled port.node
    · simp only [if_neg hbounds, if_pos hdone]
      rfl
    · simp only [if_neg hbounds, if_neg hdone]
      cases compiler.variableOf? range.port <;> rfl

lemma resolve_check (range : PortRange) : GraphCheck (site.resolve compiler range) := by
  rw [resolve_eq]
  refine (site.portOf_check range).bind fun port => ?_
  split
  · exact site.malformed_check _
  · split
    · exact site.unbound_check port
    · cases compiler.variableOf? range.port with
      | none => exact site.unbound_check port
      | some var => exact .ok _

/-- A range is resolved to the renamed slice. -/
lemma resolve_rename (ρ : VarId → VarId) (range : PortRange) :
    site.resolve (rename ρ compiler) range = (site.resolve compiler range).map (rename ρ) := by
  rw [resolve_eq, resolve_eq, Compiler.variableOf?_rename]
  cases site.portOf range with
  | error e => rfl
  | ok port =>
    show (if _ then _ else if port.node ≠ site.node.id ∧ !compiler.isCompiled port.node then _
      else _) = Except.map _ (if _ then _ else if _ then _ else _)
    split
    · rfl
    · split
      · rfl
      · cases compiler.variableOf? range.port <;> rfl

end Site
end Dataflow
