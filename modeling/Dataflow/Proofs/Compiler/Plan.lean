import Dataflow.Proofs.Compiler.Progress
import Dataflow.Proofs.Model.Evaluation

/-!
# The code of a node

What lowering a node comes to if it succeeds (`NodeCode`): which slices feed the node, which
variables gather several ranges, and which instructions are added.  Variables that gather are never
among the first ones, which earlier functions use.  Nothing of this changes later, when other nodes
get variables of their own (`NodeCode.mono`).
-/

namespace Dataflow

/-- A slice that a range stands for, given the variables of ports. -/
structure Reads (model : Model) (place : PortId → Option VarId) (range : PortRange)
    (slice : Slice) : Prop where
  port : ∃ port, model.port? range.port = some port ∧ range.stop ≤ port.size
  nonempty : range.length ≠ 0
  slice : ∃ var, place range.port = some var ∧ slice = ⟨var, range.start, range.length⟩

/-- The instructions that copy slices one after another into a slice, from an offset on. -/
def copies (dst : Slice) : ℕ → List Slice → List Instruction
  | _, [] => []
  | offset, src :: rest =>
    .copy (dst.sub offset src.length) src :: copies dst (offset + src.length) rest

lemma dst_copies {dst : Slice} {offset : ℕ} {slices : List Slice} :
    ∀ instruction ∈ copies dst offset slices, instruction.dst.var = dst.var := by
  induction slices generalizing offset with
  | nil => exact fun _ hmem => absurd hmem List.not_mem_nil
  | cons src rest ih => exact List.forall_mem_cons.mpr ⟨rfl, ih⟩

/-- The instructions that prepare an operand, and the slice that it is read from then.  The first
`old` variables are not used for it. -/
inductive Operand (model : Model) (vars : VariableTable) (old : ℕ)
    (place : PortId → Option VarId) : List PortRange → List Instruction → Slice → Prop
  /-- A single range is read in its place. -/
  | direct {range : PortRange} {slice : Slice} : Reads model place range slice →
    Operand model vars old place [range] [] slice
  /-- Several ranges are gathered in a variable of the first one's element type. -/
  | gathered {ranges : List PortRange} {slices : List Slice} {id : VarId} {var : Variable} :
    ranges.length ≠ 1 → List.Forall₂ (Reads model place) ranges slices →
    vars.get? id = some var → old ≤ id.index → var.storage = .scratch →
    var.elementType = model.leadingType ranges →
    var.size = (slices.map Slice.length).sum →
    Operand model vars old place ranges (copies ⟨id, 0, var.size⟩ 0 slices) ⟨id, 0, var.size⟩

/-- The instructions of a node, given its variable. -/
inductive NodeCode (model : Model) (vars : VariableTable) (old : ℕ)
    (place : PortId → Option VarId) (node : Node) (var : VarId) : List Instruction → Prop
  | input : node.kind = .input → NodeCode model vars old place node var []
  | constant {values : List Float} : node.kind = .constant values →
    NodeCode model vars old place node var []
  | concatenation {slices : List Slice} : node.kind = .output ∨ node.kind = .concat →
    List.Forall₂ (Reads model place) (node.operand 0) slices →
    node.size = (slices.map Slice.length).sum →
    NodeCode model vars old place node var (copies ⟨var, 0, node.size⟩ 0 slices)
  | unary {op : UnaryOp} {code : List Instruction} {src : Slice} : node.kind = .unary op →
    Operand model vars old place (node.operand 0) code src →
    NodeCode model vars old place node var (code ++ [.unary op ⟨var, 0, node.size⟩ src])
  | accumulator {code : List Instruction} {src : Slice} : node.kind = .accumulator →
    Operand model vars old place (node.operand 0) code src →
    NodeCode model vars old place node var (code ++ [.accumulate ⟨var, 0, node.size⟩ src])
  | binary {op : BinaryOp} {code code' : List Instruction} {lhs rhs : Slice} :
    node.kind = .binary op → Operand model vars old place (node.operand 0) code lhs →
    Operand model vars old place (node.operand 1) code' rhs →
    (∀ instruction ∈ code', instruction.dst.var ≠ lhs.var) →
    NodeCode model vars old place node var
      (code ++ code' ++ [.binary op ⟨var, 0, node.size⟩ lhs rhs])
  | dot {code code' : List Instruction} {lhs rhs : Slice} : node.kind = .dot → node.size = 1 →
    Operand model vars old place (node.operand 0) code lhs →
    Operand model vars old place (node.operand 1) code' rhs →
    (∀ instruction ∈ code', instruction.dst.var ≠ lhs.var) →
    NodeCode model vars old place node var
      (code ++ code' ++ [.dot ⟨var, 0, node.size⟩ lhs rhs])
  | reduce {op : ReduceOp} {slices : List Slice} : node.kind = .reduce op → node.size = 1 →
    List.Forall₂ (Reads model place) (node.operand 0) slices →
    NodeCode model vars old place node var
      (.fill ⟨var, 0, node.size⟩ op.identity ::
        slices.map fun src => .reduce op ⟨var, 0, node.size⟩ src)

section

variable {model : Model} {vars vars' : VariableTable} {old old' : ℕ}
variable {place place' : PortId → Option VarId}
variable (hvars : vars.Prefix vars') (hold : old' ≤ old)
variable (hplace : ∀ port var, place port = some var → place' port = some var)

include hplace

lemma Reads.mono {range : PortRange} {slice : Slice} (h : Reads model place range slice) :
    Reads model place' range slice := by
  obtain ⟨var, hvar, hslice⟩ := h.slice
  exact ⟨h.port, h.nonempty, var, hplace _ _ hvar, hslice⟩

lemma Reads.forall_mono {ranges : List PortRange} {slices : List Slice}
    (h : List.Forall₂ (Reads model place) ranges slices) :
    List.Forall₂ (Reads model place') ranges slices :=
  h.imp fun _ _ hread => hread.mono hplace

include hvars hold

lemma Operand.mono {ranges : List PortRange} {code : List Instruction} {slice : Slice}
    (h : Operand model vars old place ranges code slice) :
    Operand model vars' old' place' ranges code slice := by
  cases h with
  | direct hread => exact .direct (hread.mono hplace)
  | gathered hlength hreads hvar hnew hstorage htype hsize =>
    exact .gathered hlength (Reads.forall_mono hplace hreads) (hvars.get? hvar) (hold.trans hnew)
      hstorage htype hsize

lemma NodeCode.mono {node : Node} {var : VarId} {code : List Instruction}
    (h : NodeCode model vars old place node var code) :
    NodeCode model vars' old' place' node var code := by
  cases h with
  | input hkind => exact .input hkind
  | constant hkind => exact .constant hkind
  | concatenation hkind hreads hsize =>
    exact .concatenation hkind (Reads.forall_mono hplace hreads) hsize
  | unary hkind hsrc => exact .unary hkind (hsrc.mono hvars hold hplace)
  | accumulator hkind hsrc => exact .accumulator hkind (hsrc.mono hvars hold hplace)
  | binary hkind hlhs hrhs hkeep =>
    exact .binary hkind (hlhs.mono hvars hold hplace) (hrhs.mono hvars hold hplace) hkeep
  | dot hkind hsize hlhs hrhs hkeep =>
    exact .dot hkind hsize (hlhs.mono hvars hold hplace) (hrhs.mono hvars hold hplace) hkeep
  | reduce hkind hsize hreads =>
    exact .reduce hkind hsize (Reads.forall_mono hplace hreads)

end

end Dataflow
