import Dataflow.Proofs.Backend.Progress
import Dataflow.Proofs.Compiler.Steps

/-!
# The progress of a compiler

What the steps of a compiler do if they succeed.  `Compiler.Step c added d` says that the compiler
has added instructions to its assembler, perhaps with variables, and has left its bindings alone;
the steps that bind ports are stated apart.
-/

namespace Dataflow
namespace Compiler

open Attempt

/-- The compiler has added instructions and perhaps variables, and nothing else has changed except
for counts. -/
structure Step (c : Compiler Assembler) (added : List Instruction) (d : Compiler Assembler) :
    Prop where
  backend : c.backend.Step added d.backend
  scopes : d.scopes = c.scopes
  compiled : d.compiled = c.compiled
  options : d.options = c.options

variable {c d e : Compiler Assembler} {added added' : List Instruction}

namespace Step

lemma refl (h : c.backend.Tidy) : c.Step [] c := ⟨.refl h, rfl, rfl, rfl⟩

lemma trans (h : c.Step added d) (h' : d.Step added' e) : c.Step (added ++ added') e :=
  ⟨h.backend.trans h'.backend, h'.scopes.trans h.scopes, h'.compiled.trans h.compiled,
    h'.options.trans h.options⟩

lemma tidy (h : c.Step added d) : d.backend.Tidy := h.backend.tidy

lemma variableOf?_eq (h : c.Step added d) (port : PortId) :
    d.variableOf? port = c.variableOf? port := by
  rw [variableOf?, variableOf?, h.scopes]

lemma isCompiled_eq (h : c.Step added d) (node : NodeId) :
    d.isCompiled node = c.isCompiled node := by
  rw [isCompiled, isCompiled, h.compiled]

end Step

/-- A step of the backend, with a count before or after it, is a step of the compiler. -/
lemma Step.ofBackend {backend : Assembler} (h : c.backend.Step added backend)
    (session : Session) : c.Step added { c with backend, session } := ⟨h, rfl, rfl, rfl⟩

section

variable (hc : c.backend.Tidy)

include hc

lemma allocate_ok {spec : VariableSpec} {var : VarId} (h : allocate spec c = .ok var d) :
    c.Step [] d ∧ var = c.backend.vars.next ∧
      d.backend.vars.toList = c.backend.vars.toList ++ [c.backend.allotted spec] := by
  obtain ⟨backend, hnext, rfl, rfl⟩ := allocate_eq_ok.mp h
  exact ⟨.ofBackend (hc.allocate hnext) _, rfl, Assembler.toList_allocate_declare hnext⟩

lemma emit_ok {instruction : Instruction} (h : emit instruction c = .ok () d) :
    c.Step [instruction] d ∧ d.backend.vars = c.backend.vars := by
  obtain ⟨backend, hbackend, rfl⟩ := emit_eq_ok.mp h
  obtain ⟨hstep, hvars⟩ := hc.emit hbackend
  exact ⟨.ofBackend hstep _, hvars⟩

lemma openRegion_ok {node : NodeId} (h : onBackend (Backend.openRegion node) c = .ok () d) :
    c.Step [] d ∧ d.backend.vars = c.backend.vars := by
  obtain ⟨backend, hbackend, rfl⟩ := onBackend_change_eq_ok.mp h
  obtain ⟨hstep, hvars⟩ := hc.openRegion hbackend
  exact ⟨.ofBackend hstep _, hvars⟩

lemma mergeStep_ok {node : NodeId} {isFirst : Bool} (h : mergeStep node isFirst c = .ok () d) :
    c.Step [] d ∧ d.backend.vars = c.backend.vars := by
  rw [mergeStep_run] at h
  obtain ⟨-, rfl⟩ := EStateM.Result.ok.inj h
  split
  · obtain ⟨hstep, hvars⟩ := hc.mergeRegion node
    exact ⟨.ofBackend hstep _, hvars⟩
  · exact ⟨.refl hc, rfl⟩

lemma notify_ok {milestone : Milestone} {subject : String}
    (h : notify milestone subject c = .ok () d) :
    c.Step [] d ∧ d.backend.vars = c.backend.vars := by
  obtain ⟨-, rfl⟩ := EStateM.Result.ok.inj h
  exact ⟨.ofBackend (.refl hc) _, rfl⟩

lemma count_ok {count : Statistics → Statistics} (h : Compiler.count count c = .ok () d) :
    c.Step [] d ∧ d.backend.vars = c.backend.vars := by
  obtain ⟨-, rfl⟩ := EStateM.Result.ok.inj h
  exact ⟨.ofBackend (.refl hc) _, rfl⟩

end

end Compiler
end Dataflow
