import Dataflow.Proofs.Compiler.Lowered
import Dataflow.Proofs.Model.WellFormed

/-!
# The layout of a model

While the nodes of a model are compiled one after another, every port that has a variable has one of
its own, and exactly the nodes that are finished, the inputs and the outputs have one (`Scoped`).
Compiling all nodes gives the code of each in turn (`compileNodes_ok`).  What a node needs for
itself lies side by side in the variable table (`Laid`).
-/

namespace Dataflow

open Attempt

/-- The code of nodes one after another.  The first variables, up to a given number, were there
before.  Each node adds the next ones to the table: its scratch variables are among these, and its
code reads all of these that are not its own. -/
inductive Laid (model : Model) (vars : VariableTable) (place : PortId → Option VarId) :
    ℕ → List Node → List (List Instruction) → ℕ → Prop
  | nil {low : ℕ} : Laid model vars place low [] [] low
  | cons {low mid high : ℕ} {node : Node} {rest : List Node} {code : List Instruction}
    {codes : List (List Instruction)} {id : VarId} :
    place node.port.id = some id → low ≤ mid →
    NodeCode model (vars.truncate mid) low place node id code →
    (∀ instruction ∈ code, instruction.Admissible (vars.truncate mid)) →
    (∀ other : VarId, low ≤ other.index → other.index < mid → other = id ∨
      ∃ instruction ∈ code, ∃ slice ∈ instruction.sources, slice.var = other) →
    Laid model vars place mid rest codes high →
    Laid model vars place low (node :: rest) (code :: codes) high

/-- The code of each node, seen from the end. -/
lemma Laid.places {model : Model} {vars : VariableTable} {place : PortId → Option VarId}
    {low high : ℕ} {nodes : List Node} {codes : List (List Instruction)}
    (h : Laid model vars place low nodes codes high) {old : ℕ} (hold : old ≤ low) :
    List.Forall₂ (fun node code => ∃ id, place node.port.id = some id ∧
      NodeCode model vars old place node id code) nodes codes := by
  induction h with
  | nil => exact .nil
  | cons hid hle hcode _ _ _ ih =>
    exact .cons ⟨_, hid, hcode.mono (.truncate vars _) hold fun _ _ hvar => hvar⟩
      (ih (hold.trans hle))

namespace Compiler

/-- The first nodes of a model have been compiled, as many as given. -/
structure Scoped (model : Model) (count : ℕ) (c : Compiler Assembler) : Prop where
  tidy : c.backend.Tidy
  home : ∀ port id, c.variableOf? port = some id → ∃ node var,
    model.nodes[port.index]? = some node ∧ c.backend.vars.get? id = some var ∧ Home node var
  injective : ∀ port port' id, c.variableOf? port = some id → c.variableOf? port' = some id →
    port = port'
  bound : ∀ (i : ℕ) (node : Node), model.nodes[i]? = some node →
    ((c.variableOf? ⟨i⟩).isSome ↔ i < count ∨ node.kind.storage ≠ .global)

/-- The code of a node, with the variable that its port has.  The first `old` variables belong to
other functions. -/
def Places (model : Model) (old : ℕ) (c : Compiler Assembler) (node : Node)
    (code : List Instruction) : Prop :=
  ∃ id, c.variableOf? node.port.id = some id ∧
    NodeCode model c.backend.vars old c.variableOf? node id code

variable {model : Model} {node : Node} {count old old' : ℕ} {c d e : Compiler Assembler}
variable {added added' : List Instruction}

lemma Places.mono {code : List Instruction} (h : Places model old c node code)
    (hvars : c.backend.vars.Prefix d.backend.vars) (hold : old' ≤ old)
    (hkeeps : ∀ port var, c.variableOf? port = some var → d.variableOf? port = some var) :
    Places model old' d node code := by
  obtain ⟨id, hid, hcode⟩ := h
  exact ⟨id, hkeeps _ _ hid, hcode.mono hvars hold hkeeps⟩

namespace Scoped

lemma index_lt (h : Scoped model count c) {port : PortId} {id : VarId}
    (hid : c.variableOf? port = some id) : id.index < c.backend.vars.size := by
  obtain ⟨_, _, -, hvar, -⟩ := h.home port id hid
  exact c.backend.vars.lt_size_of_get? hvar

/-- Instructions and variables may be added. -/
lemma step (h : Scoped model count c) (htidy : d.backend.Tidy)
    (hvars : c.backend.vars.Prefix d.backend.vars) (hscopes : d.scopes = c.scopes) :
    Scoped model count d := by
  have hlookup : d.variableOf? = c.variableOf? := by
    funext port
    rw [variableOf?, variableOf?, hscopes]
  refine ⟨htidy, ?_, hlookup ▸ h.injective, hlookup ▸ h.bound⟩
  intro port id hid
  rw [hlookup] at hid
  obtain ⟨node, var, hnode, hvar, hhome⟩ := h.home port id hid
  exact ⟨node, var, hnode, hvars.get? hvar, hhome⟩

/-- A node is lowered when all before it are. -/
lemma lowered (h : Scoped model count c) (hnode : model.nodes[count]? = some node)
    (hid : node.id = ⟨count⟩) (hlowered : Lowered model node c added d) :
    Scoped model (count + 1) d := by
  have hport : node.port.id = ⟨count⟩ := by rw [Node.port, hid]
  obtain ⟨own, entry, hown, hentry, hhome, -⟩ := hlowered.own
  rw [hport] at hown
  refine ⟨hlowered.backend.tidy, fun port id hbound => ?_, fun port port' id hbound hbound' => ?_,
    fun i other hother => ?_⟩
  · rcases hlowered.only port id hbound with hold | ⟨rfl, -⟩
    · obtain ⟨other, var, hother, hvar, hhome⟩ := h.home port id hold
      exact ⟨other, var, hother, hlowered.backend.vars.get? hvar, hhome⟩
    · rw [hport] at hbound ⊢
      obtain rfl : own = id := Option.some.inj (hown.symm.trans hbound)
      exact ⟨node, entry, hnode, hentry, hhome⟩
  · -- an old variable is never the new one, which lies behind all old ones
    rcases hlowered.only port id hbound with hold | ⟨rfl, hnew⟩ <;>
      rcases hlowered.only port' id hbound' with hold' | ⟨rfl, hnew'⟩
    · exact h.injective port port' id hold hold'
    · exact absurd (h.index_lt hold) (not_lt.mpr hnew')
    · exact absurd (h.index_lt hold') (not_lt.mpr hnew)
    · rfl
  · have hold := h.bound i other hother
    constructor
    · intro hsome
      obtain ⟨id, hbound⟩ := Option.isSome_iff_exists.mp hsome
      rcases hlowered.only _ id hbound with hbefore | ⟨heq, -⟩
      · rcases hold.mp (Option.isSome_iff_exists.mpr ⟨id, hbefore⟩) with hlt | hkind
        · exact .inl (Nat.lt_succ_of_lt hlt)
        · exact .inr hkind
      · have hindex : i = count := congrArg PortId.index (heq.trans hport)
        exact .inl (by omega)
    · intro hdone
      by_cases heq : i = count
      · rw [heq, hown]
        rfl
      · have hbefore : i < count ∨ other.kind.storage ≠ .global :=
          hdone.imp_left fun hlt => by omega
        obtain ⟨id, hbound⟩ := Option.isSome_iff_exists.mp (hold.mpr hbefore)
        rw [hlowered.keeps _ id hbound]
        rfl

/-- An input or an output that is still to be compiled has its variable. -/
lemma prepared (h : Scoped model count c) (hnode : model.nodes[count]? = some node)
    (hid : node.id = ⟨count⟩) (hkind : node.kind.storage ≠ .global) : Prepared node c := by
  obtain ⟨id, hbound⟩ := Option.isSome_iff_exists.mp ((h.bound count node hnode).mpr (.inr hkind))
  obtain ⟨other, var, hother, hvar, hhome⟩ := h.home _ id hbound
  obtain rfl : node = other := Option.some.inj (hnode.symm.trans hother)
  refine ⟨id, var, ?_, hvar, hhome⟩
  rw [Node.port, hid]
  exact hbound

/-- Any other node that is still to be compiled has none. -/
lemma free (h : Scoped model count c) (hnode : model.nodes[count]? = some node)
    (hid : node.id = ⟨count⟩) (hkind : node.kind.storage = .global) :
    c.variableOf? node.port.id = none := by
  have hbound := h.bound count node hnode
  rw [← Option.not_isSome_iff_eq_none, Node.port, hid, hbound]
  rintro (hlt | hne)
  · exact lt_irrefl _ hlt
  · exact hne hkind

end Scoped

/-! ## Nodes -/

/-- The compiler has added instructions and variables, and ports have kept their variables or got
new ones. -/
structure Continues (c : Compiler Assembler) (added : List Instruction) (d : Compiler Assembler) :
    Prop where
  backend : c.backend.Step added d.backend
  keeps : ∀ port var, c.variableOf? port = some var → d.variableOf? port = some var
  only : ∀ port var, d.variableOf? port = some var →
    c.variableOf? port = some var ∨ c.backend.vars.size ≤ var.index

lemma Continues.trans (h : Continues c added d) (h' : Continues d added' e) :
    Continues c (added ++ added') e where
  backend := h.backend.trans h'.backend
  keeps port var hvar := h'.keeps port var (h.keeps port var hvar)
  only port var hvar := by
    rcases h'.only port var hvar with hold | hnew
    · exact h.only port var hold
    · exact .inr (h.backend.vars.size_le.trans hnew)

lemma Step.continues (h : c.Step added d) : Continues c added d where
  backend := h.backend
  keeps port _ hvar := (h.variableOf?_eq port).trans hvar
  only port _ hvar := .inl ((h.variableOf?_eq port).symm.trans hvar)

lemma finishNode_ok (hc : c.backend.Tidy) (h : finishNode node c = .ok () d) :
    c.backend.Step [] d.backend ∧ d.scopes = c.scopes ∧ d.backend.vars = c.backend.vars := by
  obtain ⟨_, _, hmodify, h₁⟩ := bind_eq_ok.mp h
  obtain ⟨-, rfl⟩ := EStateM.Result.ok.inj hmodify
  obtain ⟨-, rfl⟩ := EStateM.Result.ok.inj h₁
  exact ⟨.refl hc, rfl, rfl⟩

/-- Compiling the next node adds its code. -/
lemma compileNode_ok (hmodel : model.Numbered) (hc : Scoped model count c)
    (hnode : model.nodes[count]? = some node) {isFirst : Bool}
    (h : compileNode model node isFirst c = .ok () d) :
    ∃ code, Scoped model (count + 1) d ∧ Continues c code d ∧
      Places model c.backend.vars.size d node code ∧ Employs node.port.id c code d := by
  have hid := hmodel count node hnode
  rw [compileNode_eq] at h
  obtain ⟨_, c₁, hnotify, h₁⟩ := bind_eq_ok.mp h
  obtain ⟨_, c₂, hopen, h₂⟩ := bind_eq_ok.mp h₁
  obtain ⟨_, c₃, hcount, h₃⟩ := bind_eq_ok.mp h₂
  obtain ⟨_, c₄, hlower, h₄⟩ := bind_eq_ok.mp h₃
  obtain ⟨_, c₅, hfinish, h₅⟩ := bind_eq_ok.mp h₄
  obtain ⟨_, c₆, hmerge, hend⟩ := bind_eq_ok.mp h₅
  -- before the node is lowered
  obtain ⟨hstep₁, hvars₁⟩ := notify_ok hc.tidy hnotify
  obtain ⟨hstep₂, hvars₂⟩ := openRegion_ok hstep₁.tidy (onBehalfOf_eq_ok.mp hopen)
  obtain ⟨hstep₃, hvars₃⟩ := count_ok hstep₂.tidy hcount
  have hbefore := (hstep₁.trans hstep₂).trans hstep₃
  have hscoped := hc.step hbefore.tidy hbefore.backend.vars hbefore.scopes
  obtain ⟨code, hlowered⟩ := Site.lower_ok ⟨model, node⟩ hscoped.tidy
    (fun _ _ => hscoped.index_lt) (hscoped.prepared hnode hid) (hscoped.free hnode hid)
    (onBehalfOf_eq_ok.mp hlower)
  -- after it
  have hscoped₄ := hscoped.lowered hnode hid hlowered
  obtain ⟨hback₅, hscopes₅, hvars₅⟩ := finishNode_ok hscoped₄.tidy hfinish
  obtain ⟨hstep₆, hvars₆⟩ := mergeStep_ok hback₅.tidy hmerge
  obtain ⟨hstep₇, hvars₇⟩ := notify_ok hstep₆.tidy hend
  have hback := (hback₅.trans hstep₆.backend).trans hstep₇.backend
  have hscopes : d.scopes = c₄.scopes := hstep₇.scopes.trans (hstep₆.scopes.trans hscopes₅)
  have hlookup : d.variableOf? = c₄.variableOf? := by
    funext port
    rw [variableOf?, variableOf?, hscopes]
  obtain ⟨id, _, hown, -, -, hcode⟩ := hlowered.own
  refine ⟨code, hscoped₄.step hback.tidy hback.vars hscopes,
    ⟨?_, fun port var hvar => ?_, fun port var hvar => ?_⟩, ?_, fun id hnew hlt => ?_⟩
  · have hall := (hbefore.backend.trans hlowered.backend).trans hback
    simpa only [List.append_nil, List.nil_append] using hall
  · rw [hlookup]
    exact hlowered.keeps port var ((hbefore.variableOf?_eq port).trans hvar)
  · rw [hlookup] at hvar
    rcases hlowered.only port var hvar with hold | ⟨-, hnew⟩
    · exact .inl ((hbefore.variableOf?_eq port).symm.trans hold)
    · exact .inr (hbefore.backend.vars.size_le.trans hnew)
  · exact Places.mono ⟨id, hown, hcode⟩ hback.vars hbefore.backend.vars.size_le
      fun port var hvar => by rwa [hlookup]
  · rw [hlookup]
    refine hlowered.employs id ?_ ?_
    · rwa [hvars₃, hvars₂, hvars₁]
    · rwa [hvars₇, hvars₆, hvars₅] at hlt

/-- Compiling nodes adds the code of one after the other. -/
lemma compileNodes_ok (hmodel : model.Numbered) {nodes : List Node} (hc : Scoped model count c)
    (hnodes : model.nodes.toList.drop count = nodes) {isFirst : Bool}
    (h : compileNodes model nodes isFirst c = .ok () d) :
    ∃ codes : List (List Instruction), Scoped model (count + nodes.length) d ∧
      Continues c codes.flatten d ∧
      Laid model d.backend.vars d.variableOf? c.backend.vars.size nodes codes
        d.backend.vars.size := by
  induction nodes generalizing c count isFirst with
  | nil =>
    obtain ⟨-, rfl⟩ := EStateM.Result.ok.inj h
    exact ⟨[], hc, (Step.refl hc.tidy).continues, .nil⟩
  | cons node rest ih =>
    obtain ⟨_, c', hnode, hrest⟩ := bind_eq_ok.mp h
    obtain ⟨hget, hdrop⟩ := Model.drop_nodes_eq_cons_iff.mp hnodes
    obtain ⟨code, hscoped, hcontinues, ⟨id, hid, hcode⟩, hemploys⟩ :=
      compileNode_ok hmodel hc hget hnode
    obtain ⟨codes, hscoped', hcontinues', hall⟩ := ih hscoped hdrop hrest
    have htable := hcontinues'.backend.vars.to_truncate
    refine ⟨code :: codes, ?_, hcontinues.trans hcontinues',
      .cons (hcontinues'.keeps _ _ hid) hcontinues.backend.vars.size_le
        (hcode.mono htable (le_refl _) hcontinues'.keeps)
        (fun instruction hmem => (hcontinues.backend.admissible instruction hmem).mono htable)
        (fun other hnew hlt => (hemploys other hnew hlt).imp_left fun hother => ?_) hall⟩
    · rwa [List.length_cons, Nat.add_comm rest.length, ← Nat.add_assoc]
    · exact Option.some.inj (hother.symm.trans hid)

end Compiler
end Dataflow
