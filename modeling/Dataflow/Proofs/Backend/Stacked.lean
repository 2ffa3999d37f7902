import Dataflow.Proofs.Backend.Alike
import Dataflow.Proofs.Compiler.History
import Dataflow.Proofs.Compiler.Renumbering

/-!
# Assemblers on top of others

An assembler that has done something before does the same as a fresh one, with its variables behind
those that are there already: `Assembler.Stacked base a b` says that `b` is what has become of
`base` by doing what has made `a` of a fresh assembler.  Every operation keeps this up, unless the
storage of `b` does not suffice.
-/

namespace Dataflow

open Attempt Renames

namespace Assembler

/-- The numbers of variables that are declared on top of an assembler. -/
abbrev raise (base : Assembler) : VarId → VarId := .shift base.vars.size

/-- The second assembler has the functions and variables of the base, and behind them the variables
and the open function of the first one, which has not finished any function. -/
structure Stacked (base a b : Assembler) : Prop where
  vars : b.vars.toList = base.vars.toList ++ a.vars.toList.map (Variable.renumber base.raise)
  declared : ∀ id var, a.vars.get? id = some var →
    ∃ spec : VariableSpec, spec.Proper ∧ var = (spec.variable id).withAllocated true
  used : b.used = base.used + a.used
  limit : b.limit = a.limit
  unfinished : a.program.functions = []
  finished : b.program.functions = base.program.functions
  uncommitted : a.committed.vars = 0
  committed : b.committed = base.committed
  pending : Option.Rel (PendingFunction.Alike base.raise) a.pending b.pending

namespace Stacked

variable {base a b : Assembler}

lemma size_eq (h : Stacked base a b) : b.vars.size = base.vars.size + a.vars.size := by
  have hlength := congrArg List.length h.vars
  rwa [List.length_append, List.length_map, VariableTable.length_toList,
    VariableTable.length_toList, VariableTable.length_toList] at hlength

lemma next_eq (h : Stacked base a b) : b.vars.next = base.raise a.vars.next :=
  congrArg VarId.mk (h.size_eq.trans (Nat.add_comm _ _))

lemma get?_eq (h : Stacked base a b) (id : VarId) :
    b.vars.get? (base.raise id) = (a.vars.get? id).map (Variable.renumber base.raise) := by
  rw [VariableTable.get?_eq, VariableTable.get?_eq, h.vars,
    List.getElem?_append_right (by simp [VarId.shift]), List.getElem?_map]
  simp [VarId.shift]

lemma withPending (h : Stacked base a b) {x y : Option PendingFunction}
    (hxy : Option.Rel (PendingFunction.Alike base.raise) x y) :
    Stacked base { a with pending := x } { b with pending := y } := { h with pending := hxy }

/-- At first there is nothing on top of the base. -/
lemma start (hpending : base.pending = none) (name : String) (policy : MergePolicy) :
    Stacked base (.fresh name policy base.limit) base where
  vars := (List.append_nil _).symm
  declared _ _ h := (nomatch h)
  used := rfl
  limit := rfl
  unfinished := rfl
  finished := rfl
  uncommitted := rfl
  committed := rfl
  pending := hpending ▸ .none

/-! ## Storage -/

/-- Either storage is reserved for the same variable on both sides, or there is none left on top of
the base. -/
lemma allocate (h : Stacked base a b) {spec : VariableSpec} (hspec : spec.Proper) :
    (∃ a' b', (a.declare spec).allocate a.vars.next = .ok a' ∧
      (b.declare spec).allocate b.vars.next = .ok b' ∧ Stacked base a' b') ∨
    ∃ limit name size,
      (b.declare spec).allocate b.vars.next = .error (.storageExhausted limit name size) := by
  have hnext (c : Assembler) : (c.declare spec).vars.get? c.vars.next = _ :=
    c.vars.get?_declare_next spec
  by_cases hlimit : b.used + spec.size ≤ b.limit
  · left
    have hlimit' : a.used + spec.size ≤ a.limit := by
      have := h.used
      have := h.limit
      omega
    have ha := allocate_eq_ok.mpr ⟨_, hnext a, rfl, hlimit', rfl⟩
    have hb := allocate_eq_ok.mpr ⟨_, hnext b, rfl, hlimit, rfl⟩
    refine ⟨_, _, ha, hb, { h with
      vars := ?_
      declared := fun id var hvar => ?_
      used := ?_ }⟩
    · rw [toList_allocate_declare ha, toList_allocate_declare hb, h.vars, List.map_append,
        List.append_assoc, List.map_singleton, allotted, allotted, hspec.renumber, h.next_eq]
    · rcases get?_of_allocate_declare ha hvar with hold | ⟨rfl, rfl⟩
      · exact h.declared id var hold
      · exact ⟨spec, hspec, rfl⟩
    · show b.used + spec.size = base.used + (a.used + spec.size)
      rw [h.used, Nat.add_assoc]
  · right
    refine ⟨b.limit, (spec.variable b.vars.next).name, spec.size, ?_⟩
    rw [Assembler.allocate, hnext b]
    exact if_pos (not_le.mp hlimit)

/-! ## Functions -/

/-- The variable that is found for a parameter is the one on top of the base, since no parameters
were left over below. -/
lemma variableFor_eq (h : Stacked base a b) (hbase : base.Vacant) {parameter : Parameter}
    (hparameter : parameter.storage.isParameter = true) :
    b.variableFor parameter = (a.variableFor parameter).map base.raise := by
  have hleftover : base.uncommitted.find? (fun var => var.answers parameter) = none := by
    refine List.find?_eq_none.mpr fun var hvar hanswers => ?_
    have hclass := hbase.uncommitted var hvar
    rw [Variable.answers, decide_eq_true_eq] at hanswers
    rw [hanswers.1, hparameter] at hclass
    cases hclass
  have hanswers : (fun var : Variable => var.answers parameter) ∘ Variable.renumber base.raise =
      fun var => var.answers parameter := by
    funext var
    refine decide_eq_decide.mpr (and_congr_right fun hstorage => ?_)
    have hstorage' : var.storage = parameter.storage := hstorage
    simp only [Variable.renumber, hstorage', hparameter, if_true]
  have huncommitted : b.uncommitted =
      base.uncommitted ++ a.uncommitted.map (Variable.renumber base.raise) := by
    rw [Assembler.uncommitted, Assembler.uncommitted, Assembler.uncommitted, h.committed,
      h.uncommitted, h.vars, List.drop_zero, List.drop_append_of_le_length]
    rw [VariableTable.length_toList]
    exact hbase.committed
  have hfind : b.uncommitted.find? (fun var => var.answers parameter) =
      (a.uncommitted.find? fun var => var.answers parameter).map
        (Variable.renumber base.raise) := by
    rw [huncommitted, List.find?_append, hleftover, Option.none_or, List.find?_map, hanswers]
  rw [Assembler.variableFor_eq, Assembler.variableFor_eq, hfind]
  cases a.uncommitted.find? fun var => var.answers parameter <;> rfl

/-- A function is begun on both sides, or refused for the same reason. -/
lemma beginFunction (h : Stacked base a b) (hbase : base.Vacant) {name : String}
    (hname : base.program.function? name = none) {parameters : List Parameter}
    (hparameters : ∀ parameter ∈ parameters, parameter.storage.isParameter = true) :
    AnsweredAlike base.raise (Stacked base) (a.beginFunction name parameters)
      (b.beginFunction name parameters) := by
  have hfree : a.program.function? name = none := by
    rw [Program.function?, h.unfinished, List.find?_nil]
  have hfree' : b.program.function? name = none := by
    rw [Program.function?, h.finished]
    exact hname
  have hfound : parameters.mapM b.variableFor =
      (parameters.mapM a.variableFor).map (rename base.raise) :=
    mapM_rename base.raise fun parameter hmem =>
      h.variableFor_eq hbase (hparameters parameter hmem)
  obtain ⟨ha, hb⟩ | ⟨p, q, ha, hb, hpq⟩ := Option.Rel.cases h.pending
  · cases hvars : parameters.mapM a.variableFor with
    | error fault =>
      have hleft : a.beginFunction name parameters = .error fault := by
        simp only [Assembler.beginFunction, ha, hfree, hvars]
        rfl
      have hright : b.beginFunction name parameters = .error fault := by
        simp only [Assembler.beginFunction, hb, hfree', hfound, hvars]
        rfl
      rw [hleft, hright]
      exact .refused (.anonymous (anonymous_of_beginFunction hleft))
    | ok vars =>
      rw [hvars] at hfound
      rw [beginFunction_eq_ok.mpr ⟨ha, hfree, vars, hvars, rfl⟩,
        beginFunction_eq_ok.mpr ⟨hb, hfree', _, hfound, rfl⟩]
      exact .granted (h.withPending (.some ⟨rfl, rfl, rfl, .empty a.policy b.policy⟩))
  · have hleft : a.beginFunction name parameters = .error (.functionOpen p.name) := by
      rw [Assembler.beginFunction, ha]
      rfl
    have hright : b.beginFunction name parameters = .error (.functionOpen p.name) := by
      rw [Assembler.beginFunction, hb, hpq.name]
      rfl
    rw [hleft, hright]
    exact .refused (.anonymous trivial)

/-- The open function is finished on both sides, or there is none on either. -/
lemma endFunction (h : Stacked base a b) :
    (a.endFunction = .error .noFunction ∧ b.endFunction = .error .noFunction) ∨
    ∃ a' b' function, a.endFunction = .ok a' ∧ b.endFunction = .ok b' ∧
      a'.program.functions = [function] ∧
      b'.program.functions = base.program.functions ++ [rename base.raise function] ∧
      b'.vars.toList = base.vars.toList ++ a'.vars.toList.map (Variable.renumber base.raise) := by
  obtain ⟨ha, hb⟩ | ⟨p, q, ha, hb, hpq⟩ := Option.Rel.cases h.pending
  · left
    constructor
    · rw [Assembler.endFunction, ha]
      rfl
    · rw [Assembler.endFunction, hb]
      rfl
  · refine .inr ⟨_, _, p.finish, endFunction_eq_ok.mpr ⟨p, ha, rfl⟩,
      endFunction_eq_ok.mpr ⟨q, hb, rfl⟩, ?_, ?_, h.vars⟩
    · show a.program.functions ++ _ = _
      rw [h.unfinished, List.nil_append]
    · show b.program.functions ++ _ = _
      rw [h.finished, hpq.finish]

/-! ## Instructions -/

/-- A slice is refused on both sides for the same reason. -/
lemma checkSlice (h : Stacked base a b) (slice : Slice) (written : Bool) :
    AnsweredAlike base.raise Eq (a.checkSlice slice written)
      (b.checkSlice (rename base.raise slice) written) := by
  have hget : b.vars.get? (rename base.raise slice).var = _ := h.get?_eq slice.var
  rw [Assembler.checkSlice, Assembler.checkSlice, hget]
  cases hvar : a.vars.get? slice.var with
  | none => exact .refused (.unknownVariable slice.var)
  | some var =>
    obtain ⟨spec, hspec, rfl⟩ := h.declared slice.var var hvar
    have hsame : (rename base.raise slice).stop? = slice.stop? := rfl
    simp only [Option.map_some, hspec.renumber, hsame]
    rcases slice.stop?_cases with ⟨-, hstop⟩ | ⟨-, hstop⟩
    case inr =>
      rw [hstop]
      exact .refused (.anonymous trivial)
    rw [hstop]
    show AnsweredAlike base.raise Eq
      (if slice.length = 0 ∨ spec.size < slice.stop then throw _
        else if written = true ∧ spec.storage = .input then throw _ else pure ())
      (if slice.length = 0 ∨ spec.size < slice.stop then throw _
        else if written = true ∧ spec.storage = .input then throw _ else pure ())
    by_cases hbounds : slice.length = 0 ∨ spec.size < slice.stop
    · rw [if_pos hbounds, if_pos hbounds]
      exact .refused (.sliceOutOfBounds slice hspec)
    · rw [if_neg hbounds, if_neg hbounds]
      by_cases hinput : written = true ∧ spec.storage = .input
      · rw [if_pos hinput, if_pos hinput]
        have hparameter : spec.storage.isParameter = true := by rw [hinput.2]; rfl
        have hname := hspec.name_eq hparameter (base.raise slice.var) slice.var
        have hfault : BackendFault.Renumbered base.raise
            (.inputWritten (spec.variable slice.var).name)
            (.inputWritten (spec.variable (base.raise slice.var)).name) := by
          rw [hname]
          exact .anonymous trivial
        exact .refused hfault
      · rw [if_neg hinput, if_neg hinput]
        exact .granted rfl

/-- An instruction is refused on both sides for the same reason. -/
lemma checkInstruction (h : Stacked base a b) (instruction : Instruction) :
    AnsweredAlike base.raise Eq (a.checkInstruction instruction)
      (b.checkInstruction (rename base.raise instruction)) := by
  have hdst : (rename base.raise instruction).dst = rename base.raise instruction.dst := by
    cases instruction <;> rfl
  have hsources : (rename base.raise instruction).sources =
      rename base.raise instruction.sources := by
    cases instruction <;> rfl
  have hlengths : (rename base.raise instruction).lengthsFit = instruction.lengthsFit := by
    cases instruction <;> rfl
  rw [Assembler.checkInstruction, Assembler.checkInstruction, hdst, hsources, hlengths]
  refine (h.checkSlice _ true).andThen ((AnsweredAlike.forM (fun slice =>
    h.checkSlice slice false) instruction.sources).andThen ?_)
  cases instruction.lengthsFit with
  | true => exact .granted rfl
  | false => exact .refused (.lengthMismatch instruction)

/-- An instruction is taken on both sides, or refused for the same reason. -/
lemma emit (h : Stacked base a b) (instruction : Instruction) :
    AnsweredAlike base.raise (Stacked base) (a.emit instruction)
      (b.emit (rename base.raise instruction)) := by
  have hcheck := h.checkInstruction instruction
  generalize hleft : a.checkInstruction instruction = result at hcheck
  generalize hright : b.checkInstruction (rename base.raise instruction) = result' at hcheck
  cases hcheck with
  | refused hfault =>
    rw [Assembler.emit, Assembler.emit, hleft, hright]
    exact .refused hfault
  | granted _ =>
    obtain ⟨fault, hfault, ha, hb⟩ | ⟨p, q, hpq, ha, hb⟩ := emit_cases h.pending hleft hright
    · rw [ha, hb]
      exact .refused (.anonymous hfault)
    · rw [ha, hb]
      exact .granted (h.withPending (.some hpq))

/-! ## Regions -/

/-- A merge on one side does not show. -/
lemma mergeLeft (h : Stacked base a b) (node : NodeId) :
    Stacked base (Backend.mergeRegion node a).2 b := by
  obtain ⟨x, hnext, hx⟩ := mergeLeft_alike h.pending node
  rw [hnext]
  exact h.withPending hx

lemma mergeRight (h : Stacked base a b) (node : NodeId) :
    Stacked base a (Backend.mergeRegion node b).2 := by
  obtain ⟨y, hnext, hy⟩ := mergeRight_alike h.pending node
  rw [hnext]
  exact h.withPending hy

/-- A region is opened on both sides, or refused for the same reason. -/
lemma openRegion (h : Stacked base a b) (node : NodeId) :
    AnsweredAlike base.raise (Stacked base) (a.openRegion node) (b.openRegion node) := by
  obtain ⟨fault, hfault, ha, hb⟩ | ⟨p, q, hpq, ha, hb⟩ := openRegion_cases h.pending node
  · rw [ha, hb]
    exact .refused (.anonymous hfault)
  · rw [ha, hb]
    exact .granted (h.withPending (.some hpq))

end Stacked
end Assembler
end Dataflow
