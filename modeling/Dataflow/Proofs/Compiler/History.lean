import Dataflow.Machine.Call
import Dataflow.Proofs.Compiler.Footprint
import Dataflow.Proofs.Compiler.Invariant

/-!
# Histories of a compiler

Between compilations a compiler may be asked for variables and scopes directly.  Variables that are
asked for in this way stay in the table until the next function is finished, parameters included.  A
parameter of the next function is recorded as the first variable of its class and name that is not
committed, which is the one that its port is bound to just if no such variable was left over
(`compile_recorded_iff`).  As long as parameters are allocated by compilations only, none is
(`compile_recorded`).
-/

namespace Dataflow

open Attempt

namespace Compiler

/-- What can be asked of a compiler. -/
inductive Operation where
  /-- To compile a model into a function of a given name. -/
  | compile (model : Model) (name : String)
  /-- To allocate the parameters of a model. -/
  | allocateParameters (model : Model)
  /-- To allocate the variable of a port. -/
  | allocatePort (port : OutputPort) (initial : Option Float)
  /-- To allocate the variable of a port that has none. -/
  | getOrAllocatePort (port : OutputPort) (initial : Option Float)
  /-- To allocate the variable of a port with the values that it holds. -/
  | allocateData (port : OutputPort) (values : List Float)
  /-- To allocate a variable for one call. -/
  | allocateScratch (elementType : ElementType) (size : ℕ)
  /-- To open a scope. -/
  | pushScope
  /-- To close a scope. -/
  | popScope
  /-- To bind a port. -/
  | bindPort (port : PortId) (var : VarId)
  /-- To bind the port that a range belongs to. -/
  | bindElement (range : PortRange) (var : VarId)

/-- What an operation makes of a compiler, whether or not it fails. -/
def perform (compiler : Compiler Assembler) : Operation → Compiler Assembler
  | .compile model name => (compile model name).after compiler
  | .allocateParameters model => (allocateParameters model).after compiler
  | .allocatePort port initial => (allocatePort port initial).after compiler
  | .getOrAllocatePort port initial => (getOrAllocatePort port initial).after compiler
  | .allocateData port values => (allocateData port values).after compiler
  | .allocateScratch elementType size => (allocateScratch elementType size).after compiler
  | .pushScope => compiler.pushScope
  | .popScope => compiler.popScope.2
  | .bindPort port var => compiler.bindPort port var
  | .bindElement range var => compiler.bindElement range var

end Compiler

/-! ## Orderly assemblers -/

namespace Assembler

/-- An assembler whose variables are numbered by position and have only grown since the latest
finished function. -/
structure Orderly (a : Assembler) : Prop where
  tidy : a.Tidy
  committed : a.committed.vars ≤ a.vars.size

namespace Orderly

variable {a b : Assembler}

lemma fresh (name : String) (policy : MergePolicy) (limit : ℕ) :
    (Assembler.fresh name policy limit).Orderly :=
  ⟨.fresh name policy limit, le_refl _⟩

lemma step (h : a.Orderly) (hstep : a.Step added b) : b.Orderly :=
  ⟨hstep.tidy, hstep.committed_eq ▸ h.committed.trans hstep.vars.size_le⟩

lemma declare (h : a.Orderly) (spec : VariableSpec) : (a.declare spec).Orderly := by
  have hlist := a.vars.toList_declare_variable spec
  refine ⟨⟨VariableTable.numbered_concat h.tidy.numbered hlist rfl, h.tidy.sound⟩, ?_⟩
  rw [vars_declare, VariableTable.size_declare]
  exact h.committed.trans (Nat.le_succ _)

lemma endFunction (h : a.Orderly) (hnext : a.endFunction = .ok b) : b.Orderly := by
  obtain ⟨pending, -, rfl⟩ := endFunction_eq_ok.mp hnext
  exact ⟨⟨h.tidy.numbered, fun _ h => (nomatch h)⟩, le_refl _⟩

lemma discardFunction (h : a.Orderly) : a.discardFunction.Orderly := by
  refine ⟨⟨fun id var hvar => ?_, fun _ h => (nomatch h)⟩, ?_⟩
  · rw [vars_discardFunction] at hvar
    exact h.tidy.numbered id var (a.vars.get?_truncate_eq_some.mp hvar).2
  · rw [vars_discardFunction, VariableTable.size_truncate]
    exact le_min (le_refl _) h.committed

lemma preserved : Preserved Orderly where
  declare spec h := h.declare spec
  allocate h hnext := h.step (h.tidy.allocate hnext)
  beginFunction h hnext := by
    obtain ⟨-, -, vars, -, rfl⟩ := beginFunction_eq_ok.mp hnext
    exact ⟨{ h.tidy with sound := fun _ h => Option.some.inj h ▸ RegionTable.Sound.empty _ },
      h.committed⟩
  openRegion h hnext := h.step (h.tidy.openRegion hnext).1
  emit h hnext := h.step (h.tidy.emit hnext).1
  mergeRegion node h := h.step (h.tidy.mergeRegion node).1

end Orderly

/-- An assembler in which no parameters have been allocated since the latest finished function. -/
structure Vacant (a : Assembler) : Prop extends Orderly a where
  uncommitted : ∀ var ∈ a.uncommitted, var.storage.isParameter = false

namespace Vacant

variable {a b : Assembler}

lemma of_committed (h : a.Orderly) (hsize : a.vars.size ≤ a.committed.vars) : a.Vacant := by
  refine ⟨h, fun var hvar => ?_⟩
  rw [Assembler.uncommitted, List.drop_eq_nil_of_le (by rwa [VariableTable.length_toList])] at hvar
  exact absurd hvar List.not_mem_nil

/-- A variable that is added behind the others may be one that is no parameter. -/
lemma push (h : a.Vacant) (hb : b.Orderly) (hcommitted : b.committed = a.committed)
    {var : Variable} (hvars : b.vars.toList = a.vars.toList ++ [var])
    (hvar : var.storage.isParameter = false) : b.Vacant := by
  refine ⟨hb, fun other hother => ?_⟩
  have hlength := a.vars.length_toList
  rw [Assembler.uncommitted, hcommitted, hvars,
    List.drop_append_of_le_length (by rw [hlength]; exact h.committed)] at hother
  rcases List.mem_append.mp hother with hold | hnew
  · exact h.uncommitted other hold
  · rwa [List.mem_singleton.mp hnew]

lemma declare (h : a.Vacant) {spec : VariableSpec} (hspec : spec.storage.isParameter = false) :
    (a.declare spec).Vacant :=
  h.push (h.toOrderly.declare spec) rfl (a.vars.toList_declare_variable spec) hspec

lemma allocate (h : a.Vacant) {spec : VariableSpec} (hspec : spec.storage.isParameter = false)
    (hnext : (a.declare spec).allocate a.vars.next = .ok b) : b.Vacant :=
  h.push (h.step (h.tidy.allocate hnext)) (h.tidy.allocate hnext).committed_eq
    (toList_allocate_declare hnext) hspec

end Vacant
end Assembler

/-- An input that is handed out as it is. -/
def Model.echo : Model :=
  ⟨"a", #[⟨⟨0⟩, "x", .input, [], .real, 1⟩,
    ⟨⟨1⟩, "y", .output, [⟨"input", ⟨[⟨⟨0⟩, 0, 1⟩]⟩⟩], .real, 1⟩]⟩

namespace Compiler

/-! ## What a history preserves -/

section

variable {J : Assembler → Prop} {options : Options}

lemma keeps_allocateBound {spec : VariableSpec}
    (hspec : Keeps (Upholds J options) VarId (allocate spec)) (port : PortId) :
    Keeps (Upholds J options) VarId (do
      let var ← allocate spec
      modify fun compiler => compiler.bindPort port var
      return var) :=
  .bind hspec fun _ => .bind (keeps_modify (fun _ => rfl) fun _ => rfl) fun _ => .pure _

section

variable (hJ : ∀ spec : VariableSpec, spec.storage.isParameter = false →
  Keeps (Upholds J options) VarId (allocate spec))

include hJ

lemma keeps_allocatePort (port : OutputPort) (initial : Option Float) :
    Keeps (Upholds J options) VarId (allocatePort port initial) := by
  unfold allocatePort
  simp only
  split
  · exact .bind (.ofExcept (.error _)) fun _ => keeps_allocateBound (hJ _ rfl) port.id
  · exact keeps_allocateBound (hJ _ rfl) port.id

lemma keeps_getOrAllocatePort (port : OutputPort) (initial : Option Float) :
    Keeps (Upholds J options) VarId (getOrAllocatePort port initial) := by
  rw [getOrAllocatePort_eq]
  refine .bind (fun _ h => h) fun compiler => ?_
  cases compiler.variableOf? port.id with
  | some var => exact .pure var
  | none => exact keeps_allocatePort hJ port initial

lemma keeps_allocateData (port : OutputPort) (values : List Float) :
    Keeps (Upholds J options) VarId (allocateData port values) := by
  unfold allocateData
  simp only
  split
  · exact .bind (.ofExcept (.error _)) fun _ => keeps_allocateBound (hJ _ rfl) port.id
  · exact keeps_allocateBound (hJ _ rfl) port.id

/-- What allocations that are no parameters preserve, and compilations, any operation preserves that
does not allocate parameters. -/
lemma perform_upholds {operation : Operation}
    (hcompile : ∀ model name, operation = .compile model name →
      Keeps (Upholds J options) CompiledFunction (compile model name))
    {compiler : Compiler Assembler} (h : Upholds J options compiler)
    (hparameters : ∀ model, operation = .allocateParameters model →
      Keeps (Upholds J options) (List Parameter) (allocateParameters model)) :
    Upholds J options (compiler.perform operation) := by
  cases operation with
  | compile model name => exact hcompile model name rfl compiler h
  | allocateParameters model => exact hparameters model rfl compiler h
  | allocatePort port initial => exact keeps_allocatePort hJ port initial compiler h
  | getOrAllocatePort port initial => exact keeps_getOrAllocatePort hJ port initial compiler h
  | allocateData port values => exact keeps_allocateData hJ port values compiler h
  | allocateScratch elementType size => exact hJ _ rfl compiler h
  | pushScope => exact ⟨h.backend, h.options⟩
  | popScope =>
    rw [perform, popScope]
    cases compiler.scopes.pop? with
    | none => exact h
    | some scopes => exact ⟨h.backend, h.options⟩
  | bindPort port var => exact ⟨h.backend, h.options⟩
  | bindElement range var => exact ⟨h.backend, h.options⟩

end

/-- What every operation preserves holds at the end of a history. -/
lemma history_upholds {history : List Operation} {compiler : Compiler Assembler}
    (h : Upholds J options compiler) (hstep : ∀ operation ∈ history, ∀ compiler,
      Upholds J options compiler → Upholds J options (compiler.perform operation)) :
    Upholds J options (history.foldl perform compiler) := by
  induction history generalizing compiler with
  | nil => exact h
  | cons operation rest ih =>
    obtain ⟨hfirst, hrest⟩ := List.forall_mem_cons.mp hstep
    exact ih (hfirst compiler h) hrest

end

variable {program name : String} {policy : MergePolicy} {limit : ℕ} {options : Options}

/-- A compilation commits all variables or takes them back. -/
lemma compile_vacant {compiler : Compiler Assembler}
    (h : Upholds Assembler.Orderly options compiler) (model : Model) (name : String) :
    Upholds Assembler.Vacant options ((compile model name).after compiler) := by
  refine compile_upholds Assembler.Orderly.preserved (fun h hnext => ?_) (fun h => ?_) h model name
  · refine .of_committed (h.endFunction hnext) ?_
    obtain ⟨pending, -, rfl⟩ := Assembler.endFunction_eq_ok.mp hnext
    exact le_refl _
  · refine .of_committed h.discardFunction ?_
    rw [Assembler.vars_discardFunction, VariableTable.size_truncate]
    exact min_le_left _ _

/-- What every operation of an assembler preserves, a history of a compiler preserves. -/
lemma history_preserved {J : Assembler → Prop} (hJ : Assembler.Preserved J)
    (hend : ∀ {a next}, J a → a.endFunction = .ok next → J next)
    (hdiscard : ∀ {a}, J a → J a.discardFunction)
    (h : J (Assembler.fresh program policy limit)) (history : List Operation) :
    J (history.foldl perform
      (fresh (Assembler.fresh program policy limit) options)).backend := by
  refine (history_upholds (J := J) ⟨h, rfl⟩ fun operation _ compiler h => ?_).backend
  exact perform_upholds
    (fun spec _ => keeps_allocate (fun h => hJ.declare spec h) fun h => hJ.allocate h)
    (fun model name _ _ h => compile_upholds hJ hend hdiscard h model name) h
    fun model _ => (congruence_keeps hJ options).allocateParameters model

lemma history_orderly (history : List Operation) :
    (history.foldl perform
      (fresh (Assembler.fresh program policy limit) options)).backend.Orderly :=
  history_preserved Assembler.Orderly.preserved (fun h hnext => h.endFunction hnext)
    (fun h => h.discardFunction) (.fresh program policy limit) history

/-- No operation changes the storage limit. -/
lemma history_limit (history : List Operation) :
    (history.foldl perform
      (fresh (Assembler.fresh program policy limit) options)).backend.limit = limit := by
  refine history_preserved (J := fun a => a.limit = limit) (.of_frame (fun _ h => h)
    (fun _ h => h) fun h hnext => ?_) (fun h hnext => ?_) (fun h => h) rfl history
  · obtain ⟨var, -, -, -, rfl⟩ := Assembler.allocate_eq_ok.mp hnext
    exact h
  · obtain ⟨pending, -, rfl⟩ := Assembler.endFunction_eq_ok.mp hnext
    exact h

/-- If only compilations allocate parameters, none are left over by the end of a history. -/
lemma history_vacant {history : List Operation}
    (hhistory : ∀ model, Operation.allocateParameters model ∉ history) :
    (history.foldl perform
      (fresh (Assembler.fresh program policy limit) options)).backend.Vacant := by
  have hallocate : ∀ spec : VariableSpec, spec.storage.isParameter = false →
      Keeps (Upholds Assembler.Vacant options) VarId (allocate spec) := fun spec hspec =>
    keeps_allocate (fun h => h.declare hspec) fun h => h.allocate hspec
  have hcompile (model : Model) (name : String) :
      Keeps (Upholds Assembler.Vacant options) CompiledFunction (compile model name) :=
    fun compiler h => compile_vacant ⟨h.backend.toOrderly, h.options⟩ model name
  refine (history_upholds (J := Assembler.Vacant)
    ⟨.of_committed (.fresh program policy limit) (le_refl _), rfl⟩
    fun operation hmem compiler h => ?_).backend
  exact perform_upholds hallocate (fun model name _ => hcompile model name) h
    fun model heq => absurd (heq ▸ hmem) (hhistory model)

/-! ## The parameters of compiled functions -/

variable {model : Model} {answer : CompiledFunction} {last : Compiler Assembler}
variable {history : List Operation}

/-- What is recorded for a parameter is the variable of its port, just if no variable that was left
over has the class and the name of the port. -/
lemma Written.recorded_iff {before : Compiler Assembler} {function : Function}
    (h : Written model name before function last) {i : ℕ} {entry : StorageClass × OutputPort}
    (hentry : model.roster[i]? = some entry) :
    function.vars[i]? = last.variableOf? entry.2.id ↔ ∀ var ∈ before.backend.uncommitted,
      ¬ (var.storage = entry.1 ∧ var.name = entry.2.name) := by
  obtain ⟨hlt, hat⟩ := List.getElem?_eq_some_iff.mp hentry
  have hlt' : i < function.vars.length := h.found.length_eq ▸ hlt
  have hiff := h.found.get hlt hlt'
  rw [List.get_eq_getElem, hat, List.get_eq_getElem] at hiff
  rw [List.getElem?_eq_getElem hlt', eq_comm, hiff]
  refine forall₂_congr fun var _ => ?_
  rw [Variable.answers, decide_eq_false_iff_not]
  rfl

/-- **What is recorded for a parameter.**  After any history of a compiler, a compilation that
succeeds gives every input and output of the model, in the order of the roster, a new variable that
its port is bound to afterwards, and adds a function whose body works on variables of this
compilation only, and on no other parameters than these.  The variable that the function records for
the i-th parameter is the one of the i-th port just if no variable was left over since the latest
finished function that has the class and the name of that port. -/
theorem compile_recorded_iff (hmodel : model.WellFormed)
    (h : compile model name (history.foldl perform
      (fresh (Assembler.fresh program policy limit) options)) = .ok answer last) :
    let before := history.foldl perform (fresh (Assembler.fresh program policy limit) options)
    ∃ function : Function,
      last.backend.program.functions = before.backend.program.functions ++ [function] ∧
      answer = ⟨name, function.parameters, model.nodes.size⟩ ∧ function.name = name ∧
      function.parameters = model.roster.map (fun entry => parameterOf entry.1 entry.2) ∧
      function.vars.length = model.roster.length ∧
      (∀ (i : ℕ) (entry : StorageClass × OutputPort), model.roster[i]? = some entry →
        last.variableOf? entry.2.id = some ⟨before.backend.vars.size + i⟩ ∧
        (∃ var, last.backend.vars.get? ⟨before.backend.vars.size + i⟩ = some var ∧
          var.toParameter = parameterOf entry.1 entry.2) ∧
        (function.vars[i]? = last.variableOf? entry.2.id ↔
          ∀ var ∈ before.backend.uncommitted,
            ¬ (var.storage = entry.1 ∧ var.name = entry.2.name))) ∧
      ∀ instruction ∈ function.body, ∀ slice ∈ instruction.slices,
        before.backend.vars.size ≤ slice.var.index ∧
        ∀ var, last.backend.vars.get? slice.var = some var → var.storage.isParameter = true →
          ∃ entry ∈ model.roster, entry.1 = var.storage ∧
            last.variableOf? entry.2.id = some slice.var := by
  intro before
  have horderly : before.backend.Orderly := history_orderly history
  obtain ⟨function, hfunctions, hwritten, hanswer⟩ :=
    compile_ok_written hmodel horderly.tidy horderly.committed h
  refine ⟨function, hfunctions, hanswer, hwritten.named, hwritten.parameters,
    hwritten.found.length_eq.symm, fun i entry hentry => ?_,
    fun instruction hmem slice hslice => ?_⟩
  · obtain ⟨hbound, hvar⟩ := hwritten.enrolled i entry hentry
    exact ⟨hbound, hvar, hwritten.recorded_iff hentry⟩
  · have htouched := hwritten.touched instruction hmem slice hslice
    exact ⟨hwritten.size_le htouched, fun var => hwritten.parameter hmodel.numbered htouched⟩

theorem compile_recorded_iff_echo :
    Model.echo.WellFormed ∧ ∃ answer last,
      compile Model.echo "f" ([.compile Model.echo "e", .pushScope, .allocateScratch .real 2].foldl
        perform (fresh (Assembler.fresh "m" .always 10) .standard)) = .ok answer last ∧
      ∃ function ∈ last.backend.program.functions, function.name = "f" ∧
        function.vars[1]? = last.variableOf? ⟨1⟩ := by
  have hmodel : Model.echo.WellFormed := by decide +kernel
  have hroster : Model.echo.roster[1]? = some (.output, ⟨⟨1⟩, ⟨1⟩, "y", .real, 1⟩) := by decide
  have hcompile : (compile Model.echo "f").succeeds
      ([Operation.compile Model.echo "e", .pushScope, .allocateScratch .real 2].foldl perform
        (fresh (Assembler.fresh "m" .always 10) .standard)) (fun _ _ => true) = true := by
    decide +kernel
  obtain ⟨answer, last, h, -⟩ := Attempt.exists_of_succeeds hcompile
  obtain ⟨function, hfunctions, -, hname, -, -, hrecorded, -⟩ := compile_recorded_iff hmodel h
  refine ⟨hmodel, answer, last, h, function, hfunctions ▸ List.mem_concat_self, hname, ?_⟩
  exact (hrecorded 1 _ hroster).2.2.mpr (by decide +kernel)

/-- A parameter that was allocated before is recorded in place of the one that the function reads,
so a call does not read what it is given. -/
theorem compile_recorded_leftover : ∃ answer last,
    compile Model.echo "f" ([.allocateParameters Model.echo].foldl perform
      (fresh (Assembler.fresh "m" .always 10) .standard)) = .ok answer last ∧
    last.backend.program.functions =
      [⟨"f", [⟨"x", .input, .real, 1⟩, ⟨"y", .output, .real, 1⟩], [⟨0⟩, ⟨1⟩],
        [.copy ⟨⟨3⟩, 0, 1⟩ ⟨⟨2⟩, 0, 1⟩]⟩] ∧
    last.variableOf? ⟨0⟩ = some ⟨2⟩ ∧ last.variableOf? ⟨1⟩ = some ⟨3⟩ ∧
    ((Machine.start last.backend.program).call "f" [[3]]).1 = .ok [[0]] := by
  have hcompile : (compile Model.echo "f").succeeds
      ([Operation.allocateParameters Model.echo].foldl perform
        (fresh (Assembler.fresh "m" .always 10) .standard)) (fun _ last => decide
      (last.backend.program.functions =
        [⟨"f", [⟨"x", .input, .real, 1⟩, ⟨"y", .output, .real, 1⟩], [⟨0⟩, ⟨1⟩],
          [.copy ⟨⟨3⟩, 0, 1⟩ ⟨⟨2⟩, 0, 1⟩]⟩] ∧
      last.variableOf? ⟨0⟩ = some ⟨2⟩ ∧ last.variableOf? ⟨1⟩ = some ⟨3⟩ ∧
      ((Machine.start last.backend.program).call "f" [[3]]).1 = .ok [[0]])) = true := by
    decide +kernel
  obtain ⟨answer, last, h, htest⟩ := Attempt.exists_of_succeeds hcompile
  exact ⟨answer, last, h, of_decide_eq_true htest⟩

/-- **Parameters that only compilations allocate are recorded rightly.**  After a history that
allocates no parameters but by compiling, the variable that a compiled function records for its i-th
parameter is the one that the i-th port of the roster is bound to. -/
theorem compile_recorded (hmodel : model.WellFormed)
    (hhistory : ∀ other, Operation.allocateParameters other ∉ history)
    (h : compile model name (history.foldl perform
      (fresh (Assembler.fresh program policy limit) options)) = .ok answer last) :
    ∃ function ∈ last.backend.program.functions, function.name = name ∧
      function.vars.length = model.roster.length ∧
      ∀ (i : ℕ) (entry : StorageClass × OutputPort), model.roster[i]? = some entry →
        function.vars[i]? = last.variableOf? entry.2.id := by
  have hvacant : (history.foldl perform
      (fresh (Assembler.fresh program policy limit) options)).backend.Vacant :=
    history_vacant hhistory
  obtain ⟨function, hfunctions, hwritten, -⟩ :=
    compile_ok_written hmodel hvacant.tidy hvacant.committed h
  refine ⟨function, hfunctions ▸ List.mem_concat_self, hwritten.named,
    hwritten.found.length_eq.symm, fun i entry hentry => ?_⟩
  refine (hwritten.recorded_iff hentry).mpr fun var hvar hsame => ?_
  obtain ⟨node, -, rfl, hstorage⟩ := Model.mem_roster.mp (List.mem_of_getElem? hentry)
  have hclass := hvacant.uncommitted var hvar
  rw [hsame.1] at hclass
  cases hkind : node.kind.storage with
  | global => exact hstorage hkind
  | scratch => cases hnode : node.kind <;> rw [hnode] at hkind <;> cases hkind
  | input | output =>
    simp only [hkind] at hclass
    cases hclass

end Compiler
end Dataflow
