import Dataflow.Proofs.Compiler.Balance
import Dataflow.Proofs.Compiler.History

/-!
# The counts of a session

Compilers may share a session (`Workshop`).  Each has an assembler of its own, and all count in one
place, in whatever order they are called, and whether or not a call succeeds.  The counts add up
(`Workshop.counts_add_up`): what a call adds to them depends on how far it gets
(`Workshop.Counted`), and the totals agree with each other and with the answers
(`Statistics.Totals`).
-/

namespace Dataflow

/-- Compilers that share a session. -/
structure Workshop where
  /-- The session. -/
  session : Session
  /-- The compilers, without the session that they share. -/
  compilers : ℕ → Compiler Assembler

namespace Workshop

/-- A call of a compiler, to compile a model into a function. -/
structure Call where
  /-- The number of the compiler. -/
  compiler : ℕ
  /-- The model. -/
  model : Model
  /-- The name of the function. -/
  name : String

/-- Compilers that have not compiled anything. -/
def fresh (names : ℕ → String) (policies : ℕ → MergePolicy) (limits : ℕ → ℕ)
    (options : ℕ → Options) : Workshop :=
  ⟨.fresh, fun i => .fresh (.fresh (names i) (policies i) (limits i)) (options i)⟩

/-- A compiler with the session. -/
def compiler (w : Workshop) (i : ℕ) : Compiler Assembler :=
  { w.compilers i with session := w.session }

/-- Has a compiler compile a model. -/
def serve (w : Workshop) (call : Call) : Except CompileError CompiledFunction × Workshop :=
  let (answer, next) := (w.compiler call.compiler).serve (call.model, call.name)
  (answer, ⟨next.session, Function.update w.compilers call.compiler next⟩)

end Workshop

/-! ## Totals -/

namespace Statistics

/-- The largest function is the first one of those with the most nodes, and has no name as long as
there are no nodes. -/
structure LargestOf (functions : List CompiledFunction) (s : Statistics) : Prop where
  most : ∀ function ∈ functions, function.nodeCount ≤ s.largestNodes
  nameless : s.largestNodes = 0 → s.largestName = ""
  first : 0 < s.largestNodes → ∃ before function after, functions = before ++ function :: after ∧
    (∀ earlier ∈ before, earlier.nodeCount < function.nodeCount) ∧
    s.largestNodes = function.nodeCount ∧ s.largestName = function.name

/-- The counts agree with each other and with the answers to the calls. -/
structure Totals (calls : List Workshop.Call)
    (answers : List (Except CompileError CompiledFunction)) (s : Statistics) : Prop where
  calls : s.functionsCompiled + s.functionsDiscarded = calls.length
  compiled : s.functionsCompiled = (answers.filterMap Except.toOption).length
  kinds : s.nodesCompiled = s.kindsCompiled
  standalone : s.standaloneRegions + s.regionsMerged = s.regionsCreated
  largest : s.LargestOf (answers.filterMap Except.toOption)

variable {s t : Statistics} {functions : List CompiledFunction}
variable {calls : List Workshop.Call} {answers : List (Except CompileError CompiledFunction)}
variable {regions nodes attempts : ℕ}

lemma standalone_iff :
    s.standaloneRegions + s.regionsMerged = s.regionsCreated ↔
      s.regionsMerged ≤ s.regionsCreated := by
  rw [standaloneRegions]
  omega

lemma LargestOf.congr (h : s.LargestOf functions) (hnodes : t.largestNodes = s.largestNodes)
    (hname : t.largestName = s.largestName) : t.LargestOf functions := by
  obtain ⟨hmost, hnameless, hfirst⟩ := h
  rw [← hnodes] at hmost hnameless hfirst
  rw [← hname] at hnameless hfirst
  exact ⟨hmost, hnameless, hfirst⟩

/-- Another function is the largest one only if it has more nodes than all before it. -/
lemma LargestOf.concat (h : s.LargestOf functions) (function : CompiledFunction) :
    (s.functionCompiled function.name function.nodeCount).LargestOf (functions ++ [function]) := by
  rw [functionCompiled]
  by_cases hlarger : s.largestNodes < function.nodeCount
  · rw [if_pos hlarger]
    refine ⟨fun other hmem => ?_, fun hzero => ?_, fun _ => ?_⟩
    · rcases List.mem_append.mp hmem with hmem | hmem
      · exact (h.most other hmem).trans hlarger.le
      · rw [List.mem_singleton.mp hmem]
    · simp only at hzero
      omega
    · exact ⟨functions, function, [], rfl,
        fun earlier hmem => (h.most earlier hmem).trans_lt hlarger, rfl, rfl⟩
  · rw [if_neg hlarger]
    refine ⟨fun other hmem => ?_, h.nameless, fun hpos => ?_⟩
    · rcases List.mem_append.mp hmem with hmem | hmem
      · exact h.most other hmem
      · rw [List.mem_singleton.mp hmem]
        exact not_lt.mp hlarger
    · obtain ⟨before, first, after, hsplit, hbefore, hnodes, hname⟩ := h.first hpos
      exact ⟨before, first, after ++ [function], by rw [hsplit]; simp, hbefore, hnodes, hname⟩

namespace Totals

lemma zero : Totals [] [] .zero :=
  ⟨rfl, rfl, rfl, rfl, fun _ hmem => absurd hmem List.not_mem_nil, fun _ => rfl,
    fun hpos => absurd hpos (Nat.lt_irrefl 0)⟩

/-- Merges are no more than regions as long as no more are attempted than regions are opened. -/
lemma grows (h : Totals calls answers s) (hgrows : s.Grows regions nodes attempts t)
    (hattempts : attempts ≤ regions) :
    t.nodesCompiled = t.kindsCompiled ∧
      t.standaloneRegions + t.regionsMerged = t.regionsCreated := by
  refine ⟨by rw [hgrows.compiled, hgrows.kinds, h.kinds], standalone_iff.mpr ?_⟩
  have hmerged := hgrows.merged_le
  have hcreated := hgrows.created
  have hbefore := standalone_iff.mp h.standalone
  omega

/-- A failure is counted. -/
lemma failed (h : Totals calls answers s) (call : Workshop.Call) (error : CompileError)
    (hgrows : s.Grows regions nodes attempts t.functionDiscarded) (hattempts : attempts ≤ regions)
    (hclosing : t.closing = s.closing) :
    Totals (calls ++ [call]) (answers ++ [.error error]) t.functionDiscarded := by
  obtain ⟨hkinds, hstandalone⟩ := h.grows hgrows hattempts
  have hanswers : (answers ++ [Except.error error]).filterMap Except.toOption =
      answers.filterMap Except.toOption := by
    rw [List.filterMap_append]
    exact List.append_nil _
  simp only [closing, Prod.mk.injEq] at hclosing
  obtain ⟨hcompiled, hdiscarded, hnodes, hname⟩ := hclosing
  have hlargest : t.functionDiscarded.LargestOf (answers.filterMap Except.toOption) :=
    h.largest.congr hnodes hname
  refine ⟨?_, ?_, hkinds, hstandalone, hanswers ▸ hlargest⟩
  · have hcalls := h.calls
    simp only [functionDiscarded, hcompiled, hdiscarded, List.length_append,
      List.length_singleton]
    omega
  · rw [hanswers, ← h.compiled]
    exact hcompiled

/-- A success is counted, and may be the largest function. -/
lemma succeeded (h : Totals calls answers s) (call : Workshop.Call) (function : CompiledFunction)
    (hgrows : s.Grows regions nodes attempts
      (t.functionCompiled function.name function.nodeCount))
    (hattempts : attempts ≤ regions) (hclosing : t.closing = s.closing) :
    Totals (calls ++ [call]) (answers ++ [.ok function])
      (t.functionCompiled function.name function.nodeCount) := by
  obtain ⟨hkinds, hstandalone⟩ := h.grows hgrows hattempts
  have hanswers : (answers ++ [Except.ok function]).filterMap Except.toOption =
      answers.filterMap Except.toOption ++ [function] := by
    rw [List.filterMap_append]
    rfl
  simp only [closing, Prod.mk.injEq] at hclosing
  obtain ⟨hbefore, hdiscardedBefore, hnodes, hname⟩ := hclosing
  have hlargest := (h.largest.congr hnodes hname).concat function
  have hcompiled : (t.functionCompiled function.name function.nodeCount).functionsCompiled =
      s.functionsCompiled + 1 := by
    rw [functionCompiled]
    split <;> exact congrArg (· + 1) hbefore
  have hdiscarded : (t.functionCompiled function.name function.nodeCount).functionsDiscarded =
      s.functionsDiscarded := by
    rw [functionCompiled]
    split <;> exact hdiscardedBefore
  refine ⟨?_, ?_, hkinds, hstandalone, hanswers ▸ hlargest⟩
  · have hcalls := h.calls
    rw [hcompiled, hdiscarded, List.length_append, List.length_singleton]
    omega
  · rw [hanswers, hcompiled, h.compiled, List.length_append, List.length_singleton]

end Totals

end Statistics

/-! ## Calls -/

lemma Options.attempts_le (options : Options) (nodes : ℕ) : options.attempts nodes ≤ nodes := by
  rw [attempts]
  split <;> omega

lemma Compiler.FailsAfter.le {model : Model} {name : String} {c : Compiler Assembler}
    {regions nodes : ℕ} (h : FailsAfter model name c regions nodes) : nodes ≤ regions := by
  cases h with
  | start => exact le_rfl
  | region => exact le_rfl
  | lowering => exact Nat.le_succ _

namespace Workshop

open Compiler

/-- The assemblers hold what they do between compilations. -/
structure Ready (w : Workshop) : Prop where
  orderly : ∀ i, (w.compilers i).backend.Orderly
  settled : ∀ i, (w.compilers i).backend.Settled

/-- What a call adds to the counts. -/
structure Counted (w : Workshop) (call : Call) : Prop where
  /-- A call that succeeds counts the regions, nodes and merges of all nodes, the variables that it
  has allocated and the instructions of the function. -/
  success : ∀ function, (w.serve call).1 = .ok function →
    function.name = call.name ∧ function.nodeCount = call.model.nodes.size ∧
      w.session.statistics.Grows call.model.nodes.size call.model.nodes.size
        ((w.compilers call.compiler).options.attempts call.model.nodes.size)
        (w.serve call).2.session.statistics ∧
      (∃ added, ((w.serve call).2.compilers call.compiler).backend.vars.toList =
          (w.compilers call.compiler).backend.vars.toList ++ added ∧
        (w.serve call).2.session.statistics.variablesAllocated =
          w.session.statistics.variablesAllocated + added.length) ∧
      ∃ registered, ((w.serve call).2.compilers call.compiler).backend.program.functions =
          (w.compilers call.compiler).backend.program.functions ++ [registered] ∧
        (w.serve call).2.session.statistics.instructionsEmitted =
          w.session.statistics.instructionsEmitted + registered.body.length
  /-- A call that fails at one of the places counts what it has done by then. -/
  failure : ∀ regions nodes,
    FailsAfter call.model call.name (w.compiler call.compiler) regions nodes →
    (∃ error, (w.serve call).1 = .error error) ∧
      w.session.statistics.Grows regions nodes
        ((w.compilers call.compiler).options.attempts nodes)
        (w.serve call).2.session.statistics
  /-- A call that fails does so at one of the places. -/
  place : ∀ error, (w.serve call).1 = .error error → ∃ regions nodes,
    FailsAfter call.model call.name (w.compiler call.compiler) regions nodes

variable {w : Workshop} {call : Call} {function : CompiledFunction} {error : CompileError}
variable {d : Compiler Assembler}

lemma serve_of_ok (h : compile call.model call.name (w.compiler call.compiler) = .ok function d) :
    w.serve call = (.ok function, ⟨d.session, Function.update w.compilers call.compiler d⟩) := by
  simp only [serve, Compiler.serve, Attempt.outcome, Attempt.after, h]

lemma serve_of_error
    (h : compile call.model call.name (w.compiler call.compiler) = .error error d) :
    w.serve call = (.error error, ⟨d.session, Function.update w.compilers call.compiler d⟩) := by
  simp only [serve, Compiler.serve, Attempt.outcome, Attempt.after, h]

namespace Ready

lemma fresh (names : ℕ → String) (policies : ℕ → MergePolicy) (limits : ℕ → ℕ)
    (options : ℕ → Options) : (Workshop.fresh names policies limits options).Ready :=
  ⟨fun _ => .fresh _ _ _, fun _ => settled_fresh _ _ _⟩

lemma serve (h : w.Ready) (call : Call) : (w.serve call).2.Ready := by
  have hupholds : (w.compiler call.compiler).Upholds Assembler.Orderly
      (w.compilers call.compiler).options := ⟨h.orderly call.compiler, rfl⟩
  have horderly : ((w.compiler call.compiler).serve (call.model, call.name)).2.backend.Orderly :=
    (compile_upholds Assembler.Orderly.preserved (fun h hnext => h.endFunction hnext)
      (fun h => h.discardFunction) hupholds call.model call.name).backend
  have hbefore : (w.compiler call.compiler).backend.Settled := h.settled call.compiler
  have hsettled := serve_settled hbefore (call.model, call.name)
  refine ⟨fun i => ?_, fun i => ?_⟩
  all_goals
    by_cases hi : i = call.compiler
    · subst hi
      simpa only [Workshop.serve, Function.update_self]
    · simp only [Workshop.serve, Function.update_of_ne hi]
      first | exact h.orderly i | exact h.settled i

lemma counted (h : w.Ready) (call : Call) : w.Counted call where
  success function hanswer := by
    cases hrun : compile call.model call.name (w.compiler call.compiler) with
    | error error d =>
      rw [serve_of_error hrun] at hanswer
      cases hanswer
    | ok function d =>
      obtain ⟨hgrows, hvars, hbody, hname, hnodes, -⟩ :=
        compile_ok_counts (c := w.compiler call.compiler) (h.orderly call.compiler).tidy
          (h.settled call.compiler).pending hrun
      rw [serve_of_ok hrun] at hanswer ⊢
      obtain rfl := Except.ok.inj hanswer
      simp only [Function.update_self]
      exact ⟨hname, hnodes, hgrows, hvars, hbody⟩
  failure regions nodes hfails := by
    obtain ⟨error, d, hrun, hgrows, -⟩ := hfails.compile
    rw [serve_of_error hrun]
    exact ⟨⟨error, rfl⟩, hgrows⟩
  place error hanswer := by
    cases hrun : compile call.model call.name (w.compiler call.compiler) with
    | ok function d =>
      rw [serve_of_ok hrun] at hanswer
      cases hanswer
    | error error d => exact exists_failsAfter hrun

/-- The totals stay right. -/
lemma totals {calls : List Call} {answers : List (Except CompileError CompiledFunction)}
    (h : w.Ready) (htotals : Statistics.Totals calls answers w.session.statistics) (call : Call) :
    Statistics.Totals (calls ++ [call]) (answers ++ [(w.serve call).1])
      (w.serve call).2.session.statistics := by
  cases hrun : compile call.model call.name (w.compiler call.compiler) with
  | error error d =>
    obtain ⟨regions, nodes, hfails⟩ := exists_failsAfter hrun
    obtain ⟨error', d', hrun', hgrows, s, hclosing, hstatistics⟩ := hfails.compile
    obtain ⟨rfl, rfl⟩ := EStateM.Result.error.inj (hrun.symm.trans hrun')
    rw [serve_of_error hrun]
    rw [hstatistics] at hgrows
    have hnext := htotals.failed call error hgrows
      ((Options.attempts_le _ _).trans hfails.le) hclosing
    rwa [← hstatistics] at hnext
  | ok function d =>
    obtain ⟨hgrows, -, -, hname, hnodes, s, hclosing, hstatistics⟩ :=
      compile_ok_counts (c := w.compiler call.compiler) (h.orderly call.compiler).tidy
        (h.settled call.compiler).pending hrun
    rw [serve_of_ok hrun]
    rw [← hname, ← hnodes] at hstatistics
    rw [hstatistics] at hgrows
    have hnext := htotals.succeeded call function hgrows (Options.attempts_le _ _) hclosing
    rwa [← hstatistics] at hnext

end Ready

/-- **The counts add up.**  Whatever is called in a session, every call is counted as compiled or as
discarded, the nodes are those of all kinds together, no more regions are merged than opened, and
the largest function is the first of those with the most nodes.  Any further call adds what it has
got done. -/
theorem counts_add_up (names : ℕ → String) (policies : ℕ → MergePolicy) (limits : ℕ → ℕ)
    (options : ℕ → Options) (calls : List Call) :
    let run := transcript serve (fresh names policies limits options) calls
    Statistics.Totals calls run.1 run.2.session.statistics ∧ ∀ call, run.2.Counted call := by
  intro run
  obtain ⟨hready, htotals⟩ : Ready run.2 ∧ Statistics.Totals calls run.1 run.2.session.statistics :=
    transcript_accumulate
      (P := fun calls answers w => Ready w ∧ Statistics.Totals calls answers w.session.statistics)
      ⟨.fresh names policies limits options, .zero⟩
      (fun calls answers w call h => ⟨h.1.serve call, h.1.totals h.2 call⟩) calls
  exact ⟨htotals, hready.counted⟩

/-- Of two models that two compilers are given, the second one fails at its second node. -/
example :
    let lacking : Model := ⟨"lacking", #[⟨⟨0⟩, "x", .input, [], .real, 1⟩,
      ⟨⟨1⟩, "y", .unary .neg, [], .real, 1⟩]⟩
    let start := fresh (fun _ => "m") (fun _ => .always) (fun _ => 10) fun _ => .standard
    let stats := (transcript serve start
      [⟨0, Model.negatedTwice, "f"⟩, ⟨1, lacking, "g"⟩]).2.session.statistics
    (stats.functionsCompiled, stats.functionsDiscarded, stats.regionsCreated, stats.nodesCompiled,
      stats.regionsMerged, stats.largestName) = (1, 1, 4 + 2, 4 + 1, 3 + 0, "f") := by
  decide +kernel

end Workshop

end Dataflow
