import Dataflow.Model.Basic

/-!
# Compilation statistics

A session counts what its compilations do.  Apart from the regions of a function under construction,
the counts are the only place where one sees whether regions were merged.
-/

namespace Dataflow

/-- Counts over all compilations of a session. -/
structure Statistics where
  /-- The functions that were compiled. -/
  functionsCompiled : Nat
  /-- The compilations that failed. -/
  functionsDiscarded : Nat
  /-- The nodes that were compiled. -/
  nodesCompiled : Nat
  /-- The nodes that were compiled of each kind, in the order in which the kinds first occurred. -/
  nodeCounts : List (String × Nat)
  /-- The regions that were opened. -/
  regionsCreated : Nat
  /-- The regions that were folded into others. -/
  regionsMerged : Nat
  /-- The merges that were refused. -/
  mergesRefused : Nat
  /-- The variables that were allocated. -/
  variablesAllocated : Nat
  /-- The instructions that were handed to the backend. -/
  instructionsEmitted : Nat
  /-- The number of nodes of the largest function. -/
  largestNodes : Nat
  /-- The name of the largest function, empty as long as no function has a node. -/
  largestName : String
deriving DecidableEq, Repr

namespace Statistics

/-- The counts before the first compilation. -/
def zero : Statistics := ⟨0, 0, 0, [], 0, 0, 0, 0, 0, 0, ""⟩

/-- One more occurrence of a kind. -/
def increment (kind : String) : List (String × Nat) → List (String × Nat)
  | [] => [(kind, 1)]
  | (other, count) :: rest =>
    if other = kind then (other, count + 1) :: rest else (other, count) :: increment kind rest

/-- Counts a compiled function.  Of two functions of the same size the earlier one stays the largest
one. -/
def functionCompiled (stats : Statistics) (name : String) (nodes : Nat) : Statistics :=
  let counted := { stats with functionsCompiled := stats.functionsCompiled + 1 }
  if stats.largestNodes < nodes then { counted with largestNodes := nodes, largestName := name }
  else counted

/-- Counts a failed compilation. -/
def functionDiscarded (stats : Statistics) : Statistics :=
  { stats with functionsDiscarded := stats.functionsDiscarded + 1 }

/-- Counts a compiled node. -/
def nodeCompiled (stats : Statistics) (kind : String) : Statistics :=
  { stats with nodesCompiled := stats.nodesCompiled + 1,
               nodeCounts := increment kind stats.nodeCounts }

/-- Counts a region. -/
def regionCreated (stats : Statistics) : Statistics :=
  { stats with regionsCreated := stats.regionsCreated + 1 }

/-- Counts an attempt to merge regions. -/
def mergeAttempted (stats : Statistics) (merged : Bool) : Statistics :=
  if merged then { stats with regionsMerged := stats.regionsMerged + 1 }
  else { stats with mergesRefused := stats.mergesRefused + 1 }

/-- Counts an allocated variable. -/
def variableAllocated (stats : Statistics) : Statistics :=
  { stats with variablesAllocated := stats.variablesAllocated + 1 }

/-- Counts an instruction. -/
def instructionEmitted (stats : Statistics) : Statistics :=
  { stats with instructionsEmitted := stats.instructionsEmitted + 1 }

/-- The regions that were not folded into others. -/
def standaloneRegions (stats : Statistics) : Nat := stats.regionsCreated - stats.regionsMerged

/-! ## Report -/

/-- The kinds that a report lists at most. -/
def breakdownLimit : Nat := 10

/-- Whether a kind comes before another one, or is the same, in a report: frequent kinds come first,
and equally frequent ones are in the order of their names. -/
def ranksBefore (a b : String × Nat) : Bool :=
  b.2 < a.2 || (a.2 = b.2 && a.1 ≤ b.1)

/-- The most frequent kinds. -/
def breakdown (stats : Statistics) : List (String × Nat) :=
  (stats.nodeCounts.mergeSort ranksBefore).take breakdownLimit

/-- The lines of a report. -/
def lines (stats : Statistics) : List String :=
  ["Compilation Session Statistics:",
    s!"  Functions compiled: {stats.functionsCompiled}",
    s!"  Functions discarded: {stats.functionsDiscarded}",
    s!"  Nodes compiled: {stats.nodesCompiled}",
    s!"  Regions created: {stats.regionsCreated}",
    s!"  Regions merged: {stats.regionsMerged}",
    s!"  Merges refused: {stats.mergesRefused}",
    s!"  Variables allocated: {stats.variablesAllocated}",
    s!"  Ops emitted: {stats.instructionsEmitted}"] ++
  (if stats.largestName = "" then []
    else [s!"  Largest function: {stats.largestName} ({stats.largestNodes} nodes)"]) ++
  (if stats.nodeCounts.isEmpty then []
    else "  Node breakdown:" ::
      stats.breakdown.map fun (kind, count) => s!"    {kind}: {count}")

/-- The report of the counts. -/
def text (stats : Statistics) : String :=
  String.join (stats.lines.map fun line => line ++ "\n")

end Statistics

/-- What the compilations of one compiler have in common. -/
structure Session where
  /-- The counts. -/
  statistics : Statistics
  /-- The name of the function that is being compiled. -/
  currentFunction : Option String
deriving DecidableEq, Repr

namespace Session

/-- A session before its first compilation. -/
def fresh : Session := ⟨.zero, none⟩

/-- Counts something. -/
def count (session : Session) (step : Statistics → Statistics) : Session :=
  { session with statistics := step session.statistics }

/-- Notes that the compilation of a function begins. -/
def enter (session : Session) (name : String) : Session :=
  { session with currentFunction := some name }

/-- Notes that no function is being compiled. -/
def leave (session : Session) : Session := { session with currentFunction := none }

end Session
end Dataflow
