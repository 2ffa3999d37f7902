import Dataflow.Proofs.Attempt
import Dataflow.Proofs.Backend.History
import Dataflow.Proofs.Region.Walk

/-!
# Operations update by update

An operation of an assembler hands over the next assembler as a whole, or none, so that a refused
one cannot leave anything behind.  Here the operations are taken apart into single updates, between
and after which checks may fail.  An update takes effect at once, and nothing takes it back
(`Assembler.Stepwise`).

Both come to the same (`serveStepwise_eq`), since every check stands before the first update that
matters.  Folding regions takes three updates.  They give the folded table because the owner is
another region than the source, which is so in every table that can be built.
-/

namespace Dataflow
namespace Assembler

/-- An answer to an operation. -/
inductive Reply where
  /-- The number of the new variable. -/
  | declared (var : VarId)
  /-- The number of the new region. -/
  | opened (region : Option RegionId)
  /-- Nothing to say. -/
  | done
  /-- The error of an operation that is refused. -/
  | failed (error : CompileError)
  /-- Whether two regions were merged. -/
  | merged (verdict : Bool)
deriving DecidableEq, Repr

/-- Whether an operation is refused. -/
def Reply.refused : Reply → Bool
  | failed _ | merged false => true
  | declared _ | opened _ | done | merged true => false

/-- The answer of a step, and what it leaves. -/
def Reply.ofRun {α : Type} (reply : α → Reply) :
    EStateM.Result CompileError Assembler α → Reply × Assembler
  | .ok result next => (reply result, next)
  | .error error next => (.failed error, next)

/-- What an operation answers, and what it makes of the assembler. -/
def serve (a : Assembler) : Operation → Reply × Assembler
  | .declare spec => (.declared a.vars.next, Backend.declare spec a)
  | .allocate id => Reply.ofRun (fun _ => .done) (Backend.allocate id a)
  | .beginFunction name parameters =>
    Reply.ofRun (fun _ => .done) (Backend.beginFunction name parameters a)
  | .openRegion node =>
    Reply.ofRun (fun _ => .opened (a.regions?.map RegionTable.next)) (Backend.openRegion node a)
  | .emit instruction => Reply.ofRun (fun _ => .done) (Backend.emit instruction a)
  | .mergeRegion node => (Backend.mergeRegion node a).map Reply.merged id
  | .mergeRegions target source => (Backend.mergeRegions target source a).map Reply.merged id
  | .endFunction => Reply.ofRun (fun _ => .done) (Backend.endFunction a)
  | .discardFunction => (.done, Backend.discardFunction a)

/-! ## Single updates -/

namespace Stepwise

/-- Fails, and leaves what has been done so far. -/
def refuse {α : Type} (fault : BackendFault) : Attempt Assembler α := throw (.refusal fault)

/-- A check or a search, which changes nothing. -/
def ask {α : Type} (question : Assembler → Except BackendFault α) : Attempt Assembler α := do
  match question (← get) with
  | .ok result => return result
  | .error fault => refuse fault

/-- Replaces the regions of the open function. -/
def setRegions (change : RegionTable → RegionTable) : Attempt Assembler Unit :=
  modify fun a => { a with
    pending := a.pending.map fun pending => { pending with regions := change pending.regions } }

/-- Adds a variable. -/
def declare (spec : VariableSpec) : Attempt Assembler VarId := do
  let id := (← get).vars.next
  modify fun a => a.withVars (a.vars.declare spec)
  return id

/-- Reserves storage for a variable: notes that it is allocated, then what is used. -/
def allocate (id : VarId) : Attempt Assembler Unit := do
  let used := (← get).used
  let some var := (← get).vars.get? id | refuse (.unknownVariable id)
  if var.allocated then refuse (.allocatedTwice var.name)
  if (← get).limit < used + var.size then
    refuse (.storageExhausted (← get).limit var.name var.size)
  modify fun a => a.withVars (a.vars.setAllocated id true)
  modify fun a => { a with used := used + var.size }

/-- Begins a function. -/
def beginFunction (name : String) (parameters : List Parameter) : Attempt Assembler Unit := do
  if let some pending := (← get).pending then refuse (.functionOpen pending.name)
  if ((← get).program.function? name).isSome then
    refuse (.functionExists name (← get).program.name)
  let vars ← ask fun a => parameters.mapM a.variableFor
  modify fun a => { a with
    pending := some { name, parameters, vars, regions := .empty a.policy } }

/-- Opens the region of a node. -/
def openRegion (node : NodeId) : Attempt Assembler RegionId := do
  let some regions := (← get).regions? | refuse .noFunction
  let some next := regions.create? node | refuse (.regionExists node)
  setRegions fun _ => next
  return regions.next

/-- Appends an instruction to the latest region. -/
def emit (instruction : Instruction) : Attempt Assembler Unit := do
  ask fun a => a.checkInstruction instruction
  let some regions := (← get).regions? | refuse .noFunction
  let some next := regions.emit? instruction | refuse .noRegion
  setRegions fun _ => next

/-- Folds the source into the owner of the target if that is acceptable: takes its instructions
away, appends them to those of the owner, then notes where they went. -/
def fold (target source : RegionId) (state : RegionState) : Attempt Assembler Bool := do
  let some regions := (← get).regions? | return false
  if !regions.canMerge target source then return false
  let some region := regions.get? source | return false
  let owner := regions.owner target
  setRegions fun regions => regions.update source fun region => { region with instructions := [] }
  setRegions fun regions => regions.extend owner region.instructions
  setRegions fun regions => regions.update source fun region => { region with state }
  return true

/-- Folds the region of a node into the region before it. -/
def mergeRegion (node : NodeId) : Attempt Assembler Bool := do
  let some regions := (← get).regions? | return false
  match regions.regionOf? node with
  | none | some ⟨0⟩ => return false
  | some ⟨index + 1⟩ => fold ⟨index⟩ ⟨index + 1⟩ (.withPredecessor ⟨index⟩)

/-- Folds the region of a source node into that of a target node. -/
def mergeRegions (target source : NodeId) : Attempt Assembler Bool := do
  let some regions := (← get).regions? | return false
  match regions.regionOf? target, regions.regionOf? source with
  | some target, some source => fold target source (.withTarget target)
  | _, _ => return false

/-- Finishes the open function: takes it away, adds it to the program, then notes how far the
storage has grown. -/
def endFunction : Attempt Assembler Unit := do
  let open? := (← get).pending
  modify fun a => { a with pending := none }
  let some pending := open? | refuse .noFunction
  modify fun a => { a with
    program := { a.program with functions := a.program.functions ++ [pending.finish] } }
  modify fun a => { a with committed := ⟨a.vars.size, a.used⟩ }

/-- Drops the open function, then the variables since the latest finished one, then their storage.
-/
def discardFunction : Attempt Assembler Unit := do
  modify fun a => { a with pending := none }
  let committed := (← get).committed
  modify fun a => a.truncate committed.vars
  modify fun a => { a with used := committed.elements }

end Stepwise

/-- What an operation answers, and what it makes of the assembler, update by update. -/
def serveStepwise (a : Assembler) : Operation → Reply × Assembler
  | .declare spec => Reply.ofRun .declared (Stepwise.declare spec a)
  | .allocate id => Reply.ofRun (fun _ => .done) (Stepwise.allocate id a)
  | .beginFunction name parameters =>
    Reply.ofRun (fun _ => .done) (Stepwise.beginFunction name parameters a)
  | .openRegion node =>
    Reply.ofRun (fun region => .opened (some region)) (Stepwise.openRegion node a)
  | .emit instruction => Reply.ofRun (fun _ => .done) (Stepwise.emit instruction a)
  | .mergeRegion node => Reply.ofRun .merged (Stepwise.mergeRegion node a)
  | .mergeRegions target source => Reply.ofRun .merged (Stepwise.mergeRegions target source a)
  | .endFunction => Reply.ofRun (fun _ => .done) (Stepwise.endFunction a)
  | .discardFunction => Reply.ofRun (fun _ => .done) (Stepwise.discardFunction a)

variable {a : Assembler}

namespace Stepwise

lemma allocate_eq (id : VarId) : allocate id a = Backend.allocate id a := by
  show _ = Attempt.change (fun a => a.allocate id) a
  simp only [allocate, Attempt.change, Assembler.allocate, Attempt.bind_run, Attempt.get_run]
  cases a.vars.get? id with
  | none => rfl
  | some var =>
    by_cases hallocated : var.allocated = true
    · simp only [if_pos hallocated]
      rfl
    · simp only [if_neg hallocated, Attempt.bind_run, Attempt.get_run]
      by_cases hlimit : a.limit < a.used + var.size
      · simp only [if_pos hlimit]
        rfl
      · simp only [if_neg hlimit]
        rfl

lemma ask_run {α : Type} (question : Assembler → Except BackendFault α) :
    ask question a = match question a with
      | .ok result => .ok result a
      | .error fault => .error (.refusal fault) a := by
  simp only [ask, Attempt.bind_run, Attempt.get_run]
  cases question a <;> rfl

lemma beginFunction_eq (name : String) (parameters : List Parameter) :
    beginFunction name parameters a = Backend.beginFunction name parameters a := by
  show _ = Attempt.change (fun a => a.beginFunction name parameters) a
  simp only [beginFunction, Attempt.change, Assembler.beginFunction, Attempt.bind_run,
    Attempt.get_run]
  cases hpending : a.pending with
  | some pending => rfl
  | none =>
    by_cases hname : (a.program.function? name).isSome = true
    · simp only [Attempt.bind_run, Attempt.get_run, if_pos hname]
      rfl
    · simp only [Attempt.bind_run, Attempt.get_run, if_neg hname, ask_run]
      cases parameters.mapM a.variableFor <;> rfl

lemma endFunction_eq : endFunction a = Backend.endFunction a := by
  show _ = Attempt.change Assembler.endFunction a
  simp only [endFunction, Attempt.change, Assembler.endFunction, Attempt.bind_run,
    Attempt.get_run, Attempt.modify_run]
  cases hpending : a.pending with
  | some pending => rfl
  | none =>
    -- taking nothing away changes nothing
    have hsame : { a with pending := none } = a := by rw [← hpending]
    exact congrArg (EStateM.Result.error _) hsame

lemma openRegion_eq (node : NodeId) :
    Reply.ofRun (fun region => .opened (some region)) (openRegion node a) =
      Reply.ofRun (fun _ => .opened (a.regions?.map RegionTable.next))
        (Backend.openRegion node a) := by
  show _ = Reply.ofRun _ (Attempt.change (fun a => a.openRegion node) a)
  simp only [openRegion, Attempt.change, Assembler.openRegion, Attempt.bind_run, Attempt.get_run]
  cases hregions : a.regions? with
  | none => rfl
  | some regions =>
    cases hnext : regions.create? node with
    | none =>
      simp only [hnext]
      rfl
    | some next =>
      simp only [hnext]
      rfl

lemma emit_eq (instruction : Instruction) :
    emit instruction a = Backend.emit instruction a := by
  show _ = Attempt.change (fun a => a.emit instruction) a
  simp only [emit, Attempt.change, Assembler.emit, Attempt.bind_run, Attempt.get_run, ask_run]
  cases a.checkInstruction instruction with
  | error fault => rfl
  | ok =>
    simp only
    cases hregions : a.regions? with
    | none => rfl
    | some regions =>
      cases hnext : regions.emit? instruction with
      | none =>
        simp only [hnext]
        rfl
      | some next =>
        simp only [hnext]
        rfl

/-- The three updates of a fold, or none. -/
lemma fold_eq {pending : PendingFunction} (hpending : a.pending = some pending)
    (hsound : pending.regions.Sound) (target source : RegionId) (state : RegionState) :
    Reply.ofRun .merged (fold target source state a) =
      (a.accept ((if pending.regions.canMerge target source then
        some (pending.regions.fold target source state) else none).map a.withRegions)).map
          Reply.merged id := by
  have hregions : a.regions? = some pending.regions := regions?_eq_some.mpr ⟨pending, hpending, rfl⟩
  simp only [fold, Attempt.bind_run, Attempt.get_run, hregions]
  by_cases hmerge : pending.regions.canMerge target source = true
  · obtain ⟨hlt, hsize⟩ := RegionTable.lt_of_canMerge hmerge
    obtain ⟨region, hsource⟩ := RegionTable.exists_get? hsize
    have howner := (hsound.owner_le target).trans_lt hlt
    have hupdates := pending.regions.update_extend_update state region.instructions howner.ne
    simp only [hmerge, hsource, RegionTable.fold, ← hupdates, Bool.not_true, Bool.false_eq_true,
      if_false, if_true, Option.map_some, withRegions_eq hpending, Attempt.bind_run, setRegions,
      Attempt.modify_run, hpending]
    rfl
  · simp only [hmerge]
    rfl

lemma mergeRegion_eq (hsound : ∀ pending ∈ a.pending, pending.regions.Sound) (node : NodeId) :
    Reply.ofRun .merged (mergeRegion node a) =
      (Backend.mergeRegion node a).map Reply.merged id := by
  show _ = (a.accept (a.mergeRegion? node)).map Reply.merged id
  simp only [mergeRegion, Attempt.bind_run, Attempt.get_run, mergeRegion?]
  cases hpending : a.pending with
  | none =>
    simp only [regions?, hpending]
    rfl
  | some pending =>
    simp only [regions?, hpending, Option.map_some, Option.bind_eq_bind, Option.bind_some]
    cases pending.regions.regionOf? node with
    | none => rfl
    | some source =>
      obtain ⟨_ | index⟩ := source
      · rfl
      · simp only [fold_eq hpending (hsound pending hpending), Option.bind_some,
          RegionTable.mergeWithPredecessor?]
        split <;> rfl

lemma mergeRegions_eq (hsound : ∀ pending ∈ a.pending, pending.regions.Sound)
    (target source : NodeId) :
    Reply.ofRun .merged (mergeRegions target source a) =
      (Backend.mergeRegions target source a).map Reply.merged id := by
  show _ = (a.accept (a.mergeRegions? target source)).map Reply.merged id
  simp only [mergeRegions, Attempt.bind_run, Attempt.get_run, mergeRegions?]
  cases hpending : a.pending with
  | none =>
    simp only [regions?, hpending]
    rfl
  | some pending =>
    simp only [regions?, hpending, Option.map_some, Option.bind_eq_bind, Option.bind_some]
    cases pending.regions.regionOf? target with
    | none => rfl
    | some target =>
      cases pending.regions.regionOf? source with
      | none => rfl
      | some source =>
        simp only [fold_eq hpending (hsound pending hpending), Option.bind_some,
          RegionTable.mergeWithTarget?]
        split <;> rfl

end Stepwise

/-- Update by update an operation answers the same, and leaves the same. -/
theorem serveStepwise_eq (hsound : ∀ pending ∈ a.pending, pending.regions.Sound)
    (operation : Operation) : a.serveStepwise operation = a.serve operation := by
  cases operation with
  | declare | discardFunction => rfl
  | allocate id => exact congrArg (Reply.ofRun _) (Stepwise.allocate_eq id)
  | beginFunction name parameters =>
    exact congrArg (Reply.ofRun _) (Stepwise.beginFunction_eq name parameters)
  | openRegion node => exact Stepwise.openRegion_eq node
  | emit instruction => exact congrArg (Reply.ofRun _) (Stepwise.emit_eq instruction)
  | mergeRegion node => exact Stepwise.mergeRegion_eq hsound node
  | mergeRegions target source => exact Stepwise.mergeRegions_eq hsound target source
  | endFunction => exact congrArg (Reply.ofRun _) Stepwise.endFunction_eq

end Assembler
end Dataflow
