import Dataflow.Code.Instruction

/-!
# Code regions

While a function is built, the instructions of each node go to a region of its own.  A region stands
alone at first.  It may be folded into an earlier region, the one directly before it or one further
back, and that is final: its instructions move to the region that owns the other one.  A fold is
only accepted if the owner already owns every region in between, so the instructions of an owner are
those of a run of consecutive regions in the order of their creation, and joining the regions that
stand alone gives the instructions in the order in which they were emitted, whatever was folded.

A policy decides which of the acceptable folds take place.
-/

namespace Dataflow

/-- When regions are folded together. -/
inductive MergePolicy where
  /-- Every region stands alone. -/
  | never
  /-- Every acceptable fold takes place. -/
  | always
  /-- A fold takes place while the two regions together hold at most this many instructions. -/
  | atMost (limit : Nat)
deriving DecidableEq, Repr

namespace MergePolicy

/-- A policy as it is written on the command line. -/
def text : MergePolicy → String
  | never => "never"
  | always => "always"
  | atMost limit => s!"max:{limit}"

/-- The number in the text of a policy, with an optional plus sign. -/
def limit? : List Char → Option Nat
  | '+' :: digits => Word.ofDigits? digits
  | digits => Word.ofDigits? digits

/-- The policy that a text stands for. -/
def parse? (text : String) : Option MergePolicy :=
  match text.toList with
  | ['n', 'e', 'v', 'e', 'r'] => some never
  | ['a', 'l', 'w', 'a', 'y', 's'] => some always
  | 'm' :: 'a' :: 'x' :: ':' :: digits => (limit? digits).map atMost
  | _ => none

/-- Whether the policy lets a region with `added` instructions join one with `held`. -/
def allows : MergePolicy → Nat → Nat → Bool
  | never, _, _ => false
  | always, _, _ => true
  | atMost limit, held, added => held + added ≤ limit

end MergePolicy

/-- The number of a region. -/
structure RegionId where
  /-- The position in the order of creation. -/
  index : Nat
deriving DecidableEq, Repr

/-- What became of a region. -/
inductive RegionState where
  /-- The region stands alone. -/
  | standalone
  /-- The region was folded into the one before it. -/
  | withPredecessor (region : RegionId)
  /-- The region was folded into a chosen one. -/
  | withTarget (region : RegionId)
deriving DecidableEq, Repr

/-- The region that a region was folded into. -/
def RegionState.link : RegionState → Option RegionId
  | standalone => none
  | withPredecessor region => some region
  | withTarget region => some region

/-- A region. -/
structure Region where
  /-- The node whose instructions the region was opened for. -/
  node : NodeId
  /-- What became of the region. -/
  state : RegionState
  /-- The instructions it holds. -/
  instructions : List Instruction
deriving DecidableEq, Repr

/-- The regions of a function under construction. -/
structure RegionTable where
  /-- The regions in the order of creation. -/
  regions : Array Region
  /-- Which folds take place. -/
  policy : MergePolicy
deriving DecidableEq, Repr

namespace RegionTable

/-- The table without regions. -/
def empty (policy : MergePolicy) : RegionTable := ⟨#[], policy⟩

/-- The number of regions. -/
def size (table : RegionTable) : Nat := table.regions.size

/-- The region with a given number. -/
def get? (table : RegionTable) (id : RegionId) : Option Region := table.regions[id.index]?

/-- The region that was opened for a node. -/
def regionOf? (table : RegionTable) (node : NodeId) : Option RegionId :=
  (table.regions.toList.findIdx? fun region => region.node = node).map RegionId.mk

/-- The region that a region was folded into. -/
def link? (table : RegionTable) (id : RegionId) : Option RegionId :=
  (table.get? id).bind fun region => region.state.link

/-- The region that is reached from a region by at most a given number of links. -/
def follow (table : RegionTable) : Nat → RegionId → RegionId
  | 0, id => id
  | steps + 1, id =>
    match table.link? id with
    | none => id
    | some next => table.follow steps next

/-- The region that holds the instructions of a region.  Links lead to earlier regions, so there are
never more of them than regions before this one. -/
def owner (table : RegionTable) (id : RegionId) : RegionId := table.follow id.index id

/-- Opens a region for a node, unless the node has one. -/
def create? (table : RegionTable) (node : NodeId) : Option RegionTable :=
  match table.regionOf? node with
  | some _ => none
  | none => some { table with regions := table.regions.push ⟨node, .standalone, []⟩ }

/-- The region that the next call of `create?` opens. -/
def next (table : RegionTable) : RegionId := ⟨table.size⟩

/-- Changes one region. -/
def update (table : RegionTable) (id : RegionId) (change : Region → Region) : RegionTable :=
  match table.get? id with
  | some region => { table with regions := table.regions.setIfInBounds id.index (change region) }
  | none => table

/-- Appends instructions to those that a region holds. -/
def extend (table : RegionTable) (id : RegionId) (instructions : List Instruction) : RegionTable :=
  table.update id fun region => { region with instructions := region.instructions ++ instructions }

/-- Appends an instruction to the latest region, or rather to the region that owns it.  There is
nothing to append to if no region has been opened. -/
def emit? (table : RegionTable) (instruction : Instruction) : Option RegionTable :=
  match table.size with
  | 0 => none
  | last + 1 => some (table.extend (table.owner ⟨last⟩) [instruction])

/-- The number of instructions that a region holds. -/
def held (table : RegionTable) (id : RegionId) : Nat :=
  ((table.get? id).map fun region => region.instructions.length).getD 0

/-- The numbers of the regions strictly between two regions. -/
def between (target source : RegionId) : List RegionId :=
  (List.range (source.index - target.index - 1)).map fun step => ⟨target.index + 1 + step⟩

/-- Whether the source may be folded into the owner of the target: it comes later and stands alone,
the owner owns all regions in between, and the policy allows it. -/
def canMerge (table : RegionTable) (target source : RegionId) : Bool :=
  match table.get? source with
  | none => false
  | some region =>
    let owner := table.owner target
    target.index < source.index && region.state = .standalone &&
      ((between target source).all fun id => table.owner id = owner) &&
      table.policy.allows (table.held owner) region.instructions.length

/-- Moves the instructions of the source to the owner of the target and notes where they went. -/
def fold (table : RegionTable) (target source : RegionId) (state : RegionState) : RegionTable :=
  match table.get? source with
  | none => table
  | some region =>
    (table.extend (table.owner target) region.instructions).update source
      fun region => { region with state, instructions := [] }

/-- Folds a region into the one before it, if that is acceptable. -/
def mergeWithPredecessor? (table : RegionTable) (source : RegionId) : Option RegionTable :=
  match source.index with
  | 0 => none
  | index + 1 =>
    let target : RegionId := ⟨index⟩
    if table.canMerge target source then
      some (table.fold target source (.withPredecessor target))
    else none

/-- Folds a region into the owner of a chosen one, if that is acceptable. -/
def mergeWithTarget? (table : RegionTable) (target source : RegionId) : Option RegionTable :=
  if table.canMerge target source then some (table.fold target source (.withTarget target))
  else none

/-- The regions that stand alone. -/
def standalone (table : RegionTable) : List Region :=
  table.regions.toList.filter fun region => region.state = .standalone

/-- The instructions of the regions that stand alone, one region after another. -/
def assemble (table : RegionTable) : List Instruction :=
  table.standalone.flatMap Region.instructions

@[simp] theorem size_update (table : RegionTable) (id : RegionId) (change : Region → Region) :
    (table.update id change).size = table.size := by
  unfold update
  split <;> simp [size]

@[simp] theorem size_extend (table : RegionTable) (id : RegionId)
    (instructions : List Instruction) : (table.extend id instructions).size = table.size :=
  table.size_update id _

end RegionTable
end Dataflow
