import Dataflow.Code.Region
import Dataflow.Proofs.Transcript

/-!
# Segments

What a region table amounts to, said without links: a row of segments.  A segment is a run of
regions that were opened one after another and have been joined, with the instructions they hold
together.  Opening a region adds a segment at the end, an instruction goes to the last segment, and
the only segments that can be joined are two neighbours.

`Segmentation.serve` is this machine.  It takes the requests that a region table takes, and gives
answers of the same kind.
-/

namespace Dataflow

/-- A run of joined regions and the instructions they hold together. -/
structure Segment where
  /-- The node of the first region. -/
  first : NodeId
  /-- The nodes of the other regions. -/
  others : List NodeId
  /-- The instructions. -/
  instructions : List Instruction
deriving DecidableEq, Repr

namespace Segment

/-- The segment of a region that has just been opened. -/
def single (node : NodeId) : Segment := ⟨node, [], []⟩

/-- The nodes of the regions, in the order of creation. -/
def nodes (segment : Segment) : List NodeId := segment.first :: segment.others

/-- The number of regions. -/
def size (segment : Segment) : ℕ := segment.others.length + 1

/-- The segment with more instructions. -/
def extend (segment : Segment) (instructions : List Instruction) : Segment :=
  { segment with instructions := segment.instructions ++ instructions }

/-- A segment and the one after it as one. -/
def join (segment next : Segment) : Segment :=
  ⟨segment.first, segment.others ++ next.nodes, segment.instructions ++ next.instructions⟩

lemma size_pos (segment : Segment) : 0 < segment.size := Nat.succ_pos _

@[simp] lemma size_join (segment next : Segment) :
    (segment.join next).size = segment.size + next.size := by
  simp only [size, join, nodes, List.length_append, List.length_cons]
  omega

end Segment

/-- The segments of a region table, from the first region to the last. -/
abbrev Segmentation := List Segment

/-- A request to a region table. -/
inductive RegionRequest where
  /-- To open a region for a node. -/
  | create (node : NodeId)
  /-- To append an instruction. -/
  | emit (instruction : Instruction)
  /-- To fold a region into the one before it. -/
  | mergeWithPredecessor (source : RegionId)
  /-- To fold a region into the owner of a chosen one. -/
  | mergeWithTarget (target source : RegionId)

/-- An answer to a request. -/
inductive RegionAnswer where
  /-- The region that was opened, if any. -/
  | opened (region : Option RegionId)
  /-- Whether the request was granted. -/
  | granted (verdict : Bool)
deriving DecidableEq, Repr

/-- Grants a request that leads to another state, and refuses one that does not. -/
def RegionAnswer.ofChange {σ : Type} (state : σ) : Option σ → RegionAnswer × σ
  | some next => (.granted true, next)
  | none => (.granted false, state)

namespace Segmentation

/-- The number of regions. -/
def size (segments : Segmentation) : ℕ := (segments.map Segment.size).sum

/-- The nodes of all regions, in the order of creation. -/
def nodes (segments : Segmentation) : List NodeId := segments.flatMap Segment.nodes

/-- The instructions of all segments, one segment after another. -/
def instructions (segments : Segmentation) : List Instruction :=
  segments.flatMap Segment.instructions

/-- The first region of the segment that contains a region.  A region that does not exist counts as
a segment of its own. -/
def firstOf : Segmentation → ℕ → ℕ
  | [], region => region
  | segment :: rest, region =>
    if region < segment.size then 0 else segment.size + firstOf rest (region - segment.size)

/-- Opens a region for a node, as a segment at the end, unless the node has one. -/
def create? (segments : Segmentation) (node : NodeId) : Option Segmentation :=
  if node ∈ segments.nodes then none else some (segments ++ [.single node])

/-- Appends an instruction to the last segment. -/
def emit? (segments : Segmentation) (instruction : Instruction) : Option Segmentation :=
  segments.getLast?.map fun last => segments.dropLast ++ [last.extend [instruction]]

/-- Joins the segment that contains the target with the one after it.  The source has to be the
first region of the latter, and the policy has to allow it. -/
def merge? (policy : MergePolicy) : ℕ → ℕ → Segmentation → Option Segmentation
  | target, source, segment :: next :: rest =>
    if target < segment.size then
      if source = segment.size ∧
          policy.allows segment.instructions.length next.instructions.length then
        some (segment.join next :: rest)
      else none
    else if source < segment.size then none
    else
      (merge? policy (target - segment.size) (source - segment.size) (next :: rest)).map
        (segment :: ·)
  | _, _, _ => none

/-- Serves a request. -/
def serve (policy : MergePolicy) (segments : Segmentation) :
    RegionRequest → RegionAnswer × Segmentation
  | .create node =>
    match segments.create? node with
    | some next => (.opened (some ⟨segments.size⟩), next)
    | none => (.opened none, segments)
  | .emit instruction => RegionAnswer.ofChange segments (segments.emit? instruction)
  | .mergeWithPredecessor ⟨0⟩ => (.granted false, segments)
  | .mergeWithPredecessor ⟨region + 1⟩ =>
    RegionAnswer.ofChange segments (merge? policy region (region + 1) segments)
  | .mergeWithTarget target source =>
    RegionAnswer.ofChange segments (merge? policy target.index source.index segments)

@[simp] lemma size_nil : size [] = 0 := rfl

@[simp] lemma size_cons (segment : Segment) (rest : Segmentation) :
    size (segment :: rest) = segment.size + size rest := rfl

@[simp] lemma size_append (segments others : Segmentation) :
    size (segments ++ others) = segments.size + others.size := by
  simp [size]

@[simp] lemma nodes_append (segments others : Segmentation) :
    nodes (segments ++ others) = segments.nodes ++ others.nodes := by
  simp [nodes]

@[simp] lemma instructions_append (segments others : Segmentation) :
    instructions (segments ++ others) = segments.instructions ++ others.instructions := by
  simp [instructions]

lemma length_nodes (segments : Segmentation) : segments.nodes.length = segments.size := by
  induction segments with
  | nil => rfl
  | cons segment rest ih =>
    rw [size_cons, ← ih]
    simp only [nodes, Segment.nodes, Segment.size, List.flatMap_cons, List.length_append,
      List.length_cons]

/-- A region behind some segments belongs to the segments that follow. -/
lemma firstOf_append (segments others : Segmentation) {region : ℕ}
    (h : segments.size ≤ region) :
    firstOf (segments ++ others) region =
      segments.size + firstOf others (region - segments.size) := by
  induction segments generalizing region with
  | nil => simp
  | cons segment rest ih =>
    rw [size_cons] at h
    simp only [List.cons_append, firstOf, size_cons]
    rw [if_neg (by omega), ih (by omega), Nat.sub_sub, Nat.add_assoc]

/-- Segments before the one that contains the target have no part in a merge. -/
lemma merge?_append (policy : MergePolicy) (segments others : Segmentation) {target source : ℕ}
    (htarget : segments.size ≤ target) (hsource : segments.size ≤ source) :
    merge? policy target source (segments ++ others) =
      (merge? policy (target - segments.size) (source - segments.size) others).map
        (segments ++ ·) := by
  induction segments generalizing target source with
  | nil => simp
  | cons segment rest ih =>
    rw [size_cons] at htarget hsource
    cases hrest : rest ++ others with
    | nil =>
      obtain ⟨rfl, rfl⟩ := List.append_eq_nil_iff.mp hrest
      simp [merge?]
    | cons next tail =>
      rw [List.cons_append, hrest, merge?, if_neg (by omega), if_neg (by omega), ← hrest,
        ih (by omega) (by omega), size_cons, Nat.sub_sub, Nat.sub_sub, Option.map_map]
      rfl

/-- Two neighbours are joined exactly if the target lies in the first one, the source begins the
second one and the policy allows it. -/
lemma merge?_eq_some_iff {policy : MergePolicy} {target source : ℕ}
    {segments joined : Segmentation} :
    merge? policy target source segments = some joined ↔
      ∃ before segment next after, segments = before ++ segment :: next :: after ∧
        size before ≤ target ∧ target < size before + segment.size ∧
        source = size before + segment.size ∧
        policy.allows segment.instructions.length next.instructions.length ∧
        joined = before ++ segment.join next :: after := by
  constructor
  · intro h
    fun_induction merge? policy target source segments generalizing joined with
    | case1 target source segment next rest htarget hallowed =>
      obtain ⟨hsource, hallowed⟩ := hallowed
      exact ⟨[], segment, next, rest, rfl, by simp, by simpa using htarget, by simpa using hsource,
        hallowed, (Option.some.inj h).symm⟩
    | case2 => cases h
    | case3 => cases h
    | case4 target source segment next rest htarget hsource ih =>
      obtain ⟨tail, htail, rfl⟩ := Option.map_eq_some_iff.mp h
      obtain ⟨before, left, right, after, heq, h1, h2, h3, hallowed, rfl⟩ := ih htail
      refine ⟨segment :: before, left, right, after, by rw [heq]; rfl, ?_, ?_, ?_, hallowed, rfl⟩
        <;> rw [size_cons] <;> omega
    | case5 => cases h
  · rintro ⟨before, segment, next, after, rfl, h1, h2, h3, hallowed, rfl⟩
    rw [merge?_append policy before _ h1 (by omega), merge?, if_pos (by omega),
      if_pos ⟨by omega, hallowed⟩]
    rfl

/-- Joining segments moves instructions, but keeps their order. -/
lemma instructions_merge? {policy : MergePolicy} {target source : ℕ}
    {segments joined : Segmentation} (h : merge? policy target source segments = some joined) :
    joined.instructions = segments.instructions := by
  obtain ⟨before, segment, next, after, rfl, -, -, -, -, rfl⟩ := merge?_eq_some_iff.mp h
  simp [instructions, Segment.join]

/-- Joining segments keeps their regions. -/
lemma nodes_merge? {policy : MergePolicy} {target source : ℕ}
    {segments joined : Segmentation} (h : merge? policy target source segments = some joined) :
    joined.nodes = segments.nodes := by
  obtain ⟨before, segment, next, after, rfl, -, -, -, -, rfl⟩ := merge?_eq_some_iff.mp h
  simp [nodes, Segment.join, Segment.nodes]

/-- The last segment takes an instruction, so it comes last. -/
lemma instructions_emit? {instruction : Instruction} {segments extended : Segmentation}
    (h : segments.emit? instruction = some extended) :
    extended.instructions = segments.instructions ++ [instruction] := by
  obtain ⟨last, hlast, rfl⟩ := Option.map_eq_some_iff.mp h
  obtain ⟨initial, rfl⟩ := List.getLast?_eq_some_iff.mp hlast
  simp [instructions, Segment.extend]

lemma nodes_emit? {instruction : Instruction} {segments extended : Segmentation}
    (h : segments.emit? instruction = some extended) : extended.nodes = segments.nodes := by
  obtain ⟨last, hlast, rfl⟩ := Option.map_eq_some_iff.mp h
  obtain ⟨initial, rfl⟩ := List.getLast?_eq_some_iff.mp hlast
  simp [nodes, Segment.nodes, Segment.extend]

end Segmentation
end Dataflow
