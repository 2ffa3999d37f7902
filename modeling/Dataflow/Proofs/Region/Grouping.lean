import Dataflow.Proofs.Region.Refinement

/-!
# Groups of nodes

What a policy makes of the nodes of a function, said without regions.  The nodes come one after
another, each with its instructions, and the next node either joins the last group or begins a group
of its own; the policy decides by the instructions of the whole group and those of the node
(`Grouping.absorb`).  Under a limit the groups are as large as they can be: a group of several nodes
keeps to the limit, and no group has room for the first node of the next one (`Grouping.Greedy`).

The segments of a region table are such groups if each node gets a region and a merge is tried after
each (`Grouping.merge?_segments`).
-/

namespace Dataflow

/-- The last two segments are joined exactly if the policy allows it. -/
lemma Segmentation.merge?_last (policy : MergePolicy) {before : Segmentation} {segment : Segment}
    (next : Segment) {region : ℕ} (hregion : before.size + segment.size = region + 1) :
    merge? policy region (region + 1) (before ++ [segment, next]) =
      if policy.allows segment.instructions.length next.instructions.length then
        some (before ++ [segment.join next])
      else none := by
  have hpos := segment.size_pos
  have hsource : region + 1 - before.size = segment.size := by omega
  rw [merge?_append policy before _ (by omega) (by omega), merge?, if_pos (by omega), hsource]
  simp only [true_and]
  split <;> rfl

/-- A node and the instructions that are emitted for it. -/
abbrev NodeEntry := NodeId × List Instruction

/-- Consecutive nodes that share a region. -/
structure Group where
  /-- The first node. -/
  first : NodeEntry
  /-- The other nodes. -/
  others : List NodeEntry

namespace Group

/-- All nodes of a group, in order. -/
def members (group : Group) : List NodeEntry := group.first :: group.others

/-- The instructions of a group, node by node. -/
def instructions (group : Group) : List Instruction := group.members.flatMap Prod.snd

/-- The group of one node. -/
def single (entry : NodeEntry) : Group := ⟨entry, []⟩

/-- The group with one more node. -/
def add (group : Group) (entry : NodeEntry) : Group :=
  { group with others := group.others ++ [entry] }

/-- The group as a segment of a region table. -/
def segment (group : Group) : Segment :=
  ⟨group.first.1, group.others.map Prod.fst, group.instructions⟩

@[simp] lemma first_add (group : Group) (entry : NodeEntry) :
    (group.add entry).first = group.first :=
  rfl

@[simp] lemma members_single (entry : NodeEntry) : (single entry).members = [entry] := rfl

@[simp] lemma members_add (group : Group) (entry : NodeEntry) :
    (group.add entry).members = group.members ++ [entry] := rfl

@[simp] lemma instructions_add (group : Group) (entry : NodeEntry) :
    (group.add entry).instructions = group.instructions ++ entry.2 := by
  simp [instructions]

@[simp] lemma instructions_segment (group : Group) :
    group.segment.instructions = group.instructions := rfl

/-- A region that has been opened for a node and has taken its instructions. -/
lemma segment_single (entry : NodeEntry) :
    (single entry).segment = (Segment.single entry.1).extend entry.2 := by
  simp [segment, instructions, single, members, Segment.single, Segment.extend]

lemma segment_add (group : Group) (entry : NodeEntry) :
    (group.add entry).segment = group.segment.join (single entry).segment := by
  rw [segment, instructions_add]
  simp [segment, instructions, single, add, members, Segment.join, Segment.nodes]

end Group

/-- Groups of consecutive nodes. -/
abbrev Grouping := List Group

namespace Grouping

/-- All nodes, group by group. -/
def entries (groups : Grouping) : List NodeEntry := groups.flatMap Group.members

/-- The groups as the segments of a region table. -/
def segments (groups : Grouping) : Segmentation := groups.map Group.segment

/-- The next node joins the last group if the policy lets it, and begins a group otherwise. -/
def absorb (policy : MergePolicy) (entry : NodeEntry) : Grouping → Grouping
  | [] => [.single entry]
  | [last] =>
    if policy.allows last.instructions.length entry.2.length then [last.add entry]
    else [last, .single entry]
  | group :: next :: rest => group :: absorb policy entry (next :: rest)

variable {policy : MergePolicy} {entry : NodeEntry}

/-- Only the last group matters for the next node. -/
lemma absorb_concat (policy : MergePolicy) (entry : NodeEntry) (before : Grouping) (last : Group) :
    absorb policy entry (before ++ [last]) =
      if policy.allows last.instructions.length entry.2.length then before ++ [last.add entry]
      else before ++ [last, .single entry] := by
  induction before with
  | nil => rfl
  | cons group rest ih =>
    have hstep : absorb policy entry (group :: (rest ++ [last])) =
        group :: absorb policy entry (rest ++ [last]) := by
      cases rest <;> rfl
    rw [List.cons_append, hstep, ih]
    split <;> rfl

@[simp] lemma segments_append (groups others : Grouping) :
    segments (groups ++ others) = groups.segments ++ others.segments := List.map_append

@[simp] lemma entries_append (groups others : Grouping) :
    entries (groups ++ others) = groups.entries ++ others.entries := List.flatMap_append

lemma instructions_segments (groups : Grouping) :
    groups.segments.instructions = groups.entries.flatMap Prod.snd := by
  rw [Segmentation.instructions, segments, entries, List.flatMap_map, List.flatMap_assoc]
  rfl

/-- The next node comes behind all others. -/
lemma entries_absorb (policy : MergePolicy) (entry : NodeEntry) (groups : Grouping) :
    (absorb policy entry groups).entries = groups.entries ++ [entry] := by
  induction groups using List.reverseRecOn with
  | nil => rfl
  | append_singleton before last =>
    rw [absorb_concat]
    split <;> simp [entries]

/-- Nodes come one after another. -/
def absorbAll (policy : MergePolicy) (entries : List NodeEntry) (groups : Grouping) : Grouping :=
  entries.foldl (fun groups entry => absorb policy entry groups) groups

/-- The groups are made of all nodes, in order. -/
lemma entries_absorbAll (policy : MergePolicy) (entries : List NodeEntry) (groups : Grouping) :
    (absorbAll policy entries groups).entries = groups.entries ++ entries := by
  induction entries generalizing groups with
  | nil => exact (List.append_nil _).symm
  | cons entry rest ih =>
    rw [absorbAll, List.foldl_cons, ← absorbAll, ih, entries_absorb, List.append_assoc]
    rfl

/-! ## The three policies -/

/-- If every merge is allowed, there is one group. -/
lemma length_absorbAll_always {entries : List NodeEntry} {groups : Grouping}
    (h : groups.length ≤ 1) (hentries : entries ≠ []) :
    (absorbAll .always entries groups).length = 1 := by
  have hstep : ∀ entry (groups : Grouping), groups.length ≤ 1 →
      (absorb .always entry groups).length = 1 := by
    intro entry groups hle
    match groups, hle with
    | [], _ => rfl
    | [last], _ => rfl
  induction entries generalizing groups with
  | nil => exact absurd rfl hentries
  | cons entry rest ih =>
    have hone := hstep entry groups h
    cases rest with
    | nil => exact hone
    | cons next rest => exact ih hone.le (List.cons_ne_nil _ _)

/-- If no merge is allowed, every node begins a group. -/
lemma length_absorbAll_never (entries : List NodeEntry) (groups : Grouping) :
    (absorbAll .never entries groups).length = groups.length + entries.length := by
  have hstep : ∀ entry (groups : Grouping),
      (absorb .never entry groups).length = groups.length + 1 := by
    intro entry groups
    induction groups using List.reverseRecOn with
    | nil => rfl
    | append_singleton before last => simp [absorb_concat, MergePolicy.allows]
  induction entries generalizing groups with
  | nil => rfl
  | cons entry rest ih =>
    rw [absorbAll, List.foldl_cons, ← absorbAll, ih, hstep, List.length_cons]
    omega

/-- The groups are as large as a limit allows. -/
structure Greedy (limit : ℕ) (groups : Grouping) : Prop where
  /-- A group of two nodes or more keeps to the limit. -/
  bounded : ∀ group ∈ groups, 2 ≤ group.members.length → group.instructions.length ≤ limit
  /-- No group has room for the first node of the next one. -/
  maximal : groups.IsChain fun group next =>
    limit < group.instructions.length + next.first.2.length

lemma Greedy.nil (limit : ℕ) : Greedy limit [] :=
  ⟨fun _ h => absurd h List.not_mem_nil, .nil⟩

/-- Groups stay as large as the limit allows when a node comes.  The last group may grow, but
neither its first node nor the groups before it change. -/
lemma Greedy.absorb {limit : ℕ} {groups : Grouping} (h : groups.Greedy limit)
    (entry : NodeEntry) : (absorb (.atMost limit) entry groups).Greedy limit := by
  have hsingle : 2 ≤ (Group.single entry).members.length →
      (Group.single entry).instructions.length ≤ limit := by
    simp
  rcases List.eq_nil_or_concat' groups with rfl | ⟨before, last, rfl⟩
  · refine ⟨fun group hgroup => ?_, .singleton _⟩
    rw [List.mem_singleton.mp hgroup]
    exact hsingle
  · obtain ⟨hbounded, hmaximal⟩ := h
    obtain ⟨hbefore, -, hlast⟩ := List.isChain_append.mp hmaximal
    rw [absorb_concat]
    split
    · next hallowed =>
      refine ⟨fun group hgroup => ?_, List.isChain_append.mpr ⟨hbefore, .singleton _, ?_⟩⟩
      · rcases List.mem_append.mp hgroup with hmem | hmem
        · exact hbounded group (List.mem_append_left _ hmem)
        · rw [List.mem_singleton.mp hmem, Group.instructions_add, List.length_append]
          exact fun _ => of_decide_eq_true hallowed
      · intro group hgroup next hnext
        obtain rfl : last.add entry = next := by simpa using hnext
        rw [Group.first_add]
        exact hlast group hgroup last rfl
    · next hrefused =>
      have hfull : limit < last.instructions.length + entry.2.length := by
        simpa [MergePolicy.allows] using hrefused
      rw [List.append_cons]
      refine ⟨fun group hgroup => ?_, List.isChain_append.mpr ⟨hmaximal, .singleton _, ?_⟩⟩
      · rcases List.mem_append.mp hgroup with hmem | hmem
        · exact hbounded group hmem
        · rw [List.mem_singleton.mp hmem]
          exact hsingle
      · intro group hgroup next hnext
        obtain rfl : last = group := by simpa using hgroup
        obtain rfl : Group.single entry = next := by simpa using hnext
        exact hfull

lemma Greedy.absorbAll {limit : ℕ} {groups : Grouping} (h : groups.Greedy limit)
    (entries : List NodeEntry) : (absorbAll (.atMost limit) entries groups).Greedy limit := by
  induction entries generalizing groups with
  | nil => exact h
  | cons entry rest ih => exact ih (h.absorb entry)

/-! ## Merging the region of a node -/

lemma size_segments (groups : Grouping) : groups.segments.size = groups.entries.length := by
  induction groups with
  | nil => rfl
  | cons group rest ih =>
    rw [segments, List.map_cons, Segmentation.size_cons, ← segments, ih]
    simp [entries, Group.segment, Segment.size, Group.members]
    omega

/-- Every group has a node. -/
lemma length_le_length_entries (groups : Grouping) : groups.length ≤ groups.entries.length := by
  induction groups with
  | nil => exact le_refl 0
  | cons group rest ih =>
    have hcons : entries (group :: rest) = group.members ++ entries rest := List.flatMap_cons
    rw [hcons, List.length_append, List.length_cons]
    have hmembers : group.members.length = group.others.length + 1 := List.length_cons
    omega

/-- The node that was opened last joins the group before it exactly if the policy lets it, and if
it does not, the regions are the groups already. -/
lemma merge?_segments (policy : MergePolicy) (entry : NodeEntry) {groups : Grouping} {region : ℕ}
    (hregion : groups.entries.length = region + 1) :
    let opened := groups.segments ++ [(Group.single entry).segment]
    (Segmentation.merge? policy region (region + 1) opened =
          some (absorb policy entry groups).segments ∧
        (absorb policy entry groups).length = groups.length) ∨
      (Segmentation.merge? policy region (region + 1) opened = none ∧
        opened = (absorb policy entry groups).segments ∧
        (absorb policy entry groups).length = groups.length + 1) := by
  intro opened
  rcases List.eq_nil_or_concat' groups with rfl | ⟨before, last, rfl⟩
  · cases hregion
  · have hopened : opened = segments before ++ [last.segment, (Group.single entry).segment] := by
      simp [opened, segments]
    have hsize : (segments before).size + last.segment.size = region + 1 := by
      rw [← hregion, ← size_segments, segments_append, Segmentation.size_append]
      rfl
    have hlength : (Group.single entry).segment.instructions.length = entry.2.length := by
      simp [Group.segment, Group.instructions]
    have hmerge := Segmentation.merge?_last policy (Group.single entry).segment hsize
    rw [← hopened, hlength] at hmerge
    rw [hmerge, absorb_concat, Group.instructions_segment]
    split
    · left
      simp [segments, Group.segment_add]
    · right
      rw [hopened]
      simp [segments]

end Grouping

/-! ## Finding the region of a node -/

namespace RegionTable

variable {table : RegionTable}

/-- The region that was opened last is found by its node. -/
lemma regionOf?_last {nodes : List NodeId} {node : NodeId}
    (hrows : table.rows.map Region.node = nodes ++ [node]) (hnode : node ∉ nodes) :
    table.regionOf? node = some ⟨nodes.length⟩ := by
  have hfind : (table.rows.map Region.node).findIdx? (fun other => other = node) =
      some nodes.length := by
    rw [hrows, List.findIdx?_append, List.findIdx?_eq_none_iff.mpr]
    · simp
    · intro other hother
      simpa using fun heq : other = node => hnode (heq ▸ hother)
  rw [List.findIdx?_map] at hfind
  rw [regionOf?]
  exact congrArg (Option.map RegionId.mk) hfind

end RegionTable
end Dataflow
