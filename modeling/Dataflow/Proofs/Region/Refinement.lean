import Dataflow.Proofs.Region.Block

/-!
# Region tables are rows of segments

Whatever is asked of a region table, in whatever order, it answers like a row of segments
(`Segmentation.serve`), and what it holds can be read off the segments: who owns a region, how many
regions stand alone, and which instructions come out (`transcript_refines`).

One step is enough: each of the four operations keeps the invariant `Sound` and does to the segments
of the table what the operation on segments does (`refines_serve`).
-/

namespace Dataflow
namespace RegionTable

variable {table : RegionTable} {policy : MergePolicy} {ideal : Segmentation}

/-- What holds of every region table that has been built from an empty one. -/
structure Sound (table : RegionTable) : Prop where
  linked : Linked table.states
  folded_empty : ∀ region ∈ table.rows, region.state ≠ .standalone → region.instructions = []

namespace Sound

lemma empty (policy : MergePolicy) : (RegionTable.empty policy).Sound :=
  ⟨linked_nil, fun _ h => absurd h (List.not_mem_nil)⟩

/-- The first region cannot have been folded into an earlier one. -/
lemma head_standalone (h : table.Sound) :
    ∀ region ∈ table.rows.head?, region.state = .standalone := by
  intro region hregion
  by_contra hne
  cases hlink : region.state.link with
  | none => exact hne (RegionState.link_eq_none_iff.mp hlink)
  | some next =>
    have hstate : table.states[0]? = some region.state := by
      rw [states, List.getElem?_map, ← List.head?_eq_getElem?, Option.mem_def.mp hregion]
      rfl
    exact absurd (h.linked 0 next.index region.state hstate hlink).1 (Nat.not_lt_zero _)

lemma nodes_segments (h : table.Sound) :
    table.segments.nodes = table.rows.map Region.node := by
  rw [← nodes_group, group_eq_of_head h.head_standalone]
  rfl

lemma size_segments (h : table.Sound) : table.segments.size = table.size := by
  rw [← Segmentation.length_nodes, h.nodes_segments, List.length_map, length_rows]

end Sound

/-! ## What can be read off the segments -/

lemma Block.size_before {before folded after : List Region} {head : Region}
    (h : Block table.rows before head folded after) (hsound : table.Sound) :
    (group before).2.size = before.length := by
  have hhead : (group before).1 = [] := by
    refine group_eq_of_head fun region hregion => hsound.head_standalone region ?_
    cases before with
    | nil => cases hregion
    | cons first rest => rw [h.rows_eq]; exact hregion
  rw [← Segmentation.length_nodes, ← List.nil_append (group before).2.nodes, ← hhead, nodes_group,
    List.length_map]

/-- The owner of a region is the first region of its segment. -/
lemma Sound.owner_eq (h : table.Sound) (id : RegionId) :
    table.owner id = ⟨table.segments.firstOf id.index⟩ := by
  by_cases hid : id.index < table.size
  · obtain ⟨before, head, folded, after, hblock, hge, hle⟩ :=
      exists_block h.head_standalone (by rwa [length_rows])
    have hsize := hblock.size_before h
    rw [hblock.segments_eq, Segmentation.firstOf_append _ _ (by omega), Segmentation.firstOf,
      if_pos (by simp only [Segment.size, List.length_map]; omega), hsize]
    exact hblock.owner_eq h.linked hge hle
  · have hsize : table.segments.size ≤ id.index := by rw [h.size_segments]; omega
    have hfirst := Segmentation.firstOf_append table.segments [] hsize
    rw [owner_of_size_le (by omega)]
    rw [List.append_nil, Segmentation.firstOf, h.size_segments] at hfirst
    rw [hfirst, Nat.add_sub_of_le (by omega)]

lemma filter_standalone_group (rows : List Region) :
    (rows.filter fun region => region.state = .standalone).map
      (fun region => (region.node, region.instructions)) =
        (group rows).2.map fun segment => (segment.first, segment.instructions) := by
  induction rows with
  | nil => rfl
  | cons region rest ih =>
    by_cases hregion : region.state = .standalone
    · rw [group_standalone hregion, List.filter_cons_of_pos (by simpa using hregion), List.map_cons,
        ih]
      rfl
    · rw [group_folded hregion, List.filter_cons_of_neg (by simpa using hregion), ih]

/-- The regions that stand alone are the first ones of the segments, and hold their instructions. -/
lemma standalone_eq (table : RegionTable) :
    table.standalone.map (fun region => (region.node, region.instructions)) =
      table.segments.map fun segment => (segment.first, segment.instructions) :=
  filter_standalone_group table.rows

lemma length_standalone (table : RegionTable) :
    table.standalone.length = table.segments.length := by
  simpa using congrArg List.length table.standalone_eq

lemma assemble_eq (table : RegionTable) : table.assemble = table.segments.instructions := by
  have h := congrArg (List.flatMap Prod.snd) table.standalone_eq
  rwa [List.flatMap_map, List.flatMap_map] at h

/-! ## Operations -/

/-- A region table that holds what a row of segments says, and merges by the given policy. -/
structure Refines (policy : MergePolicy) (table : RegionTable) (ideal : Segmentation) :
    Prop where
  sound : table.Sound
  policy_eq : table.policy = policy
  segments_eq : table.segments = ideal

lemma regionOf?_isSome (h : table.Sound) (node : NodeId) :
    (table.regionOf? node).isSome ↔ node ∈ table.segments.nodes := by
  rw [h.nodes_segments, regionOf?, Option.isSome_map, List.findIdx?_isSome, List.any_eq_true,
    List.mem_map]
  simp [rows]

lemma refines_create (h : Refines policy table ideal) (node : NodeId) :
    Option.Rel (Refines policy) (table.create? node) (ideal.create? node) := by
  obtain ⟨hsound, rfl, rfl⟩ := h
  have hregion := regionOf?_isSome hsound node
  rw [create?, Segmentation.create?]
  cases hnode : table.regionOf? node with
  | some id =>
    rw [hnode] at hregion
    rw [if_pos (hregion.mp rfl)]
    exact .none
  | none =>
    rw [hnode] at hregion
    rw [if_neg fun hmem => by simpa using hregion.mpr hmem]
    have hrows : ({ table with regions := table.regions.push ⟨node, .standalone, []⟩ } :
        RegionTable).rows = table.rows ++ [⟨node, .standalone, []⟩] := by
      simp [rows]
    refine .some ⟨⟨?_, ?_⟩, rfl, ?_⟩
    · rw [states, hrows, List.map_append]
      exact hsound.linked.concat
    · rw [hrows]
      intro region hmem hne
      rcases List.mem_append.mp hmem with hmem | hmem
      · exact hsound.folded_empty region hmem hne
      · obtain rfl := List.mem_singleton.mp hmem
        rfl
    · rw [segments, hrows, group_append_standalone _ rfl]
      rfl

/-- Giving more instructions to the first region of a block. -/
lemma Block.rows_extend {before folded after : List Region} {head : Region}
    (h : Block table.rows before head folded after) (instructions : List Instruction) :
    (table.extend ⟨before.length⟩ instructions).rows =
      before ++ { head with instructions := head.instructions ++ instructions } ::
        (folded ++ after) := by
  rw [extend, rows_update, h.rows_eq, modify_append_cons]

lemma Block.extend {before folded after : List Region} {head : Region}
    (h : Block table.rows before head folded after) (instructions : List Instruction) :
    Block (table.extend ⟨before.length⟩ instructions).rows before
      { head with instructions := head.instructions ++ instructions } folded after :=
  ⟨h.rows_extend instructions, h.head_standalone, h.folded_ne, h.after_standalone⟩

lemma Sound.extend {before folded after : List Region} {head : Region} (hsound : table.Sound)
    (h : Block table.rows before head folded after) (instructions : List Instruction) :
    (table.extend ⟨before.length⟩ instructions).Sound := by
  have hrows := h.rows_extend instructions
  refine ⟨?_, ?_⟩
  · have hstates : (table.extend ⟨before.length⟩ instructions).states = table.states := by
      rw [states, states, hrows, h.rows_eq, List.map_append, List.map_append]
      rfl
    rw [hstates]
    exact hsound.linked
  · rw [hrows]
    intro region hmem hne
    rcases List.mem_append.mp hmem with hmem | hmem
    · exact hsound.folded_empty region (by rw [h.rows_eq]; exact List.mem_append_left _ hmem) hne
    · rcases List.mem_cons.mp hmem with rfl | hmem
      · exact absurd h.head_standalone hne
      · refine hsound.folded_empty region ?_ hne
        rw [h.rows_eq]
        exact List.mem_append_right _ (List.mem_cons_of_mem _ hmem)

lemma refines_emit (h : Refines policy table ideal) (instruction : Instruction) :
    Option.Rel (Refines policy) (table.emit? instruction) (ideal.emit? instruction) := by
  obtain ⟨hsound, rfl, rfl⟩ := h
  rw [emit?, Segmentation.emit?]
  cases hsize : table.size with
  | zero =>
    have hnil : table.segments = [] := by
      have hlength := hsound.size_segments
      cases hsegments : table.segments with
      | nil => rfl
      | cons segment rest =>
        rw [hsegments, Segmentation.size_cons, hsize] at hlength
        exact absurd hlength (by have := segment.size_pos; omega)
    rw [hnil]
    exact .none
  | succ last =>
    have hlast : last < table.rows.length := by rw [length_rows]; omega
    obtain ⟨before, head, folded, after, hblock, hge, hle⟩ :=
      exists_block hsound.head_standalone hlast
    -- the block of the last region is the last one
    obtain rfl : after = [] := by
      have := hblock.size_eq
      exact List.length_eq_zero_iff.mp (by omega)
    simp only [hblock.owner_eq hsound.linked hge hle, hblock.segments_eq, group,
      List.getLast?_concat, List.dropLast_concat, Option.map_some]
    exact .some ⟨hsound.extend hblock _, policy_update _ _ _, (hblock.extend _).segments_eq⟩

/-! ## Merging -/

lemma mem_between {target source id : RegionId} :
    id ∈ between target source ↔ target.index < id.index ∧ id.index < source.index := by
  simp only [between, List.mem_map, List.mem_range]
  constructor
  · rintro ⟨step, hstep, rfl⟩
    exact ⟨by simp only; omega, by simp only; omega⟩
  · rintro ⟨hgt, hlt⟩
    exact ⟨id.index - target.index - 1, by omega, congrArg RegionId.mk (by omega)⟩

/-- The region directly behind a block stands alone and cuts off the regions further back. -/
lemma Block.source_le {before folded after : List Region} {head : Region}
    (h : Block table.rows before head folded after) {target source : ℕ}
    (hle : target ≤ before.length + folded.length) (hsource : source < table.size)
    (hbetween : ∀ id ∈ between ⟨target⟩ ⟨source⟩, table.owner id = ⟨before.length⟩) :
    source ≤ before.length + folded.length + 1 := by
  by_contra hgt
  cases after with
  | nil =>
    have hsize := h.size_eq
    rw [List.length_nil] at hsize
    omega
  | cons next rest =>
    have hnext : table.owner ⟨before.length + folded.length + 1⟩ = ⟨before.length⟩ :=
      hbetween _ (mem_between.mpr ⟨by simp only; omega, by simp only; omega⟩)
    have hstand : table.link? ⟨before.length + folded.length + 1⟩ = none := by
      rw [link?, h.get?_after]
      exact RegionState.link_eq_none_iff.mpr (h.after_standalone next rfl)
    rw [owner, follow, hstand] at hnext
    have hindex := congrArg RegionId.index hnext
    simp only at hindex
    omega

/-- When a region may be folded into the owner of an earlier one. -/
lemma canMerge_eq_true_iff {target source : RegionId} :
    table.canMerge target source = true ↔ ∃ region, table.get? source = some region ∧
      target.index < source.index ∧ region.state = .standalone ∧
      (∀ id ∈ between target source, table.owner id = table.owner target) ∧
      table.policy.allows (table.held (table.owner target)) region.instructions.length := by
  rw [canMerge]
  cases table.get? source with
  | none => simp
  | some region => simp [and_assoc]

/-- The one region that may be folded into a block is the one directly behind it. -/
lemma Block.canMerge_eq {before folded after : List Region} {head : Region}
    (h : Block table.rows before head folded after) (hsound : table.Sound) {target : ℕ}
    (hge : before.length ≤ target) (hle : target ≤ before.length + folded.length) (source : ℕ) :
    table.canMerge ⟨target⟩ ⟨source⟩ = true ↔
      ∃ next rest, after = next :: rest ∧ source = before.length + folded.length + 1 ∧
        table.policy.allows head.instructions.length next.instructions.length := by
  have howner := h.owner_eq hsound.linked hge hle
  have hheld : table.held ⟨before.length⟩ = head.instructions.length := by
    rw [held, h.get?_first]
    rfl
  have hafter := h.get?_after
  rw [canMerge_eq_true_iff, howner, hheld]
  constructor
  · rintro ⟨region, hsource, hlt, hstate, hbetween, hallows⟩
    simp only at hlt
    have hstates : table.states[source]? = some .standalone := by
      rw [get?_eq] at hsource
      rw [states, List.getElem?_map, hsource, Option.map_some, hstate]
    -- folded regions cannot be folded again, and regions further back are cut off
    have hge' : before.length + folded.length + 1 ≤ source := by
      by_contra hlt'
      exact h.state_ne (by omega) (by omega) hstates
    have hsize : source < table.size :=
      (List.getElem?_eq_some_iff.mp hstates).1.trans_eq table.length_states
    have hle' := h.source_le hle hsize hbetween
    obtain rfl : source = before.length + folded.length + 1 := by omega
    rw [hafter] at hsource
    obtain ⟨rest, rfl⟩ := List.head?_eq_some_iff.mp hsource
    exact ⟨region, rest, rfl, rfl, hallows⟩
  · rintro ⟨next, rest, rfl, rfl, hallows⟩
    refine ⟨next, hafter, by simp only; omega, h.after_standalone next rfl, fun id hid => ?_,
      hallows⟩
    obtain ⟨hgt, hlt⟩ := mem_between.mp hid
    simp only at hgt hlt
    exact h.owner_eq hsound.linked (by omega) (by omega)

lemma rows_fold {before folded rest : List Region} {head next : Region}
    (h : Block table.rows before head folded (next :: rest)) (hsound : table.Sound) {target : ℕ}
    (hge : before.length ≤ target) (hle : target ≤ before.length + folded.length)
    (state : RegionState) :
    (table.fold ⟨target⟩ ⟨before.length + folded.length + 1⟩ state).rows =
      before ++ { head with instructions := head.instructions ++ next.instructions } ::
        (folded ++ ⟨next.node, state, []⟩ :: rest) := by
  have hsource : table.get? ⟨before.length + folded.length + 1⟩ = some next := h.get?_after
  have hextend := h.rows_extend next.instructions
  simp only [fold, hsource, h.owner_eq hsound.linked hge hle]
  rw [rows_update, hextend, ← List.cons_append, ← List.append_assoc]
  simpa [Nat.add_assoc] using modify_append_cons
    (before ++ { head with instructions := head.instructions ++ next.instructions } :: folded) rest
    next (fun region => { region with state, instructions := [] })

lemma policy_fold (table : RegionTable) (target source : RegionId) (state : RegionState) :
    (table.fold target source state).policy = table.policy := by
  rw [fold]
  split
  · rfl
  · rw [policy_update]
    exact policy_update _ _ _

/-- Folding the region behind a block into it joins two segments. -/
lemma refines_fold {before folded rest : List Region} {head next : Region}
    (h : Block table.rows before head folded (next :: rest)) (hsound : table.Sound) {target : ℕ}
    (hge : before.length ≤ target) (hle : target ≤ before.length + folded.length)
    {state : RegionState} (hlink : state.link = some ⟨target⟩) :
    Refines table.policy (table.fold ⟨target⟩ ⟨before.length + folded.length + 1⟩ state)
      ((group before).2 ++
        (Segment.mk head.node (folded.map Region.node) head.instructions).join
          ⟨next.node, (group rest).1, next.instructions⟩ :: (group rest).2) := by
  have hrows := rows_fold h hsound hge hle state
  have hne : state ≠ .standalone := fun heq => by
    rw [heq] at hlink
    cases hlink
  refine ⟨⟨?_, ?_⟩, policy_fold _ _ _ _, ?_⟩
  · have hstates : (table.fold ⟨target⟩ ⟨before.length + folded.length + 1⟩ state).states =
        table.states.set (before.length + folded.length + 1) state := by
      rw [states, hrows, h.states_eq, List.set_append_right _ _ (by simp; omega)]
      simp only [List.map_append, List.map_cons, List.length_map, h.head_standalone]
      rw [show before.length + folded.length + 1 - before.length = folded.length + 1 by omega,
        List.set_cons_succ, List.set_append_right _ _ (by simp)]
      simp
    rw [hstates]
    exact hsound.linked.set hlink (by omega) fun j h1 h2 => h.state_ne (by omega) (by omega)
  · rw [hrows]
    intro region hmem hfolded
    have hold : region ∈ table.rows → region.instructions = [] :=
      fun hmem => hsound.folded_empty region hmem hfolded
    rw [h.rows_eq] at hold
    simp only [List.mem_append, List.mem_cons] at hmem hold
    rcases hmem with hmem | rfl | hmem | rfl | hmem
    · exact hold (.inl hmem)
    · exact absurd h.head_standalone hfolded
    · exact hold (.inr (.inr (.inl hmem)))
    · rfl
    · exact hold (.inr (.inr (.inr (.inr hmem))))
  · rw [segments, hrows, group_append_standalone _ (by exact h.head_standalone),
      group_standalone (by exact h.head_standalone), group_append_folded h.folded_ne,
      group_folded hne]
    rfl

/-- The one segment that may be joined with that of a block is the one directly behind it. -/
lemma Block.eq_of_merge? {before folded after : List Region} {head : Region}
    (h : Block table.rows before head folded after) (hsound : table.Sound) {target source : ℕ}
    (hge : before.length ≤ target) (hle : target ≤ before.length + folded.length)
    {joined : Segmentation}
    (hjoin : Segmentation.merge? policy target source table.segments = some joined) :
    ∃ next rest, after = next :: rest ∧ source = before.length + folded.length + 1 ∧
      policy.allows head.instructions.length next.instructions.length := by
  have hbefore := h.size_before hsound
  have hlt : target < source := by
    obtain ⟨_, _, _, _, -, -, h1, h2, -⟩ := Segmentation.merge?_eq_some_iff.mp hjoin
    omega
  rw [h.segments_eq, Segmentation.merge?_append _ _ _ (by omega) (by omega),
    Option.map_eq_some_iff] at hjoin
  obtain ⟨tail, htail, -⟩ := hjoin
  cases after with
  | nil => simp [group, Segmentation.merge?] at htail
  | cons next rest =>
    rw [group_standalone (h.after_standalone next rfl), Segmentation.merge?,
      if_pos (by simp only [Segment.size, List.length_map]; omega)] at htail
    split at htail
    · next hcond =>
      simp only [Segment.size, List.length_map] at hcond
      exact ⟨next, rest, rfl, by omega, hcond.2⟩
    · cases htail

/-- Two regions are merged exactly if the segments say so. -/
lemma refines_merge (h : Refines policy table ideal) {target source : ℕ} {state : RegionState}
    (hlink : state.link = some ⟨target⟩) :
    Option.Rel (Refines policy)
      (if table.canMerge ⟨target⟩ ⟨source⟩ then some (table.fold ⟨target⟩ ⟨source⟩ state) else none)
      (Segmentation.merge? policy target source ideal) := by
  obtain ⟨hsound, rfl, rfl⟩ := h
  by_cases htarget : target < table.size
  · obtain ⟨before, head, folded, after, hblock, hge, hle⟩ :=
      exists_block hsound.head_standalone (by rwa [length_rows])
    have hcan := hblock.canMerge_eq hsound hge hle source
    have hbefore := hblock.size_before hsound
    by_cases hmerge : table.canMerge ⟨target⟩ ⟨source⟩ = true
    · obtain ⟨next, rest, rfl, rfl, hallows⟩ := hcan.mp hmerge
      have hjoin : Segmentation.merge? table.policy target (before.length + folded.length + 1)
          table.segments = some _ := Segmentation.merge?_eq_some_iff.mpr
        ⟨(group before).2, _, _, (group rest).2, by
            rw [hblock.segments_eq, group_standalone (hblock.after_standalone next rfl)],
          by omega, by simp only [Segment.size, List.length_map]; omega,
          by simp only [Segment.size, List.length_map]; omega, hallows, rfl⟩
      rw [if_pos hmerge, hjoin]
      exact .some (refines_fold hblock hsound hge hle hlink)
    · rw [if_neg hmerge]
      cases hjoin : Segmentation.merge? table.policy target source table.segments with
      | none => exact .none
      | some joined =>
        exact absurd (hcan.mpr (hblock.eq_of_merge? hsound hge hle hjoin)) hmerge
  · have hcan : ¬ table.canMerge ⟨target⟩ ⟨source⟩ = true := by
      intro hmerge
      obtain ⟨region, hsource, hlt, -⟩ := canMerge_eq_true_iff.mp hmerge
      rw [get?_eq, List.getElem?_eq_some_iff] at hsource
      obtain ⟨hsize, -⟩ := hsource
      rw [length_rows] at hsize
      simp only at hlt hsize
      omega
    have hjoin : Segmentation.merge? table.policy target source table.segments = none := by
      rw [Option.eq_none_iff_forall_ne_some]
      intro joined hjoined
      obtain ⟨before, segment, next, rest, heq, h1, h2, -⟩ :=
        Segmentation.merge?_eq_some_iff.mp hjoined
      have hsize := hsound.size_segments
      rw [heq, Segmentation.size_append, Segmentation.size_cons] at hsize
      omega
    rw [if_neg hcan, hjoin]
    exact .none

lemma refines_mergeWithPredecessor (h : Refines policy table ideal) (region : ℕ) :
    Option.Rel (Refines policy) (table.mergeWithPredecessor? ⟨region + 1⟩)
      (Segmentation.merge? policy region (region + 1) ideal) :=
  refines_merge h rfl

lemma refines_mergeWithTarget (h : Refines policy table ideal) (target source : RegionId) :
    Option.Rel (Refines policy) (table.mergeWithTarget? target source)
      (Segmentation.merge? policy target.index source.index ideal) :=
  refines_merge h rfl

/-! ## Requests -/

/-- Serves a request. -/
def serve (table : RegionTable) : RegionRequest → RegionAnswer × RegionTable
  | .create node =>
    match table.create? node with
    | some next => (.opened (some table.next), next)
    | none => (.opened none, table)
  | .emit instruction => RegionAnswer.ofChange table (table.emit? instruction)
  | .mergeWithPredecessor source =>
    RegionAnswer.ofChange table (table.mergeWithPredecessor? source)
  | .mergeWithTarget target source =>
    RegionAnswer.ofChange table (table.mergeWithTarget? target source)

lemma refines_ofChange (h : Refines policy table ideal) {next : Option RegionTable}
    {idealNext : Option Segmentation} (hnext : Option.Rel (Refines policy) next idealNext) :
    (RegionAnswer.ofChange table next).1 = (RegionAnswer.ofChange ideal idealNext).1 ∧
      Refines policy (RegionAnswer.ofChange table next).2
        (RegionAnswer.ofChange ideal idealNext).2 := by
  cases hnext with
  | none => exact ⟨rfl, h⟩
  | some hnext => exact ⟨rfl, hnext⟩

/-- One step of a region table is one step of its segments. -/
lemma refines_serve (h : Refines policy table ideal) (request : RegionRequest) :
    (table.serve request).1 = (Segmentation.serve policy ideal request).1 ∧
      Refines policy (table.serve request).2 (Segmentation.serve policy ideal request).2 := by
  cases request with
  | create node =>
    have hcreate := refines_create h node
    have hsize : table.size = ideal.size := by
      rw [← h.segments_eq, h.sound.size_segments]
    simp only [serve, Segmentation.serve, RegionTable.next, hsize]
    generalize table.create? node = next at hcreate ⊢
    generalize ideal.create? node = idealNext at hcreate ⊢
    cases hcreate with
    | none => exact ⟨rfl, h⟩
    | some hnext => exact ⟨rfl, hnext⟩
  | emit instruction => exact refines_ofChange h (refines_emit h instruction)
  | mergeWithPredecessor source =>
    obtain ⟨index⟩ := source
    cases index with
    | zero => exact ⟨rfl, h⟩
    | succ region => exact refines_ofChange h (refines_mergeWithPredecessor h region)
  | mergeWithTarget target source =>
    exact refines_ofChange h (refines_mergeWithTarget h target source)

lemma refines_transcript (policy : MergePolicy) (requests : List RegionRequest) :
    (transcript serve (.empty policy) requests).1 =
        (transcript (Segmentation.serve policy) [] requests).1 ∧
      Refines policy (transcript serve (.empty policy) requests).2
        (transcript (Segmentation.serve policy) [] requests).2 :=
  transcript_simulation (R := Refines policy) (fun _ _ request h => refines_serve h request)
    ⟨Sound.empty policy, rfl, rfl⟩ requests

/-- What shows of a region table is what a row of segments says. -/
structure Shows (policy : MergePolicy) (table : RegionTable) (ideal : Segmentation) : Prop where
  /-- The segments are made of the regions in the order of creation. -/
  nodes : table.rows.map Region.node = ideal.nodes
  /-- The owner of a region is the first region of its segment. -/
  owner : ∀ id, table.owner id = ⟨ideal.firstOf id.index⟩
  /-- The first region of each segment stands alone and holds the segment's instructions. -/
  standalone : table.standalone.map (fun region => (region.node, region.instructions)) =
    ideal.map fun segment => (segment.first, segment.instructions)
  /-- All other regions hold nothing. -/
  folded : ∀ region ∈ table.rows, region.state ≠ .standalone → region.instructions = []
  /-- There are as many regions that stand alone as segments. -/
  count : table.standalone.length = ideal.length
  /-- The instructions are those of the segments, one segment after another. -/
  assemble : table.assemble = ideal.instructions
  /-- A merge is granted exactly for two neighbours that the policy allows to join. -/
  merge : ∀ target source, (table.serve (.mergeWithTarget target source)).1 = .granted true ↔
    ∃ before segment next after, ideal = before ++ segment :: next :: after ∧
      Segmentation.size before ≤ target.index ∧
      target.index < Segmentation.size before + segment.size ∧
      source.index = Segmentation.size before + segment.size ∧
      policy.allows segment.instructions.length next.instructions.length
  /-- A refused request changes nothing. -/
  refused : ∀ request, (table.serve request).1 = .granted false ∨
    (table.serve request).1 = .opened none → (table.serve request).2 = table

lemma ofChange_granted {σ : Type} {state : σ} {next : Option σ} :
    (RegionAnswer.ofChange state next).1 = .granted true ↔ ∃ result, next = some result := by
  cases next <;> simp [RegionAnswer.ofChange]

lemma ofChange_refused {σ : Type} {state : σ} {next : Option σ}
    (h : (RegionAnswer.ofChange state next).1 = .granted false ∨
      (RegionAnswer.ofChange state next).1 = .opened none) :
    (RegionAnswer.ofChange state next).2 = state := by
  cases next with
  | none => rfl
  | some result => simp [RegionAnswer.ofChange] at h

lemma Refines.shows (h : Refines policy table ideal) : Shows policy table ideal := by
  refine ⟨?_, fun id => ?_, ?_, h.sound.folded_empty, ?_, ?_, fun target source => ?_,
    fun request hrefused => ?_⟩
  · rw [← h.segments_eq, h.sound.nodes_segments]
  · rw [← h.segments_eq, h.sound.owner_eq]
  · rw [← h.segments_eq, standalone_eq]
  · rw [← h.segments_eq, length_standalone]
  · rw [← h.segments_eq, assemble_eq]
  · rw [(refines_serve h _).1, Segmentation.serve, ofChange_granted]
    constructor
    · rintro ⟨joined, hjoined⟩
      obtain ⟨before, segment, next, after, h1, h2, h3, h4, h5, -⟩ :=
        Segmentation.merge?_eq_some_iff.mp hjoined
      exact ⟨before, segment, next, after, h1, h2, h3, h4, h5⟩
    · rintro ⟨before, segment, next, after, h1, h2, h3, h4, h5⟩
      exact ⟨_, Segmentation.merge?_eq_some_iff.mpr
        ⟨before, segment, next, after, h1, h2, h3, h4, h5, rfl⟩⟩
  · cases request with
    | create node =>
      simp only [serve] at hrefused ⊢
      generalize table.create? node = next at hrefused ⊢
      cases next with
      | none => rfl
      | some next => simp at hrefused
    | emit | mergeWithPredecessor | mergeWithTarget => exact ofChange_refused hrefused

/-- **Region tables refine rows of segments.**  Whatever is asked of a region table, it answers like
the segments, and shows what the segments say. -/
theorem transcript_refines (policy : MergePolicy) (requests : List RegionRequest) :
    (transcript serve (.empty policy) requests).1 =
        (transcript (Segmentation.serve policy) [] requests).1 ∧
      Shows policy (transcript serve (.empty policy) requests).2
        (transcript (Segmentation.serve policy) [] requests).2 := by
  obtain ⟨hanswers, hrefines⟩ := refines_transcript policy requests
  exact ⟨hanswers, hrefines.shows⟩

/-! ## Emission order -/

namespace Sound

/-- A change that segments follow shows what they say. -/
lemma shows_of_rel {policy : MergePolicy} {next : RegionTable} {changed : Option Segmentation}
    (h : Option.Rel (Refines policy) (some next) changed) :
    ∃ ideal, changed = some ideal ∧ next.Sound ∧ Shows policy next ideal := by
  cases h with
  | some hrefines => exact ⟨_, rfl, hrefines.sound, hrefines.shows⟩

lemma create? (h : table.Sound) {node : NodeId} {next : RegionTable}
    (hnext : table.create? node = some next) : next.Sound ∧ next.assemble = table.assemble ∧
      next.rows.map Region.node = table.rows.map Region.node ++ [node] := by
  obtain ⟨ideal, hideal, hsound, hshows⟩ := shows_of_rel (hnext ▸ refines_create ⟨h, rfl, rfl⟩ node)
  rw [Segmentation.create?] at hideal
  split at hideal
  · cases hideal
  · obtain rfl := Option.some.inj hideal
    rw [hshows.assemble, hshows.nodes, assemble_eq, ← h.nodes_segments]
    exact ⟨hsound, by simp [Segmentation.instructions, Segment.single],
      by simp [Segmentation.nodes, Segment.single, Segment.nodes]⟩

/-- An instruction that is taken comes last. -/
lemma emit? (h : table.Sound) {instruction : Instruction} {next : RegionTable}
    (hnext : table.emit? instruction = some next) :
    next.Sound ∧ next.assemble = table.assemble ++ [instruction] ∧
      next.rows.map Region.node = table.rows.map Region.node := by
  obtain ⟨ideal, hideal, hsound, hshows⟩ :=
    shows_of_rel (hnext ▸ refines_emit ⟨h, rfl, rfl⟩ instruction)
  rw [hshows.assemble, hshows.nodes, assemble_eq, ← h.nodes_segments]
  exact ⟨hsound, Segmentation.instructions_emit? hideal, Segmentation.nodes_emit? hideal⟩

/-- Merging moves instructions but keeps their order. -/
lemma mergeWithPredecessor? (h : table.Sound) {source : RegionId} {next : RegionTable}
    (hnext : table.mergeWithPredecessor? source = some next) :
    next.Sound ∧ next.assemble = table.assemble ∧
      next.rows.map Region.node = table.rows.map Region.node := by
  obtain ⟨index⟩ := source
  cases index with
  | zero => cases hnext
  | succ region =>
    obtain ⟨ideal, hideal, hsound, hshows⟩ :=
      shows_of_rel (hnext ▸ refines_mergeWithPredecessor ⟨h, rfl, rfl⟩ region)
    rw [hshows.assemble, hshows.nodes, assemble_eq, ← h.nodes_segments]
    exact ⟨hsound, Segmentation.instructions_merge? hideal, Segmentation.nodes_merge? hideal⟩

end Sound

end RegionTable
end Dataflow
