import Dataflow.Proofs.Region.Refinement

/-!
# The walk to the owner of a region

A region table finds the owner of a region by following links until there is none.  Nothing in the
loop says that it ends, and what it leads to is then used as a position without a check.  Here the
walk is taken as it is, with no bound on its length (`RegionTable.Walk`), and the requests are
served with accesses that fail if there is no region at a position (`RegionTable.serveAt?`).

For every table that can be built the walk ends, whatever region it sets out from, and it ends where
`RegionTable.owner` says.  No access fails (`RegionTable.walks_end`).  Behind this is that links
lead to earlier regions, and that no request changes the state of a folded region
(`serve_keeps_folded`).
-/

namespace Dataflow
namespace RegionTable

variable {table : RegionTable}

/-- The walk along links from a region, with the number of links followed and the region that it
ends at. -/
inductive Walk (table : RegionTable) : RegionId → ℕ → RegionId → Prop
  /-- The walk ends at a region that stands alone, and where there is no region. -/
  | stop {id : RegionId} : table.link? id = none → Walk table id 0 id
  /-- A link is followed. -/
  | step {id next last : RegionId} {steps : ℕ} : table.link? id = some next →
    Walk table next steps last → Walk table id (steps + 1) last

namespace Walk

variable {id last last' : RegionId} {steps steps' : ℕ}

/-- There is only one walk from a region. -/
lemma unique (h : table.Walk id steps last) (h' : table.Walk id steps' last') :
    steps' = steps ∧ last' = last := by
  induction h generalizing steps' with
  | stop hnone =>
    cases h' with
    | stop => exact ⟨rfl, rfl⟩
    | step hsome => cases hnone.symm.trans hsome
  | step hsome _ ih =>
    cases h' with
    | stop hnone => cases hnone.symm.trans hsome
    | step hsome' hrest =>
      cases hsome.symm.trans hsome'
      obtain ⟨rfl, rfl⟩ := ih hrest
      exact ⟨rfl, rfl⟩

/-- There is no link at the end. -/
lemma link?_last (h : table.Walk id steps last) : table.link? last = none := by
  induction h with
  | stop hnone => exact hnone
  | step _ _ ih => exact ih

/-- Enough steps lead to the end. -/
lemma follow_eq (h : table.Walk id steps last) {bound : ℕ} (hbound : steps ≤ bound) :
    table.follow bound id = last := by
  induction h generalizing bound with
  | stop hnone =>
    cases bound with
    | zero => rfl
    | succ bound => rw [follow, hnone]
  | step hsome _ ih =>
    cases bound with
    | zero => cases hbound
    | succ bound =>
      rw [follow, hsome]
      exact ih (Nat.le_of_succ_le_succ hbound)

end Walk

lemma get?_isSome_iff {id : RegionId} : (table.get? id).isSome ↔ id.index < table.size := by
  simp [get?, size]

lemma exists_get? {id : RegionId} (h : id.index < table.size) :
    ∃ region, table.get? id = some region :=
  Option.isSome_iff_exists.mp (get?_isSome_iff.mpr h)

/-! ## Links lead back -/

lemma Sound.link (h : table.Sound) {id next : RegionId} (hlink : table.link? id = some next) :
    next.index < id.index ∧ id.index < table.size := by
  rw [link?_eq, Option.bind_eq_some_iff] at hlink
  obtain ⟨state, hstate, hnext⟩ := hlink
  have hsize := (List.getElem?_eq_some_iff.mp hstate).1
  rw [length_states] at hsize
  exact ⟨(h.linked id.index next.index state hstate hnext).1, hsize⟩

/-- Every step of a walk gets closer to the first region. -/
lemma Walk.add_le (h : table.Sound) {id last : RegionId} {steps : ℕ}
    (hwalk : table.Walk id steps last) : last.index + steps ≤ id.index := by
  induction hwalk with
  | stop => exact le_rfl
  | step hlink _ ih =>
    have := (h.link hlink).1
    omega

namespace Sound

lemma exists_walk (h : table.Sound) (id : RegionId) : ∃ steps last, table.Walk id steps last := by
  induction hindex : id.index using Nat.strong_induction_on generalizing id with
  | _ index ih =>
    subst hindex
    cases hlink : table.link? id with
    | none => exact ⟨0, id, .stop hlink⟩
    | some next =>
      obtain ⟨steps, last, hwalk⟩ := ih next.index (h.link hlink).1 next rfl
      exact ⟨steps + 1, last, .step hlink hwalk⟩

/-- The walk from a region leads to its owner. -/
lemma walk_owner (h : table.Sound) (id : RegionId) :
    ∃ steps, table.Walk id steps (table.owner id) := by
  obtain ⟨steps, last, hwalk⟩ := h.exists_walk id
  have hsteps := hwalk.add_le h
  obtain rfl : table.owner id = last := hwalk.follow_eq (by omega)
  exact ⟨steps, hwalk⟩

lemma owner_le (h : table.Sound) (id : RegionId) : (table.owner id).index ≤ id.index := by
  obtain ⟨steps, hwalk⟩ := h.walk_owner id
  have hsteps := hwalk.add_le h
  omega

/-- The owner of a region that exists stands alone, and is its own owner. -/
lemma get?_owner (h : table.Sound) {id : RegionId} (hid : id.index < table.size) :
    ∃ holder, table.get? (table.owner id) = some holder ∧ holder.state = .standalone ∧
      table.owner (table.owner id) = table.owner id := by
  obtain ⟨steps, hwalk⟩ := h.walk_owner id
  have hend := hwalk.link?_last
  obtain ⟨holder, hholder⟩ := exists_get? ((h.owner_le id).trans_lt hid)
  refine ⟨holder, hholder, ?_, (Walk.stop hend).follow_eq (Nat.zero_le _)⟩
  rw [link?, hholder] at hend
  exact RegionState.link_eq_none_iff.mp hend

end Sound

/-! ## Folded regions stay as they are -/

/-- What became of a region after another one, or itself, has been changed. -/
lemma getElem?_states_update (table : RegionTable) (id : RegionId) (change : Region → Region)
    (i : ℕ) : (table.update id change).states[i]? =
      if id.index = i then table.rows[i]?.map fun region => (change region).state
      else table.states[i]? := by
  rw [states, states, rows_update, List.getElem?_map, List.getElem?_map, List.getElem?_modify]
  split <;> cases table.rows[i]? <;> rfl

@[simp] lemma states_extend (table : RegionTable) (id : RegionId)
    (instructions : List Instruction) : (table.extend id instructions).states = table.states := by
  refine List.ext_getElem? fun i => ?_
  rw [extend, getElem?_states_update, states, List.getElem?_map]
  exact ite_self _

lemma getElem?_states_fold (table : RegionTable) {target source : RegionId} (state : RegionState)
    {i : ℕ} (h : i ≠ source.index) :
    (table.fold target source state).states[i]? = table.states[i]? := by
  rw [fold]
  split
  · rfl
  · rw [getElem?_states_update, if_neg (Ne.symm h), states_extend]

/-- Only a region that stands alone can be folded. -/
lemma state_of_canMerge {target source : RegionId} (h : table.canMerge target source = true) :
    table.states[source.index]? = some .standalone := by
  obtain ⟨region, hsource, -, hstate, -⟩ := canMerge_eq_true_iff.mp h
  rw [get?_eq] at hsource
  rw [states, List.getElem?_map, hsource, Option.map_some, hstate]

section

variable {i : ℕ} {state : RegionState}

/-- A merge leaves the regions alone that are folded already. -/
lemma merge_keeps_folded {target source : RegionId} {new : RegionState}
    (hi : table.states[i]? = some state) (hstate : state ≠ .standalone) :
    (RegionAnswer.ofChange table (if table.canMerge target source then
      some (table.fold target source new) else none)).2.states[i]? = some state := by
  split
  · next hmerge =>
    have hne : i ≠ source.index := by
      rintro rfl
      exact hstate (Option.some.inj (hi.symm.trans (state_of_canMerge hmerge)))
    exact (getElem?_states_fold table new hne).trans hi
  · exact hi

/-- **Folding is final.**  No request changes the state of a folded region. -/
lemma serve_keeps_folded (hi : table.states[i]? = some state) (hstate : state ≠ .standalone)
    (request : RegionRequest) : (table.serve request).2.states[i]? = some state := by
  cases request with
  | create node =>
    rw [serve, create?]
    split
    · next next hnext =>
      split at hnext
      · cases hnext
      · obtain rfl := Option.some.inj hnext
        have hlt := (List.getElem?_eq_some_iff.mp hi).1
        have hstates : ({ table with regions := table.regions.push ⟨node, .standalone, []⟩ } :
            RegionTable).states = table.states ++ [.standalone] := by
          simp [states, rows]
        rw [hstates, List.getElem?_append_left hlt]
        exact hi
    · exact hi
  | emit instruction =>
    rw [serve, emit?]
    split
    · exact hi
    · exact (congrArg (·[i]?) (states_extend _ _ _)).trans hi
  | mergeWithPredecessor source =>
    rw [serve, mergeWithPredecessor?]
    split
    · exact hi
    · exact merge_keeps_folded hi hstate
  | mergeWithTarget target source => exact merge_keeps_folded hi hstate

lemma transcript_keeps_folded (hi : table.states[i]? = some state) (hstate : state ≠ .standalone)
    (requests : List RegionRequest) :
    (transcript serve table requests).2.states[i]? = some state :=
  transcript_invariant (P := fun table : RegionTable => table.states[i]? = some state)
    (fun _ request h => serve_keeps_folded h hstate request) hi requests

end

/-! ## Accesses by position -/

/-- Appends instructions to those of the region at a position, if there is one. -/
def extendAt? (table : RegionTable) (id : RegionId) (instructions : List Instruction) :
    Option RegionTable :=
  (table.get? id).map fun _ => table.extend id instructions

/-- Appends an instruction to the owner of the latest region, or says that no region is open.  The
access to the owner may fail. -/
def emitAt? (table : RegionTable) (instruction : Instruction) : Option (Option RegionTable) :=
  match table.size with
  | 0 => some none
  | last + 1 => (table.extendAt? (table.owner ⟨last⟩) [instruction]).map some

/-- Whether the source may be folded into the owner of the target.  The accesses to the source and
to the owner may fail. -/
def canMergeAt? (table : RegionTable) (target source : RegionId) : Option Bool :=
  if source.index ≤ target.index ∨ table.size ≤ source.index then some false
  else (table.get? source).bind fun region =>
    let owner := table.owner target
    if region.state ≠ .standalone ∨ ¬ (between target source).all (fun id => table.owner id = owner)
    then some false
    else match table.policy with
      | .never => some false
      | .always => some true
      | .atMost limit => (table.get? owner).map fun holder =>
        holder.instructions.length + region.instructions.length ≤ limit

/-- Moves the instructions of the source to the owner of the target: takes them away, appends them
and notes where they went.  Each of the three accesses may fail. -/
def foldAt? (table : RegionTable) (target source : RegionId) (state : RegionState) :
    Option RegionTable := do
  let region ← table.get? source
  let taken := table.update source fun region => { region with instructions := [] }
  let moved ← taken.extendAt? (table.owner target) region.instructions
  let _ ← moved.get? source
  return moved.update source fun region => { region with state }

/-- Folds the source into the owner of the target if that is acceptable. -/
def mergeAt? (table : RegionTable) (target source : RegionId) (state : RegionState) :
    Option (Option RegionTable) :=
  (table.canMergeAt? target source).bind fun granted =>
    if granted then (table.foldAt? target source state).map some else some none

/-- Serves a request with accesses by position, which may fail. -/
def serveAt? (table : RegionTable) : RegionRequest → Option (RegionAnswer × RegionTable)
  | .create node => some (table.serve (.create node))
  | .emit instruction => (table.emitAt? instruction).map (RegionAnswer.ofChange table)
  | .mergeWithPredecessor ⟨0⟩ => some (.granted false, table)
  | .mergeWithPredecessor ⟨index + 1⟩ =>
    (table.mergeAt? ⟨index⟩ ⟨index + 1⟩ (.withPredecessor ⟨index⟩)).map
      (RegionAnswer.ofChange table)
  | .mergeWithTarget target source =>
    (table.mergeAt? target source (.withTarget target)).map (RegionAnswer.ofChange table)

/-! ### No access fails -/

lemma extendAt?_of_lt {id : RegionId} (hid : id.index < table.size)
    (instructions : List Instruction) :
    table.extendAt? id instructions = some (table.extend id instructions) := by
  obtain ⟨region, hregion⟩ := exists_get? hid
  rw [extendAt?, hregion]
  rfl

lemma eq_of_rows {other : RegionTable} (hrows : table.rows = other.rows)
    (hpolicy : table.policy = other.policy) : table = other := by
  cases table
  cases other
  simp_all [rows, ← Array.toList_inj]

/-- A region that is folded comes behind the target. -/
lemma lt_of_canMerge {target source : RegionId} (h : table.canMerge target source = true) :
    target.index < source.index ∧ source.index < table.size := by
  have hsize := (List.getElem?_eq_some_iff.mp (state_of_canMerge h)).1
  obtain ⟨region, -, hlt, -⟩ := canMerge_eq_true_iff.mp h
  exact ⟨hlt, by rwa [length_states] at hsize⟩

lemma emitAt?_eq (h : table.Sound) (instruction : Instruction) :
    table.emitAt? instruction = some (table.emit? instruction) := by
  rw [emitAt?, emit?]
  cases hsize : table.size with
  | zero => rfl
  | succ last =>
    have howner := (h.owner_le ⟨last⟩).trans_lt (show last < table.size by omega)
    simp only [extendAt?_of_lt howner, Option.map_some]

lemma canMergeAt?_eq (h : table.Sound) (target source : RegionId) :
    table.canMergeAt? target source = some (table.canMerge target source) := by
  rw [canMergeAt?]
  split
  · next hout =>
    -- such a merge is refused before anything is looked at
    refine congrArg some (Eq.symm (Bool.eq_false_iff.mpr fun hmerge => ?_))
    have := lt_of_canMerge hmerge
    omega
  · next hin =>
    obtain ⟨hlt, hsize⟩ : target.index < source.index ∧ source.index < table.size := by omega
    obtain ⟨region, hsource⟩ := exists_get? hsize
    obtain ⟨holder, hholder, -⟩ := h.get?_owner (hlt.trans hsize)
    simp only [canMerge, hsource, Option.bind_some, hlt, held, hholder, Option.map_some,
      Option.getD_some, decide_true, Bool.true_and]
    split
    · next hrefused =>
      refine congrArg some (Eq.symm (Bool.eq_false_iff.mpr fun hgranted => ?_))
      rw [Bool.and_eq_true, Bool.and_eq_true, decide_eq_true_eq] at hgranted
      exact hrefused.elim (absurd hgranted.1.1) (absurd hgranted.1.2)
    · next hgood =>
      obtain ⟨hstate, hbetween⟩ := not_or.mp hgood
      rw [not_not] at hstate hbetween
      rw [hbetween, decide_eq_true hstate]
      cases table.policy <;> rfl

/-- Taking the instructions away from the source before they are appended to those of another region
comes to the same. -/
lemma update_extend_update (table : RegionTable) {source owner : RegionId} (state : RegionState)
    (instructions : List Instruction) (hne : owner.index ≠ source.index) :
    ((table.update source fun region => { region with instructions := [] }).extend owner
        instructions).update source (fun region => { region with state }) =
      (table.extend owner instructions).update source
        fun region => { region with state, instructions := [] } := by
  refine eq_of_rows (List.ext_getElem? fun i => ?_) (by simp [extend])
  simp only [extend, rows_update, List.getElem?_modify]
  cases table.rows[i]? with
  | none => rfl
  | some other =>
    by_cases howner : owner.index = i
    · have hi : source.index ≠ i := fun h => hne (howner.trans h.symm)
      simp [hi]
    · simp only [howner, if_false]
      split <;> rfl

lemma foldAt?_eq (h : table.Sound) {target source : RegionId} (state : RegionState)
    (hmerge : table.canMerge target source = true) :
    table.foldAt? target source state = some (table.fold target source state) := by
  obtain ⟨hlt, hsize⟩ := lt_of_canMerge hmerge
  have howner := (h.owner_le target).trans_lt hlt
  obtain ⟨region, hsource⟩ := exists_get? hsize
  have htaken : (table.owner target).index <
      (table.update source fun region => { region with instructions := [] }).size := by
    rw [size_update]
    exact howner.trans hsize
  have hmoved : source.index < ((table.update source fun region =>
      { region with instructions := [] }).extend (table.owner target)
        region.instructions).size := by
    rw [size_extend, size_update]
    exact hsize
  have hextend := extendAt?_of_lt htaken region.instructions
  obtain ⟨rest, hrest⟩ := exists_get? hmoved
  simp only [foldAt?, fold, hsource, hextend, hrest, Option.bind_eq_bind, Option.bind_some,
    Option.pure_def, update_extend_update table state _ howner.ne]

lemma mergeAt?_eq (h : table.Sound) (target source : RegionId) (state : RegionState) :
    table.mergeAt? target source state = some (if table.canMerge target source then
      some (table.fold target source state) else none) := by
  rw [mergeAt?, canMergeAt?_eq h, Option.bind_some]
  split
  · next hmerge => rw [foldAt?_eq h state hmerge, Option.map_some]
  · rfl

lemma serveAt?_eq (h : table.Sound) (request : RegionRequest) :
    table.serveAt? request = some (table.serve request) := by
  cases request with
  | create node => rfl
  | emit instruction => rw [serveAt?, emitAt?_eq h]; rfl
  | mergeWithPredecessor source =>
    obtain ⟨_ | index⟩ := source
    · rfl
    · rw [serveAt?, mergeAt?_eq h]; rfl
  | mergeWithTarget target source => rw [serveAt?, mergeAt?_eq h]; rfl

/-! ## All tables -/

/-- What following links comes to in a region table. -/
structure Walkable (table : RegionTable) : Prop where
  /-- A folded region is linked to an earlier one. -/
  link : ∀ id region next, table.get? id = some region → region.state.link = some next →
    next.index < id.index ∧ (table.get? next).isSome
  /-- The walk from any region ends, after no more steps than there are regions before it, and it
  ends at the owner. -/
  walk : ∀ id, ∃ steps ≤ id.index, ∀ taken last,
    table.Walk id taken last ↔ taken = steps ∧ last = table.owner id
  /-- The walk ends at once where there is no region. -/
  missing : ∀ id, table.get? id = none → table.Walk id 0 id
  /-- The owner of a region that exists stands alone, and is its own owner. -/
  owner : ∀ id, (table.get? id).isSome → ∃ holder, table.get? (table.owner id) = some holder ∧
    holder.state = .standalone ∧ table.owner (table.owner id) = table.owner id
  /-- No access by position fails while a request is served. -/
  access : ∀ request, table.serveAt? request = some (table.serve request)

lemma Sound.walkable (h : table.Sound) : table.Walkable where
  link := fun id region next hregion hlink => by
    have hnext : table.link? id = some next := by
      rw [link?, hregion]
      exact hlink
    obtain ⟨hlt, hsize⟩ := h.link hnext
    exact ⟨hlt, get?_isSome_iff.mpr (hlt.trans hsize)⟩
  walk := fun id => by
    obtain ⟨steps, hwalk⟩ := h.walk_owner id
    have hsteps := hwalk.add_le h
    refine ⟨steps, by omega, fun taken last => ⟨hwalk.unique, ?_⟩⟩
    rintro ⟨rfl, rfl⟩
    exact hwalk
  missing := fun id hnone => .stop (by rw [link?, hnone]; rfl)
  owner := fun id hid => h.get?_owner (get?_isSome_iff.mp hid)
  access := serveAt?_eq h

/-- **Every walk ends.**  Whatever has been asked of a region table, following links ends from every
region, and from those that exist it ends at one that stands alone, so that no access by position
fails.  Whatever is asked afterwards, a folded region stays and keeps its link. -/
theorem walks_end (policy : MergePolicy) (requests : List RegionRequest) :
    Walkable (transcript serve (.empty policy) requests).2 ∧
      ∀ later id region,
        (transcript serve (.empty policy) requests).2.get? id = some region →
        region.state ≠ .standalone →
        ∃ same, (transcript serve (.empty policy) (requests ++ later)).2.get? id = some same ∧
          same.state = region.state := by
  have hsound := (refines_transcript policy requests).2.sound
  refine ⟨hsound.walkable, fun later id region hregion hfolded => ?_⟩
  have hbefore : (transcript serve (.empty policy) requests).2.states[id.index]? =
      some region.state := by
    rw [states, List.getElem?_map, ← get?_eq, hregion, Option.map_some]
  have hstate := transcript_keeps_folded hbefore hfolded later
  rw [states, List.getElem?_map, Option.map_eq_some_iff] at hstate
  obtain ⟨same, hsame, hstate⟩ := hstate
  exact ⟨same, by rw [get?_eq, transcript_append]; exact hsame, hstate⟩

end RegionTable
end Dataflow
