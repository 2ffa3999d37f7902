import Dataflow.Proofs.Region.Segment

/-!
# Blocks of a region table

Links between regions give way to a picture without links: the regions of a table fall into blocks,
each of which begins with a region that stands alone and goes on with folded ones.  The invariant
behind it is that a link never leads past a region that stands alone (`RegionTable.Linked`), so
following links from any region of a block ends at its first one (`Block.owner_eq`).

`RegionTable.segments` reads off the blocks as a row of segments.
-/

namespace Dataflow

lemma RegionState.link_eq_none_iff {state : RegionState} :
    state.link = none ↔ state = .standalone := by
  cases state <;> simp [RegionState.link]

namespace RegionTable

variable {table : RegionTable}

/-- The regions in the order of creation. -/
def rows (table : RegionTable) : List Region := table.regions.toList

/-- What became of the regions, in the order of creation. -/
def states (table : RegionTable) : List RegionState := table.rows.map Region.state

@[simp] lemma length_rows (table : RegionTable) : table.rows.length = table.size :=
  Array.length_toList

@[simp] lemma length_states (table : RegionTable) : table.states.length = table.size := by
  simp [states]

lemma get?_eq (table : RegionTable) (id : RegionId) : table.get? id = table.rows[id.index]? := by
  simp [get?, rows]

lemma link?_eq (table : RegionTable) (id : RegionId) :
    table.link? id = table.states[id.index]?.bind RegionState.link := by
  rw [link?, get?_eq, states, List.getElem?_map]
  cases table.rows[id.index]? <;> rfl

lemma rows_update (table : RegionTable) (id : RegionId) (change : Region → Region) :
    (table.update id change).rows = table.rows.modify id.index change := by
  rw [update]
  split
  next region hregion =>
    rw [get?_eq] at hregion
    rw [List.modify_eq_set_getElem?, hregion]
    simp [rows]
  next hnone =>
    rw [get?_eq, List.getElem?_eq_none_iff] at hnone
    rw [List.modify_eq_self hnone]

@[simp] lemma policy_update (table : RegionTable) (id : RegionId) (change : Region → Region) :
    (table.update id change).policy = table.policy := by
  rw [update]
  split <;> rfl

lemma modify_append_cons {α : Type} (before after : List α) (a : α) (change : α → α) :
    (before ++ a :: after).modify before.length change = before ++ change a :: after := by
  induction before with
  | nil => rfl
  | cons b before ih => simp [ih]

/-! ## Links -/

/-- No link leads past a region that stands alone. -/
def Linked (states : List RegionState) : Prop :=
  ∀ (i k : ℕ) (state : RegionState), states[i]? = some state → state.link = some ⟨k⟩ →
    k < i ∧ ∀ j, k < j → j ≤ i → states[j]? ≠ some .standalone

lemma linked_nil : Linked [] := by
  intro i k state h
  simp at h

/-- A new region stands alone. -/
lemma Linked.concat {states : List RegionState} (h : Linked states) :
    Linked (states ++ [.standalone]) := by
  intro i k state hi hlink
  have hlt : i < states.length := by
    by_contra hge
    rw [List.getElem?_append_right (by omega), List.getElem?_singleton] at hi
    split at hi
    · cases hi
      simp [RegionState.link] at hlink
    · cases hi
  rw [List.getElem?_append_left hlt] at hi
  obtain ⟨hk, hbetween⟩ := h i k state hi hlink
  refine ⟨hk, fun j hkj hji => ?_⟩
  rw [List.getElem?_append_left (by omega)]
  exact hbetween j hkj hji

/-- A region may be linked back to any region of the block before it. -/
lemma Linked.set {states : List RegionState} (h : Linked states) {source target : ℕ}
    {state : RegionState} (hlink : state.link = some ⟨target⟩) (hlt : target < source)
    (hbetween : ∀ j, target < j → j < source → states[j]? ≠ some .standalone) :
    Linked (states.set source state) := by
  have hstate : state ≠ .standalone := fun heq => by simp [heq, RegionState.link] at hlink
  -- setting the source takes a region away from those that stand alone, and adds none
  have hset : ∀ j, (states.set source state)[j]? = some .standalone →
      j ≠ source ∧ states[j]? = some .standalone := by
    intro j hj
    rw [List.getElem?_set] at hj
    split at hj
    · split at hj
      · exact absurd (Option.some.inj hj) hstate
      · cases hj
    · next hne => exact ⟨Ne.symm hne, hj⟩
  intro i k other hi hlink'
  rw [List.getElem?_set] at hi
  split at hi
  · next heq =>
    subst heq
    split at hi
    · obtain rfl := Option.some.inj hi
      obtain rfl : k = target := by
        rw [hlink'] at hlink
        exact congrArg RegionId.index (Option.some.inj hlink)
      refine ⟨hlt, fun j hkj hji hj => ?_⟩
      obtain ⟨hne, hj⟩ := hset j hj
      exact hbetween j hkj (by omega) hj
    · cases hi
  · obtain ⟨hk, hfolded⟩ := h i k other hi hlink'
    exact ⟨hk, fun j hkj hji hj => hfolded j hkj hji (hset j hj).2⟩

/-- Following links from a region leads to the last region before it that stands alone. -/
lemma follow_eq (h : Linked table.states) {first : ℕ}
    (hfirst : table.states[first]? = some .standalone) (steps : ℕ) :
    ∀ region, first ≤ region → region < table.size → region ≤ first + steps →
      (∀ j, first < j → j ≤ region → table.states[j]? ≠ some .standalone) →
      table.follow steps ⟨region⟩ = ⟨first⟩ := by
  induction steps with
  | zero =>
    intro region hle _ hsteps _
    obtain rfl : region = first := by omega
    rfl
  | succ steps ih =>
    intro region hle hlt hsteps hfolded
    obtain ⟨state, hstate⟩ : ∃ state, table.states[region]? = some state :=
      ⟨_, List.getElem?_eq_getElem (by simpa using hlt)⟩
    have hlink : table.link? ⟨region⟩ = state.link := by rw [link?_eq, hstate]; rfl
    rw [follow, hlink]
    cases hnext : state.link with
    | none =>
      obtain rfl := RegionState.link_eq_none_iff.mp hnext
      have : ¬ first < region := fun hgt => hfolded region hgt le_rfl hstate
      obtain rfl : region = first := by omega
      rfl
    | some next =>
      obtain ⟨hnlt, hbetween⟩ := h region next.index state hstate hnext
      -- the link does not lead past `first`, which stands alone
      have hnle : first ≤ next.index := by
        by_contra hgt
        exact hbetween first (by omega) hle hfirst
      exact ih next.index hnle (by omega) (by omega) fun j h1 h2 => hfolded j h1 (by omega)

/-- A region that does not exist has no link. -/
lemma owner_of_size_le {id : RegionId} (h : table.size ≤ id.index) : table.owner id = id := by
  have hlink : table.link? id = none := by
    rw [link?_eq, List.getElem?_eq_none (by simpa using h)]
    rfl
  rw [owner]
  cases id.index with
  | zero => rfl
  | succ steps => rw [follow, hlink]

/-! ## Blocks -/

/-- Regions with a marked block: a region that stands alone, and all folded regions directly behind
it. -/
structure Block (rows before : List Region) (head : Region) (folded after : List Region) :
    Prop where
  rows_eq : rows = before ++ head :: (folded ++ after)
  head_standalone : head.state = .standalone
  folded_ne : ∀ region ∈ folded, region.state ≠ .standalone
  after_standalone : ∀ region ∈ after.head?, region.state = .standalone

/-- A region that exists lies in a block, if the first region stands alone. -/
lemma exists_block {rows : List Region} (hhead : ∀ region ∈ rows.head?, region.state = .standalone)
    {target : ℕ} (htarget : target < rows.length) :
    ∃ before head folded after, Block rows before head folded after ∧
      before.length ≤ target ∧ target ≤ before.length + folded.length := by
  induction hlen : rows.length using Nat.strong_induction_on generalizing rows target with
  | _ n ih =>
    subst hlen
    cases rows with
    | nil => simp at htarget
    | cons head tail =>
      set folded := tail.takeWhile (fun region => region.state ≠ .standalone) with hfolded
      set after := tail.dropWhile (fun region => region.state ≠ .standalone) with hafter
      have htail : tail = folded ++ after := List.takeWhile_append_dropWhile.symm
      have hafterHead : ∀ region ∈ after.head?, region.state = .standalone := by
        intro region hregion
        have := List.head?_dropWhile_not (fun region : Region => region.state ≠ .standalone) tail
        rw [← hafter, Option.mem_def.mp hregion] at this
        simpa using this
      by_cases hin : target ≤ folded.length
      · refine ⟨[], head, folded, after, ⟨by rw [htail]; rfl, hhead head rfl, ?_, hafterHead⟩,
          by simp, by simpa using hin⟩
        intro region hregion
        simpa using List.mem_takeWhile_imp hregion
      · -- the target lies behind this block
        have hlength : tail.length = folded.length + after.length := by
          rw [htail, List.length_append]
        rw [List.length_cons] at htarget
        have hbehind : target - (folded.length + 1) < after.length := by omega
        obtain ⟨before, head', folded', after', hblock, h1, h2⟩ :=
          ih after.length (by simp only [List.length_cons]; omega) hafterHead hbehind rfl
        refine ⟨head :: (folded ++ before), head', folded', after',
          ⟨?_, hblock.head_standalone, hblock.folded_ne, hblock.after_standalone⟩, ?_, ?_⟩
        · rw [htail, hblock.rows_eq]
          simp
        · simp only [List.length_cons, List.length_append]
          omega
        · simp only [List.length_cons, List.length_append]
          omega

namespace Block

variable {before folded after : List Region} {head : Region}

lemma states_eq (h : Block table.rows before head folded after) :
    table.states = before.map Region.state ++
      .standalone :: (folded.map Region.state ++ after.map Region.state) := by
  rw [states, h.rows_eq]
  simp [h.head_standalone]

lemma size_eq (h : Block table.rows before head folded after) :
    table.size = before.length + 1 + folded.length + after.length := by
  rw [← length_rows, h.rows_eq]
  simp only [List.length_append, List.length_cons]
  omega

lemma state_first (h : Block table.rows before head folded after) :
    table.states[before.length]? = some .standalone := by
  rw [h.states_eq, List.getElem?_append_right (by simp)]
  simp

/-- No region of a block but its first one stands alone. -/
lemma state_ne (h : Block table.rows before head folded after) {region : ℕ}
    (hgt : before.length < region) (hle : region ≤ before.length + folded.length) :
    table.states[region]? ≠ some .standalone := by
  intro hregion
  rw [h.states_eq, List.getElem?_append_right (by simp; omega),
    List.getElem?_cons, if_neg (by simp; omega),
    List.getElem?_append_left (by simp; omega), List.getElem?_map, Option.map_eq_some_iff]
    at hregion
  obtain ⟨folded, hmem, hstate⟩ := hregion
  exact h.folded_ne folded (List.mem_of_getElem? hmem) hstate

/-- The first region of a block owns all of it. -/
lemma owner_eq (h : Block table.rows before head folded after) (hlinked : Linked table.states)
    {region : ℕ} (hge : before.length ≤ region) (hle : region ≤ before.length + folded.length) :
    table.owner ⟨region⟩ = ⟨before.length⟩ :=
  follow_eq hlinked h.state_first region region hge (by have := h.size_eq; omega) (by omega)
    fun _ hj hjr => h.state_ne hj (by omega)

lemma get?_first (h : Block table.rows before head folded after) :
    table.get? ⟨before.length⟩ = some head := by
  rw [get?_eq, h.rows_eq, List.getElem?_append_right le_rfl]
  simp

/-- The region behind a block, if there is one. -/
lemma get?_after (h : Block table.rows before head folded after) :
    table.get? ⟨before.length + folded.length + 1⟩ = after.head? := by
  rw [get?_eq, h.rows_eq, List.getElem?_append_right (by simp; omega), List.getElem?_cons,
    if_neg (by simp; omega), List.getElem?_append_right (by simp; omega), List.head?_eq_getElem?]
  congr 1
  simp only
  omega

end Block

/-! ## Reading off the segments -/

/-- The nodes of the folded regions at the beginning of some regions, and the segments behind
them. -/
def group : List Region → List NodeId × Segmentation
  | [] => ([], [])
  | region :: rest =>
    let (leading, segments) := group rest
    if region.state = .standalone then ([], ⟨region.node, leading, region.instructions⟩ :: segments)
    else (region.node :: leading, segments)

/-- The segments of a table. -/
def segments (table : RegionTable) : Segmentation := (group table.rows).2

lemma group_standalone {region : Region} (h : region.state = .standalone) (rest : List Region) :
    group (region :: rest) =
      ([], ⟨region.node, (group rest).1, region.instructions⟩ :: (group rest).2) := by
  simp [group, h]

lemma group_folded {region : Region} (h : region.state ≠ .standalone) (rest : List Region) :
    group (region :: rest) = (region.node :: (group rest).1, (group rest).2) := by
  simp [group, h]

lemma group_append_folded {folded : List Region}
    (h : ∀ region ∈ folded, region.state ≠ .standalone) (after : List Region) :
    group (folded ++ after) =
      (folded.map Region.node ++ (group after).1, (group after).2) := by
  induction folded with
  | nil => rfl
  | cons region folded ih =>
    rw [List.cons_append, group_folded (h region (by simp)), ih fun r hr => h r (by simp [hr])]
    rfl

/-- A region that stands alone begins a segment, whatever comes before. -/
lemma group_append_standalone (before : List Region) {head : Region}
    (h : head.state = .standalone) (rest : List Region) :
    group (before ++ head :: rest) =
      ((group before).1, (group before).2 ++ (group (head :: rest)).2) := by
  induction before with
  | nil =>
    rw [List.nil_append, group_standalone h]
    rfl
  | cons region before ih =>
    rw [List.cons_append]
    by_cases hregion : region.state = .standalone
    · rw [group_standalone hregion, group_standalone hregion, ih]
      rfl
    · rw [group_folded hregion, group_folded hregion, ih]

lemma group_eq_of_head {rows : List Region}
    (h : ∀ region ∈ rows.head?, region.state = .standalone) : (group rows).1 = [] := by
  cases rows with
  | nil => rfl
  | cons region rest => rw [group_standalone (h region rfl)]

/-- Grouping loses no region. -/
lemma nodes_group (rows : List Region) :
    (group rows).1 ++ (group rows).2.nodes = rows.map Region.node := by
  induction rows with
  | nil => rfl
  | cons region rest ih =>
    by_cases h : region.state = .standalone
    · rw [group_standalone h, List.map_cons, ← ih]
      rfl
    · rw [group_folded h, List.map_cons, ← ih]
      rfl

/-- The segments of a table around a block. -/
lemma Block.segments_eq {before folded after : List Region} {head : Region}
    (h : Block table.rows before head folded after) :
    table.segments = (group before).2 ++
      ⟨head.node, folded.map Region.node, head.instructions⟩ :: (group after).2 := by
  rw [segments, h.rows_eq, group_append_standalone before h.head_standalone,
    group_standalone h.head_standalone, group_append_folded h.folded_ne,
    group_eq_of_head h.after_standalone, List.append_nil]

end RegionTable
end Dataflow
