import Mathlib
import Dataflow.Compiler.Scope

/-!
# Which binding of a port counts

What happens to a stack of frames is a list of events: frames are opened and closed, and ports are
bound in the innermost frame.  A frame is followed through the events by the number of frames inside
it (`ScopeEvent.level`), so a binding that is made on the way still stands at the end if its frame
has such a number then (`ScopeEvent.Stands`).  Of the bindings of a port that stand, the one in the
innermost frame counts, and among those in one frame the latest (`ScopeEvent.Governs`).  A lookup
finds it, and if there is none, what was there before (`ScopeStack.lookup_replay_eq_some_iff`).
-/

namespace Dataflow

/-- What can happen to a stack of frames. -/
inductive ScopeEvent where
  /-- A frame is opened. -/
  | opened
  /-- The innermost frame is closed. -/
  | closed
  /-- A port is bound in the innermost frame. -/
  | bound (port : PortId) (var : VarId)
deriving DecidableEq, Repr

namespace ScopeEvent

variable {events : List ScopeEvent} {event : ScopeEvent} {port : PortId} {var : VarId}
variable {k m i inside : ℕ}

/-- How many frames are inside a frame at the end, if there were `k` at the beginning and the frame
is not closed by the events. -/
def level : ℕ → List ScopeEvent → Option ℕ
  | k, [] => some k
  | k, .opened :: rest => level (k + 1) rest
  | 0, .closed :: _ => none
  | k + 1, .closed :: rest => level k rest
  | k, .bound _ _ :: rest => level k rest

@[simp] lemma level_nil (k : ℕ) : level k [] = some k := by
  rw [level]

@[simp] lemma level_opened (k : ℕ) (rest : List ScopeEvent) :
    level k (.opened :: rest) = level (k + 1) rest := by
  rw [level]

@[simp] lemma level_bound (k : ℕ) (port : PortId) (var : VarId) (rest : List ScopeEvent) :
    level k (.bound port var :: rest) = level k rest := by
  rw [level]

@[simp] lemma level_zero_closed (rest : List ScopeEvent) : level 0 (.closed :: rest) = none := by
  rw [level]

@[simp] lemma level_succ_closed (k : ℕ) (rest : List ScopeEvent) :
    level (k + 1) (.closed :: rest) = level k rest := by
  rw [level]

lemma level_append (k : ℕ) (events rest : List ScopeEvent) :
    level k (events ++ rest) = (level k events).bind fun m => level m rest := by
  induction events generalizing k with
  | nil => simp
  | cons event events ih =>
    cases event with
    | opened => simp [ih]
    | bound port var => simp [ih]
    | closed => cases k <;> simp [ih]

lemma level_append_eq_some {rest : List ScopeEvent} :
    level k (events ++ rest) = some inside ↔
      ∃ m, level k events = some m ∧ level m rest = some inside := by
  rw [level_append, Option.bind_eq_some_iff]

/-- A frame further outside has as many frames more inside at the end as at the beginning. -/
lemma level_add (h : level k events = some m) (more : ℕ) :
    level (k + more) events = some (m + more) := by
  induction events generalizing k with
  | nil =>
    obtain rfl : k = m := Option.some.inj h
    rfl
  | cons event events ih =>
    cases event with
    | opened =>
      rw [level_opened] at h ⊢
      rw [Nat.add_right_comm]
      exact ih h
    | bound port var => exact ih h
    | closed =>
      cases k with
      | zero => cases h
      | succ k =>
        rw [level_succ_closed] at h
        rw [Nat.add_right_comm, level_succ_closed]
        exact ih h

lemma level_of_le (h : level k events = some m) {other : ℕ} (hle : k ≤ other) :
    level other events = some (m + (other - k)) := by
  have hadd := level_add h (other - k)
  rwa [Nat.add_sub_cancel' hle] at hadd

/-- Frames stay in their order. -/
lemma lt_of_level_lt {k' m' : ℕ} (h : level k events = some m) (h' : level k' events = some m')
    (hlt : m' < m) : k' < k := by
  by_contra hle
  have := (level_of_le h (not_lt.mp hle)).symm.trans h'
  rw [Option.some.injEq] at this
  omega

lemma eq_of_level_eq {k' : ℕ} (h : level k events = some m) (h' : level k' events = some m) :
    k = k' := by
  rcases le_total k k' with hle | hle
  · have := (level_of_le h hle).symm.trans h'
    rw [Option.some.injEq] at this
    omega
  · have := (level_of_le h' hle).symm.trans h
    rw [Option.some.injEq] at this
    omega

/-! ## Bindings that stand -/

/-- The event of number `i` binds a port in a frame that is still open at the end, with the given
number of frames inside it. -/
structure Stands (events : List ScopeEvent) (i inside : ℕ) (port : PortId) (var : VarId) :
    Prop where
  binds : events[i]? = some (.bound port var)
  stays : level 0 (events.drop (i + 1)) = some inside

/-- The latest of the bindings of a port in a frame that is still open. -/
def LatestIn (events : List ScopeEvent) (inside : ℕ) (port : PortId) (var : VarId) : Prop :=
  ∃ i, Stands events i inside port var ∧
    ∀ i' other, Stands events i' inside port other → i' ≤ i

/-- The latest of the bindings of a port in the innermost frame that is still open and in which it
has been bound. -/
def Governs (events : List ScopeEvent) (port : PortId) (var : VarId) : Prop :=
  ∃ i inside, Stands events i inside port var ∧
    ∀ i' inside' other, Stands events i' inside' port other →
      inside < inside' ∨ inside = inside' ∧ i' ≤ i

/-- A port is not bound in any frame that is still open, unless this was before. -/
def Unbound (events : List ScopeEvent) (port : PortId) : Prop :=
  ∀ i inside var, ¬ Stands events i inside port var

lemma Stands.lt_length (h : Stands events i inside port var) : i < events.length :=
  (List.getElem?_eq_some_iff.mp h.binds).1

/-- Whether an event binds a port. -/
def binds (port : PortId) : ScopeEvent → Bool
  | .opened => false
  | .closed => false
  | .bound own _ => own = port

lemma binds_eq_true : event.binds port = true ↔ ∃ var, event = .bound port var := by
  cases event <;> simp [binds]

lemma unbound_iff : Unbound events port ↔ ∀ i, ∀ h : i < events.length,
    events[i].binds port = true → level 0 (events.drop (i + 1)) = none := by
  constructor
  · intro h i hlt hbinds
    obtain ⟨var, hvar⟩ := binds_eq_true.mp hbinds
    refine Option.eq_none_iff_forall_ne_some.mpr fun inside hstays => h i inside var ⟨?_, hstays⟩
    rw [List.getElem?_eq_getElem hlt, hvar]
  · intro h i inside var hstands
    obtain ⟨hlt, hvar⟩ := List.getElem?_eq_some_iff.mp hstands.binds
    have hnone := h i hlt (binds_eq_true.mpr ⟨var, hvar⟩)
    rw [hstands.stays] at hnone
    cases hnone

instance (events : List ScopeEvent) (port : PortId) : Decidable (Unbound events port) :=
  decidable_of_iff' _ unbound_iff

/-- What stands after one more event stood before it in the same frame, or is the event itself. -/
lemma stands_concat : Stands (events ++ [event]) i inside port var ↔
    (∃ m, level m [event] = some inside ∧ Stands events i m port var) ∨
      i = events.length ∧ inside = 0 ∧ event = .bound port var := by
  rcases Nat.lt_trichotomy i events.length with hlt | rfl | hgt
  · constructor
    · rintro ⟨hbinds, hstays⟩
      rw [List.getElem?_append_left hlt] at hbinds
      rw [List.drop_append_of_le_length hlt] at hstays
      obtain ⟨m, hm, hinside⟩ := level_append_eq_some.mp hstays
      exact .inl ⟨m, hinside, hbinds, hm⟩
    · rintro (⟨m, hinside, hbinds, hm⟩ | ⟨rfl, -, -⟩)
      · refine ⟨by rwa [List.getElem?_append_left hlt], ?_⟩
        rw [List.drop_append_of_le_length hlt]
        exact level_append_eq_some.mpr ⟨m, hm, hinside⟩
      · exact absurd hlt (lt_irrefl _)
  · have hdrop : (events ++ [event]).drop (events.length + 1) = [] :=
      List.drop_eq_nil_of_le (by simp)
    constructor
    · rintro ⟨hbinds, hstays⟩
      rw [List.getElem?_concat_length] at hbinds
      rw [hdrop] at hstays
      exact .inr ⟨rfl, (Option.some.inj hstays).symm, Option.some.inj hbinds⟩
    · rintro (⟨m, -, h⟩ | ⟨-, rfl, rfl⟩)
      · exact absurd h.lt_length (lt_irrefl _)
      · exact ⟨List.getElem?_concat_length, by rw [hdrop]; rfl⟩
  · refine iff_of_false (fun h => ?_) ?_
    · have := h.lt_length
      rw [List.length_append, List.length_singleton] at this
      omega
    · rintro (⟨m, -, h⟩ | ⟨rfl, -, -⟩)
      · exact absurd h.lt_length (not_lt.mpr hgt.le)
      · exact absurd hgt (lt_irrefl _)

/-- A binding that has just been made is the latest one. -/
lemma latestIn_concat_bound {other : VarId} :
    LatestIn (events ++ [.bound port other]) 0 port var ↔ var = other := by
  have hlast : Stands (events ++ [.bound port other]) events.length 0 port other :=
    stands_concat.mpr (.inr ⟨rfl, rfl, rfl⟩)
  constructor
  · rintro ⟨i, hstands, hlatest⟩
    obtain rfl : i = events.length := by
      refine le_antisymm (Nat.le_of_lt_succ ?_) (hlatest _ _ hlast)
      simpa using hstands.lt_length
    have := hstands.binds.symm.trans hlast.binds
    exact (ScopeEvent.bound.inj (Option.some.inj this)).2
  · rintro rfl
    refine ⟨_, hlast, fun i' other hother => Nat.le_of_lt_succ ?_⟩
    simpa using hother.lt_length

/-- Any other event leaves the bindings in a frame as they are. -/
lemma stands_concat_of_ne (hother : ∀ other, ¬ (inside = 0 ∧ event = .bound port other))
    (hm : level m [event] = some inside) :
    Stands (events ++ [event]) i inside port var ↔ Stands events i m port var := by
  rw [stands_concat]
  constructor
  · rintro (⟨m', hm', h⟩ | ⟨-, hinside, hbound⟩)
    · rwa [eq_of_level_eq hm hm']
    · exact absurd ⟨hinside, hbound⟩ (hother var)
  · exact fun h => .inl ⟨m, hm, h⟩

/-- A binding is made in the innermost frame, so what was open then is not inside it. -/
lemma Stands.le_of_level (h : Stands events i inside port var) (hlevel : level k events = some m) :
    inside ≤ m := by
  rw [← List.take_append_drop (i + 1) events] at hlevel
  obtain ⟨middle, -, hrest⟩ := level_append_eq_some.mp hlevel
  have := (level_add h.stays middle).symm.trans ((Nat.zero_add middle).symm ▸ hrest)
  rw [Option.some.injEq] at this
  omega

lemma Stands.exists_latestIn (h : Stands events i inside port var) :
    ∃ var, LatestIn events inside port var := by
  classical
  have hlatest := Nat.findGreatest_spec (P := fun i => ∃ var, Stands events i inside port var)
    h.lt_length.le ⟨var, h⟩
  obtain ⟨var, hvar⟩ := hlatest
  exact ⟨var, _, hvar, fun i' other hother =>
    Nat.le_findGreatest hother.lt_length.le ⟨other, hother⟩⟩

/-- If any binding of a port stands, one governs. -/
lemma Stands.exists_governs (h : Stands events i inside port var) :
    ∃ var, Governs events port var := by
  classical
  have hexists : ∃ inside i var, Stands events i inside port var := ⟨inside, i, var, h⟩
  obtain ⟨i, var, hinnermost⟩ := Nat.find_spec hexists
  obtain ⟨var, i, hstands, hlatest⟩ := hinnermost.exists_latestIn
  refine ⟨var, i, _, hstands, fun i' inside' other hother => ?_⟩
  rcases (Nat.find_min' hexists ⟨i', other, hother⟩).lt_or_eq with hlt | heq
  · exact .inl hlt
  · exact .inr ⟨heq, hlatest i' other (heq ▸ hother)⟩

end ScopeEvent

namespace ScopeStack

open ScopeEvent

variable {scopes : ScopeStack} {events : List ScopeEvent} {event : ScopeEvent}
variable {port : PortId} {var : VarId} {k m inside : ℕ}

/-- What an event makes of a stack of frames.  The root frame is never closed. -/
def next (scopes : ScopeStack) : ScopeEvent → ScopeStack
  | .opened => scopes.push
  | .closed => scopes.pop?.getD scopes
  | .bound port var => scopes.bind port var

/-- What a list of events makes of a stack of frames. -/
def replay (scopes : ScopeStack) (events : List ScopeEvent) : ScopeStack := events.foldl next scopes

@[simp] lemma replay_nil (scopes : ScopeStack) : scopes.replay [] = scopes := rfl

@[simp] lemma replay_cons (scopes : ScopeStack) (event : ScopeEvent) (events : List ScopeEvent) :
    scopes.replay (event :: events) = (scopes.next event).replay events := rfl

lemma replay_append (scopes : ScopeStack) (events rest : List ScopeEvent) :
    scopes.replay (events ++ rest) = (scopes.replay events).replay rest :=
  List.foldl_append

/-- The variable that a port is bound to in the frame that has the given number of frames inside. -/
def lookupAt (scopes : ScopeStack) (inside : ℕ) (port : PortId) : Option VarId :=
  scopes.frames[inside]?.bind fun frame => frame.lookup port

/-- The number of frames inside the innermost frame that binds a port. -/
def binder? (scopes : ScopeStack) (port : PortId) : Option ℕ :=
  scopes.frames.findIdx? fun frame => (frame.lookup port).isSome

/-- A lookup finds what a port is bound to in the innermost frame that binds it. -/
lemma lookup_eq_some_iff : scopes.lookup port = some var ↔
    ∃ inside, scopes.lookupAt inside port = some var ∧
      ∀ other < inside, scopes.lookupAt other port = none := by
  rw [lookup, List.findSome?_eq_some_iff]
  constructor
  · rintro ⟨inner, frame, outer, hframes, hframe, hinner⟩
    refine ⟨inner.length, ?_, fun other hlt => ?_⟩
    · rw [lookupAt, hframes, List.getElem?_append_right le_rfl, Nat.sub_self]
      exact hframe
    · rw [lookupAt, hframes, List.getElem?_append_left hlt, List.getElem?_eq_getElem hlt]
      exact hinner _ (List.getElem_mem hlt)
  · rintro ⟨inside, hinside, hother⟩
    obtain ⟨frame, hframe, hvar⟩ := Option.bind_eq_some_iff.mp hinside
    obtain ⟨hlt, rfl⟩ := List.getElem?_eq_some_iff.mp hframe
    refine ⟨scopes.frames.take inside, _, scopes.frames.drop (inside + 1), ?_, hvar,
      fun frame hmem => ?_⟩
    · rw [List.cons_getElem_drop_succ, List.take_append_drop]
    · obtain ⟨other, hlt', rfl⟩ := List.getElem_of_mem hmem
      have hnone := hother other ((List.length_take ▸ hlt').trans_le (min_le_left _ _))
      rw [List.length_take] at hlt'
      rw [lookupAt, List.getElem?_eq_getElem (hlt'.trans_le (min_le_right _ _))] at hnone
      rw [List.getElem_take]
      exact hnone

lemma lookupAt_of_lt (h : k < scopes.frames.length) :
    scopes.lookupAt k port = scopes.frames[k].lookup port := by
  rw [lookupAt, List.getElem?_eq_getElem h, Option.bind_some]

lemma binder?_eq_some (h : scopes.binder? port = some k) :
    k ≤ scopes.outer.length ∧ ∀ other < k, scopes.lookupAt other port = none := by
  obtain ⟨hlt, -, hother⟩ := List.findIdx?_eq_some_iff_getElem.mp h
  refine ⟨Nat.le_of_lt_succ hlt, fun other hless => ?_⟩
  rw [lookupAt_of_lt (hless.trans hlt)]
  simpa using hother other hless

/-! ## Frames that stay -/

lemma length_outer_replay (h : level scopes.outer.length events = some m) :
    (scopes.replay events).outer.length = m := by
  induction events generalizing scopes with
  | nil => exact Option.some.inj h
  | cons event events ih =>
    cases event with
    | opened =>
      show (scopes.push.replay events).outer.length = m
      exact ih h
    | bound port var =>
      show ((scopes.bind port var).replay events).outer.length = m
      exact ih h
    | closed =>
      obtain ⟨innermost, outer⟩ := scopes
      cases outer with
      | nil => cases h
      | cons frame outer =>
        show ((⟨frame, outer⟩ : ScopeStack).replay events).outer.length = m
        exact ih h

/-- The frames outside a frame that stays are left alone. -/
lemma drop_frames_replay (h : level k events = some m) (hk : k ≤ scopes.outer.length) :
    (scopes.replay events).frames.drop (m + 1) = scopes.frames.drop (k + 1) := by
  induction events generalizing scopes k with
  | nil =>
    obtain rfl : k = m := Option.some.inj h
    rfl
  | cons event events ih =>
    cases event with
    | opened =>
      show (scopes.push.replay events).frames.drop (m + 1) = scopes.push.frames.drop (k + 1 + 1)
      exact ih h (Nat.succ_le_succ hk)
    | bound port var =>
      show ((scopes.bind port var).replay events).frames.drop (m + 1) =
        (scopes.bind port var).frames.drop (k + 1)
      exact ih h hk
    | closed =>
      obtain ⟨innermost, outer⟩ := scopes
      cases k with
      | zero => cases h
      | succ k =>
        cases outer with
        | nil => cases hk
        | cons frame outer =>
          show ((⟨frame, outer⟩ : ScopeStack).replay events).frames.drop (m + 1) =
            (⟨frame, outer⟩ : ScopeStack).frames.drop (k + 1)
          exact ih h (Nat.le_of_succ_le_succ hk)

/-! ## Lookups -/

/-- Opening or closing a frame moves the other frames, and a binding only concerns its own port in
the innermost frame. -/
lemma lookupAt_next_eq_some_iff (h : event = .closed → scopes.outer ≠ []) :
    (scopes.next event).lookupAt inside port = some var ↔
      inside = 0 ∧ event = .bound port var ∨
        (∀ other, ¬ (inside = 0 ∧ event = .bound port other)) ∧
          ∃ m, level m [event] = some inside ∧ scopes.lookupAt m port = some var := by
  obtain ⟨innermost, outer⟩ := scopes
  cases event with
  | opened =>
    cases inside with
    | zero => simp [next, push, lookupAt, frames, Frame.lookup]
    | succ inside => simp [next, push, lookupAt, frames]
  | closed =>
    cases outer with
    | nil => exact absurd rfl (h rfl)
    | cons frame outer =>
      have hlevel : ∀ m, level m [.closed] = some inside ↔ m = inside + 1 := by
        rintro (- | m) <;> simp
      simp [next, pop?, lookupAt, frames, hlevel]
  | bound own value =>
    cases inside with
    | succ inside => simp [next, bind, lookupAt, frames]
    | zero =>
      by_cases heq : own = port
      · subst heq
        simp [next, bind, lookupAt, frames, Frame.lookup]
      · simp [next, bind, lookupAt, frames, Frame.lookup, heq]

/-- What a port is bound to in a frame: the latest of the bindings made on the way, and if there are
none and the frame was there before, what it was bound to in it then. -/
lemma lookupAt_replay_eq_some_iff (hroot : (level scopes.outer.length events).isSome) :
    (scopes.replay events).lookupAt inside port = some var ↔
      LatestIn events inside port var ∨
        (∀ i other, ¬ Stands events i inside port other) ∧
          ∃ k, level k events = some inside ∧ scopes.lookupAt k port = some var := by
  -- the last event acts on the stack that the others have left, so they are taken off at the end
  induction events using List.reverseRecOn generalizing inside var with
  | nil =>
    have hnone : ∀ i other, ¬ Stands [] i inside port other := fun i other h => by
      simpa using h.lt_length
    have hlatest : ¬ LatestIn [] inside port var := fun ⟨i, h, _⟩ => hnone i var h
    simp [hlatest, hnone]
  | append_singleton events event ih =>
    obtain ⟨last, hlast⟩ := Option.isSome_iff_exists.mp hroot
    obtain ⟨root, hlevel, hmoved⟩ := level_append_eq_some.mp hlast
    have hclosed : event = .closed → (scopes.replay events).outer ≠ [] := by
      intro hevent hnil
      rw [← length_outer_replay hlevel, hnil, hevent] at hmoved
      cases hmoved
    rw [replay_append, replay_cons, replay_nil, lookupAt_next_eq_some_iff hclosed]
    by_cases hown : ∃ other, inside = 0 ∧ event = .bound port other
    -- the event binds the port in this frame, and hides what was bound there before
    · obtain ⟨other, rfl, rfl⟩ := hown
      have hlast : Stands (events ++ [.bound port other]) events.length 0 port other :=
        stands_concat.mpr (.inr ⟨rfl, rfl, rfl⟩)
      rw [latestIn_concat_bound]
      constructor
      · rintro (⟨-, hbound⟩ | ⟨hne, -⟩)
        · exact .inl (ScopeEvent.bound.inj hbound).2.symm
        · exact absurd ⟨rfl, rfl⟩ (hne other)
      · rintro (rfl | ⟨hnone, -⟩)
        · exact .inl ⟨rfl, rfl⟩
        · exact absurd hlast (hnone _ _)
    · have hne : ∀ other, ¬ (inside = 0 ∧ event = .bound port other) := not_exists.mp hown
      rw [or_iff_right (hne var), and_iff_right hne]
      by_cases hm : ∃ m, level m [event] = some inside
      -- the frame was there before the event, with `m` frames inside
      · obtain ⟨m, hm⟩ := hm
        have hunique : ∀ P : ℕ → Prop, (∃ m', level m' [event] = some inside ∧ P m') ↔ P m :=
          fun P => ⟨fun ⟨m', hm', h⟩ => eq_of_level_eq hm' hm ▸ h, fun h => ⟨m, hm, h⟩⟩
        have hbefore : ∀ k, level k (events ++ [event]) = some inside ↔ level k events = some m :=
          fun k => level_append_eq_some.trans <| (exists_congr fun _ => and_comm).trans <| hunique _
        rw [hunique, ih (hlevel ▸ rfl)]
        simp only [LatestIn, stands_concat_of_ne hne hm, hbefore]
      -- the frame has been opened by the event
      · refine iff_of_false (fun ⟨m, h, _⟩ => hm ⟨m, h⟩) ?_
        rintro (⟨i, hstands, -⟩ | ⟨-, k, hk, -⟩)
        · rcases stands_concat.mp hstands with ⟨m, h, -⟩ | ⟨-, hinside, hbound⟩
          · exact hm ⟨m, h⟩
          · exact hne var ⟨hinside, hbound⟩
        · obtain ⟨m, -, h⟩ := level_append_eq_some.mp hk
          exact hm ⟨m, h⟩

/-- Whatever frame is at least as far outside as one that stays, stays. -/
lemma level_root (h : level k events = some m) (hk : k ≤ scopes.outer.length) :
    (level scopes.outer.length events).isSome :=
  Option.isSome_iff_exists.mpr ⟨_, level_of_le h hk⟩

/-- A binding that governs is found. -/
lemma lookup_replay_of_governs (hroot : (level scopes.outer.length events).isSome)
    (h : Governs events port var) : (scopes.replay events).lookup port = some var := by
  obtain ⟨i, inside, hstands, hfirst⟩ := h
  refine lookup_eq_some_iff.mpr ⟨inside, ?_, fun other hlt => ?_⟩
  · refine (lookupAt_replay_eq_some_iff hroot).mpr (.inl ⟨i, hstands, fun i' var' hother => ?_⟩)
    rcases hfirst i' inside var' hother with hlt | ⟨-, hle⟩
    · exact absurd hlt (lt_irrefl _)
    · exact hle
  · rw [Option.eq_none_iff_forall_ne_some]
    intro var' hvar'
    rcases (lookupAt_replay_eq_some_iff hroot).mp hvar' with ⟨i', hother, -⟩ | ⟨-, k, hk, -⟩
    · rcases hfirst i' other var' hother with hless | ⟨heq, -⟩
      · exact absurd hless (lt_asymm hlt)
      · exact absurd heq hlt.ne'
    · exact absurd (hstands.le_of_level hk) (not_le.mpr hlt)

/-- If no binding made on the way stands, a lookup finds what it found before, as long as the frame
where it found it has stayed. -/
lemma lookup_replay_of_unbound (h : Unbound events port) (hlevel : level k events = some m)
    (hk : k ≤ scopes.outer.length) (hnone : ∀ other < k, scopes.lookupAt other port = none) :
    (scopes.replay events).lookup port = scopes.lookup port := by
  have hframe : ∀ {inside var}, (scopes.replay events).lookupAt inside port = some var ↔
      ∃ k, level k events = some inside ∧ scopes.lookupAt k port = some var := by
    intro inside var
    rw [lookupAt_replay_eq_some_iff (level_root hlevel hk)]
    have hlatest : ¬ LatestIn events inside port var := fun ⟨i, hi, _⟩ => h i inside var hi
    rw [or_iff_right hlatest, and_iff_right fun i other => h i inside other]
  ext var
  rw [lookup_eq_some_iff, lookup_eq_some_iff]
  constructor
  · rintro ⟨inside, hinside, hother⟩
    obtain ⟨k', hk', hvar⟩ := hframe.mp hinside
    refine ⟨k', hvar, fun other hlt => ?_⟩
    by_cases hless : other < k
    · exact hnone other hless
    -- a frame between the one that stays and the one where the port is found has stayed as well
    · have hlevel' := level_of_le hlevel (not_lt.mp hless)
      have hbelow : m + (other - k) < inside := by
        have hadd := (level_of_le hlevel' hlt.le).symm.trans hk'
        rw [Option.some.injEq] at hadd
        omega
      rw [Option.eq_none_iff_forall_ne_some]
      intro var' hvar'
      have hfound := hframe.mpr ⟨other, hlevel', hvar'⟩
      rw [hother _ hbelow] at hfound
      cases hfound
  · rintro ⟨k', hvar, hother⟩
    have hle : k ≤ k' := by
      by_contra hlt
      rw [hnone k' (not_le.mp hlt)] at hvar
      cases hvar
    have hlevel' := level_of_le hlevel hle
    refine ⟨_, hframe.mpr ⟨k', hlevel', hvar⟩, fun other hlt => ?_⟩
    rw [Option.eq_none_iff_forall_ne_some]
    intro var' hvar'
    obtain ⟨k'', hk'', hfound⟩ := hframe.mp hvar'
    rw [hother k'' (lt_of_level_lt hlevel' hk'' hlt)] at hfound
    cases hfound

/-- As long as no frame is closed that was there before, a lookup finds the binding made on the way
that governs, and if none of them stands, what it found before. -/
theorem lookup_replay_eq_some_iff (hlevel : level 0 events = some m) :
    (scopes.replay events).lookup port = some var ↔
      Governs events port var ∨ Unbound events port ∧ scopes.lookup port = some var := by
  have hroot : (level scopes.outer.length events).isSome := level_root hlevel (Nat.zero_le _)
  have hbefore (h : Unbound events port) :
      (scopes.replay events).lookup port = scopes.lookup port :=
    lookup_replay_of_unbound h hlevel (Nat.zero_le _) fun _ hlt => absurd hlt (Nat.not_lt_zero _)
  constructor
  · intro hvar
    by_cases hunbound : Unbound events port
    · exact .inr ⟨hunbound, hbefore hunbound ▸ hvar⟩
    · simp only [Unbound, not_forall, not_not] at hunbound
      obtain ⟨i, inside, other, hstands⟩ := hunbound
      obtain ⟨other, hgoverns⟩ := hstands.exists_governs
      rw [lookup_replay_of_governs hroot hgoverns, Option.some.injEq] at hvar
      exact .inl (hvar ▸ hgoverns)
  · rintro (hgoverns | ⟨hunbound, hvar⟩)
    · exact lookup_replay_of_governs hroot hgoverns
    · rwa [hbefore hunbound]

end ScopeStack
end Dataflow
