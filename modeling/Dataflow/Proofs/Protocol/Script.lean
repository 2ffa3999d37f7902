import Dataflow.Backend.Recorder
import Dataflow.Proofs.Compiler.Invariant

/-!
# Working from a script

A recorder logs what a compiler asks of a backend, and may make any request fail.  What will be
asked can be written down beforehand, as a list of cues (`Cue`): whatever fails, the compiler works
the script off from the front, and stops at the first request that fails (`Follows`).

Lowering a node has such a script, which depends on what the compiler looks at and on the number of
variables, and neither on the backend nor on what the recorder does (`Scripted`).  For that the
backend has to number variables one by one (`Backend.Counts`).
-/

namespace Dataflow

open Attempt Renames Assembler

/-- A backend that adds a variable when one is declared, and else keeps their number. -/
structure Backend.Counts (β : Type) [Backend β] : Prop where
  declare : ∀ spec (b : β),
    (Backend.vars (Backend.declare spec b)).size = (Backend.vars b).size + 1
  serve : ∀ (request : Request) (b : β),
    (Backend.vars (request.serve.after b)).size = (Backend.vars b).size
  mergeRegion : ∀ node (b : β),
    (Backend.vars (Backend.mergeRegion node b).2).size = (Backend.vars b).size
  notify : ∀ notice (b : β),
    (Backend.vars (Backend.notify notice b)).size = (Backend.vars b).size

lemma Assembler.counts : Backend.Counts Assembler where
  declare spec a := VariableTable.size_declare a.vars spec
  serve request a := by
    have hkeeps : Keeps (fun b : Assembler => b.vars.size = a.vars.size) Unit request.serve := by
      cases request with
      | allocate var =>
        refine .ofChange fun b c hb hnext => ?_
        obtain ⟨_, -, -, -, rfl⟩ := allocate_eq_ok.mp hnext
        exact (b.vars.size_setAllocated var true).trans hb
      | beginFunction name parameters =>
        refine .ofChange fun b c hb hnext => ?_
        obtain ⟨-, -, _, -, rfl⟩ := beginFunction_eq_ok.mp hnext
        exact hb
      | openRegion node =>
        refine .ofChange fun b c hb hnext => ?_
        obtain ⟨_, _, -, -, rfl⟩ := openRegion_eq_ok.mp hnext
        exact hb
      | emit instruction =>
        refine .ofChange fun b c hb hnext => ?_
        obtain ⟨-, _, _, -, -, rfl⟩ := emit_eq_ok.mp hnext
        exact hb
      | endFunction =>
        refine .ofChange fun b c hb hnext => ?_
        obtain ⟨_, -, rfl⟩ := endFunction_eq_ok.mp hnext
        exact hb
    exact hkeeps a rfl
  mergeRegion node a := by
    show (a.accept (a.mergeRegion? node)).2.vars.size = _
    cases hnext : a.mergeRegion? node with
    | none => rfl
    | some next =>
      obtain ⟨_, _, _, -, -, -, rfl⟩ := mergeRegion?_eq_some.mp hnext
      rfl
  notify _ _ := rfl

/-! ## Logs -/

/-- An entry of a log without the answer. -/
def Event.asked : Event → Event
  | .request asked _ => .request asked false
  | .merge node _ => .merge node true
  | .mergeInto target source _ => .mergeInto target source true
  | .notice news => .notice news
  | .discard => .discard

/-- An entry that is to be expected in a log, and on whose behalf it is made. -/
structure Cue where
  /-- The entry, without an answer. -/
  event : Event
  /-- The node, parameter or function that a failure is put down to. -/
  origin : String
deriving DecidableEq, Repr

namespace Cue

/-- A request that may fail. -/
def ask (request : Request) (origin : String) : Cue := ⟨.request request false, origin⟩

/-- A notice. -/
def tell (milestone : Milestone) (subject function : String) : Cue :=
  ⟨.notice ⟨milestone, subject, function⟩, ""⟩

/-- Whether something is asked that may fail. -/
def mayFail (cue : Cue) : Bool := cue.event matches .request ..

end Cue

namespace Recorder

variable {β : Type}

/-- What has been asked and told. -/
def asked (recorder : Recorder β) : List Event := recorder.events.toList.map Event.asked

@[simp] lemma asked_record (recorder : Recorder β) (event : Event) :
    (recorder.record event).asked = recorder.asked ++ [event.asked] := by
  simp [asked, record]

/-- A script has been worked off.  The recorder has made none of the requests fail. -/
structure Granted (before : Recorder β) (script : List Cue) (after : Recorder β) : Prop where
  log : after.asked = before.asked ++ script.map Cue.event
  requests : after.requests = before.requests + script.countP Cue.mayFail
  interference : after.interference = before.interference
  granted : ∀ i, before.requests ≤ i → i < after.requests → before.interference.failure i = none

/-- A request has been made and has failed, because of the recorder or of the backend inside. -/
structure Refused [Backend β] (before : Recorder β) (request : Request) (e : CompileError)
    (after : Recorder β) : Prop where
  log : after.asked = before.asked ++ [.request request false]
  cause : before.interference.failure before.requests = some e ∨
    before.interference.failure before.requests = none ∧
      ∃ b, request.serve b = .error e after.inner

namespace Granted

variable {a b c : Recorder β} {script script' : List Cue}

lemma refl (a : Recorder β) : a.Granted [] a :=
  ⟨by simp, rfl, rfl, fun _ hle hlt => absurd (hle.trans_lt hlt) (lt_irrefl _)⟩

lemma trans (hab : a.Granted script b) (hbc : b.Granted script' c) :
    a.Granted (script ++ script') c where
  log := by rw [hbc.log, hab.log, List.map_append, List.append_assoc]
  requests := by rw [hbc.requests, hab.requests, List.countP_append, Nat.add_assoc]
  interference := hbc.interference.trans hab.interference
  granted i hle hlt := by
    rcases Nat.lt_or_ge i b.requests with hi | hi
    · exact hab.granted i hle hi
    · have hnone := hbc.granted i hi hlt
      rwa [hab.interference] at hnone

/-- Nothing has been asked or told. -/
lemma quiet (hlog : b.asked = a.asked) (hrequests : b.requests = a.requests)
    (hinterference : b.interference = a.interference) : a.Granted [] b where
  log := by simp [hlog]
  requests := hrequests
  interference := hinterference
  granted i hle hlt := absurd (hle.trans_lt (hrequests ▸ hlt)) (lt_irrefl _)

/-- It does not matter on whose behalf requests are made that do not fail. -/
lemma restate {work : List Request} {origin : String} (h : a.Granted (work.map (.ask · origin)) b)
    (origin' : String) : a.Granted (work.map (.ask · origin')) b where
  log := by
    rw [h.log, List.map_map, List.map_map]
    rfl
  requests := by
    rw [h.requests, List.countP_map, List.countP_map]
    rfl
  interference := h.interference
  granted := h.granted

/-- Something is logged that cannot fail. -/
lemma entry {cue : Cue} (hcue : cue.mayFail = false) (hlog : b.asked = a.asked ++ [cue.event])
    (hrequests : b.requests = a.requests) (hinterference : b.interference = a.interference) :
    a.Granted [cue] b where
  log := hlog
  requests := by simp [hrequests, hcue]
  interference := hinterference
  granted i hle hlt := absurd (hle.trans_lt (hrequests ▸ hlt)) (lt_irrefl _)

end Granted

/-- The recorder when a request has been logged. -/
def noted (recorder : Recorder β) (request : Request) (failed : Bool) : Recorder β :=
  { recorder.record (.request request failed) with requests := recorder.requests + 1 }

/-- What becomes of a request. -/
lemma pass_cases [Backend β] (request : Request) (origin : String) (recorder : Recorder β) :
    (∃ next, pass request recorder = .ok () next ∧ recorder.Granted [.ask request origin] next ∧
      next.inner = request.serve.after recorder.inner) ∨
    ∃ e next, pass request recorder = .error e next ∧ recorder.Refused request e next := by
  have hrun : pass request recorder = (recorder.interference.failure recorder.requests).elim
      ((request.serve.zoom inner fun inner recorder => { recorder with inner })
        (recorder.noted request false))
      fun e => .error e (recorder.noted request true) := by
    rw [pass, bind_run]
    simp only [get_run]
    cases recorder.interference.failure recorder.requests <;> rfl
  rw [hrun]
  cases hfailure : recorder.interference.failure recorder.requests with
  | some e => exact .inr ⟨e, _, rfl, asked_record recorder _, .inl hfailure⟩
  | none =>
    have hinner : (recorder.noted request false).inner = recorder.inner := rfl
    simp only [Option.elim_none, zoom, hinner]
    cases hserve : request.serve recorder.inner with
    | ok _ next =>
      refine .inl ⟨{ recorder.noted request false with inner := next }, rfl,
        ⟨asked_record recorder _, rfl, rfl, fun i hle hlt => ?_⟩, ?_⟩
      · rwa [Nat.le_antisymm (Nat.lt_succ_iff.mp hlt) hle]
      · rw [after, hserve]
    | error e next =>
      exact .inr ⟨e, { recorder.noted request false with inner := next }, rfl,
        asked_record recorder _, .inr ⟨hfailure, recorder.inner, hserve⟩⟩

/-- A request to merge never fails. -/
lemma merge_granted [Backend β] (hβ : Backend.Counts β) (node : NodeId) (recorder : Recorder β) :
    recorder.Granted [⟨.merge node true, ""⟩]
        (recorder.merge (Backend.mergeRegion node) (.merge node)).2 ∧
      (Backend.vars (recorder.merge (Backend.mergeRegion node) (.merge node)).2).size =
        (Backend.vars recorder).size := by
  refine ⟨.entry rfl (asked_record recorder _) rfl rfl, ?_⟩
  have hinner : (recorder.merge (Backend.mergeRegion node) (.merge node)).2.inner =
      (if recorder.interference.refusal recorder.merges then (false, recorder.inner)
        else Backend.mergeRegion node recorder.inner).2 := rfl
  show (Backend.vars (recorder.merge _ _).2.inner).size = (Backend.vars recorder.inner).size
  rw [hinner]
  split
  · rfl
  · exact hβ.mergeRegion node recorder.inner

end Recorder

/-! ## Following a script -/

/-- A request that is made for a node. -/
def Request.OfNode : Request → Prop
  | .allocate _ | .emit _ => True
  | .beginFunction .. | .openRegion _ | .endFunction => False

lemma CompileError.withOrigin_empty (e : CompileError) : e.withOrigin "" = e := by
  cases e with
  | structural | unboundReference => rfl
  | backend origin fault =>
    rw [withOrigin]
    split
    · next h => rw [h]
    · rfl

lemma CompileError.origin_withOrigin {e : CompileError} {name origin : String}
    {cause : BackendFault} (hname : name ≠ "") (h : e.withOrigin name = .backend origin cause) :
    origin ≠ "" := by
  cases e with
  | structural | unboundReference => cases h
  | backend first fault =>
    rw [withOrigin] at h
    split at h
    · cases h
      exact hname
    · next hfirst =>
      cases h
      exact hfirst

namespace Compiler

variable {β : Type} [Backend β] {α γ : Type}

/-- What compiling depends on: what the compiler looks at, and the number of variables. -/
structure Sees (seen : Compiler Unit) (count : ℕ) (c : Compiler (Recorder β)) : Prop where
  view : c.view = seen
  count : c.vars.size = count

/-- Two states of one compiler during one compilation. -/
structure Kin (c d : Compiler (Recorder β)) : Prop where
  options : d.options = c.options
  function : d.session.currentFunction = c.session.currentFunction

/-- How a run that goes by a script may end, if the script leads to certain results or to an error
by itself. -/
inductive Follows (c : Compiler (Recorder β)) (script : List Cue) :
    Except CompileError (α → Compiler (Recorder β) → Prop) →
      EStateM.Result CompileError (Compiler (Recorder β)) α → Prop
  /-- The script has been worked off, with a result that is expected. -/
  | done {Q : α → Compiler (Recorder β) → Prop} {a : α} {d : Compiler (Recorder β)} :
    c.backend.Granted script d.backend → Kin c d → Q a d → Follows c script (.ok Q) (.ok a d)
  /-- The script has been worked off up to the error that it leads to. -/
  | stopped {e : CompileError} {d : Compiler (Recorder β)} :
    c.backend.Granted script d.backend → Follows c script (.error e) (.error e d)
  /-- A request has failed. -/
  | refused {ending : Except CompileError (α → Compiler (Recorder β) → Prop)}
      {before after : List Cue} {request : Request} {origin : String} {e : CompileError}
      {reached : Recorder β} {d : Compiler (Recorder β)} :
    script = before ++ .ask request origin :: after → c.backend.Granted before reached →
      reached.Refused request e d.backend →
      Follows c script ending (.error (e.withOrigin origin) d)

variable {c d : Compiler (Recorder β)} {seen : Compiler Unit} {count : ℕ}

namespace Follows

variable {script script' : List Cue} {x : Attempt (Compiler (Recorder β)) α}
variable {f : α → Attempt (Compiler (Recorder β)) γ} {Q : α → Compiler (Recorder β) → Prop}

/-- One script after another. -/
lemma bind {ending : Except CompileError (γ → Compiler (Recorder β) → Prop)}
    (hx : Follows c script (.ok Q) (x c))
    (hf : ∀ a d, Kin c d → Q a d → Follows d script' ending (f a d)) :
    Follows c (script ++ script') ending ((x >>= f) c) := by
  rw [bind_run]
  generalize x c = result at hx ⊢
  cases hx with
  | @done _ a d hgranted hkin hq =>
    have hnext := hf a d hkin hq
    simp only
    generalize f a d = result at hnext ⊢
    cases hnext with
    | done hgranted' hkin' hq' =>
      exact .done (hgranted.trans hgranted')
        ⟨hkin'.options.trans hkin.options, hkin'.function.trans hkin.function⟩ hq'
    | stopped hgranted' => exact .stopped (hgranted.trans hgranted')
    | refused hscript hgranted' hrefused =>
      exact .refused (by rw [hscript, List.append_assoc]) (hgranted.trans hgranted') hrefused
  | refused hscript hgranted hrefused =>
    exact .refused (by rw [hscript, List.append_assoc, List.cons_append]) hgranted hrefused

/-- Before the script begins, something happens that is not logged. -/
lemma quiet_bind {ending : Except CompileError (γ → Compiler (Recorder β) → Prop)}
    (hx : Follows c [] (.ok Q) (x c))
    (hf : ∀ a d, Kin c d → Q a d → Follows d script ending (f a d)) :
    Follows c script ending ((x >>= f) c) :=
  List.nil_append script ▸ hx.bind hf

/-- After the script is over, something happens that is not logged. -/
lemma bind_quiet {ending : Except CompileError (γ → Compiler (Recorder β) → Prop)}
    (hx : Follows c script (.ok Q) (x c))
    (hf : ∀ a d, Kin c d → Q a d → Follows d [] ending (f a d)) :
    Follows c script ending ((x >>= f) c) :=
  List.append_nil script ▸ hx.bind hf

/-- A script that leads to an error is not continued. -/
lemma bind_stopped {e : CompileError} (hx : Follows c script (.error e) (x c)) :
    Follows c script (.error e) ((x >>= f) c) := by
  rw [bind_run]
  generalize x c = result at hx ⊢
  cases hx with
  | stopped hgranted => exact .stopped hgranted
  | refused hscript hgranted hrefused => exact .refused hscript hgranted hrefused

lemma mono {R : α → Compiler (Recorder β) → Prop}
    {result : EStateM.Result CompileError (Compiler (Recorder β)) α}
    (h : Follows c script (.ok Q) result) (hqr : ∀ a d, Kin c d → Q a d → R a d) :
    Follows c script (.ok R) result := by
  cases h with
  | done hgranted hkin hq => exact .done hgranted hkin (hqr _ _ hkin hq)
  | refused hscript hgranted hrefused => exact .refused hscript hgranted hrefused

/-- A failure is what the script leads to, or that of a request. -/
lemma error_cases {ending : Except CompileError (α → Compiler (Recorder β) → Prop)}
    {e : CompileError} (h : Follows c script ending (.error e d)) :
    ending = .error e ∧ c.backend.Granted script d.backend ∨
      ∃ before request origin after middle error,
        script = before ++ .ask request origin :: after ∧ c.backend.Granted before middle ∧
        middle.Refused request error d.backend ∧ e = error.withOrigin origin := by
  cases h with
  | stopped hgranted => exact .inl ⟨rfl, hgranted⟩
  | refused hscript hgranted hrefused =>
    exact .inr ⟨_, _, _, _, _, _, hscript, hgranted, hrefused, rfl⟩

lemma pure {a : α} (h : Q a c) : Follows c [] (.ok Q)
    ((Pure.pure a : Attempt (Compiler (Recorder β)) α) c) :=
  .done (.refl _) ⟨rfl, rfl⟩ h

lemma modify {change : Compiler (Recorder β) → Compiler (Recorder β)}
    (hbackend : c.backend.Granted script (change c).backend) (hkin : Kin c (change c)) :
    Follows c script (.ok fun _ d => d = change c)
      ((modify change : Attempt (Compiler (Recorder β)) Unit) c) :=
  .done hbackend hkin rfl

/-- Failures of requests are put down to somebody. -/
lemma onBehalfOf {work : List Request}
    {ending : Except CompileError (α → Compiler (Recorder β) → Prop)}
    (hx : Follows c (work.map (.ask · "")) ending (x c)) (hending : GraphCheck ending)
    (name : String) : Follows c (work.map (.ask · name)) ending (x.onBehalfOf name c) := by
  unfold Attempt.onBehalfOf
  generalize x c = result at hx ⊢
  cases hx with
  | done hgranted hkin hq => exact .done (hgranted.restate name) hkin hq
  | @stopped e d hgranted =>
    simp only [(hending e rfl).withOrigin_eq]
    exact .stopped (hgranted.restate name)
  | @refused _ before after request origin e reached d hscript hgranted hrefused =>
    obtain ⟨asked, rest, rfl, rfl, hrest⟩ := List.map_eq_append_iff.mp hscript
    obtain ⟨first, later, rfl, hfirst, rfl⟩ := List.map_eq_cons_iff.mp hrest
    obtain ⟨hrequest, rfl⟩ := Cue.mk.inj hfirst
    obtain ⟨rfl, -⟩ := Event.request.inj hrequest
    simp only [CompileError.withOrigin_empty]
    have hscript' : (asked ++ first :: later).map (Cue.ask · name) =
        asked.map (Cue.ask · name) ++ Cue.ask first name :: later.map (Cue.ask · name) := by
      rw [List.map_append, List.map_cons]
    exact .refused hscript' (hgranted.restate name) hrefused

end Follows

/-! ## Steps -/

section

variable (hβ : Backend.Counts β)

include hβ

lemma request_follows (hc : Sees seen count c) (request : Request) :
    Follows c [.ask request ""] (.ok fun _ d => Sees seen count d)
      (onBackend (Recorder.pass request) c) := by
  rw [onBackend, zoom]
  rcases c.backend.pass_cases request "" with
    ⟨next, hrun, hgranted, hinner⟩ | ⟨e, next, hrun, hrefused⟩
  · rw [hrun]
    refine .done hgranted ⟨rfl, rfl⟩ ⟨hc.view, ?_⟩
    show (Backend.vars next.inner).size = count
    rw [hinner, hβ.serve]
    exact hc.count
  · rw [hrun, ← e.withOrigin_empty]
    exact .refused (List.nil_append _).symm (.refl _) hrefused

lemma allocate_follows (hc : Sees seen count c) (spec : VariableSpec) :
    Follows c [.ask (.allocate ⟨count⟩) ""] (.ok fun id d => id = ⟨count⟩ ∧ Sees seen (count + 1) d)
      (allocate spec c) := by
  have hnext : c.vars.next = ⟨count⟩ := congrArg VarId.mk hc.count
  have hrun : allocate spec c = (do
      modify fun compiler : Compiler (Recorder β) =>
        { compiler with backend := Backend.declare spec compiler.backend }
      onBackend (Recorder.pass (.allocate ⟨count⟩))
      Compiler.count Statistics.variableAllocated
      return (⟨count⟩ : VarId)) c := by
    rw [allocate, bind_run, get_run]
    simp only [hnext]
    rfl
  rw [hrun]
  refine (Follows.modify (.quiet rfl rfl rfl) ⟨rfl, rfl⟩).quiet_bind ?_
  rintro - d - rfl
  have hdeclared : Sees seen (count + 1)
      { c with backend := Backend.declare spec c.backend } :=
    ⟨hc.view, (hβ.declare spec c.backend.inner).trans (congrArg (· + 1) hc.count)⟩
  refine (request_follows hβ hdeclared _).bind_quiet ?_
  rintro - d - hd
  refine (Follows.modify (.refl _) ⟨rfl, rfl⟩).quiet_bind ?_
  rintro - _ - rfl
  exact .pure ⟨rfl, hd.view, hd.count⟩

lemma emit_follows (hc : Sees seen count c) (instruction : Instruction) :
    Follows c [.ask (.emit instruction) ""] (.ok fun _ d => Sees seen count d)
      (emit instruction c) := by
  refine (Follows.modify (.refl _) ⟨rfl, rfl⟩).quiet_bind ?_
  rintro - _ - rfl
  have hcounted : Sees seen count
      { c with session := c.session.count Statistics.instructionEmitted } := ⟨hc.view, hc.count⟩
  exact request_follows hβ hcounted _

end

/-! ## Lowering -/

/-- The given result, at a compiler that sees what is given. -/
def Arrives (expected : α × Compiler Unit × ℕ) (a : α) (d : Compiler (Recorder β)) : Prop :=
  a = expected.1 ∧ Sees expected.2.1 expected.2.2 d

/-- An attempt goes by a script of requests for one node, which depends only on what the compiler
sees. -/
def Scripted (x : Attempt (Compiler (Recorder β)) α) : Prop :=
  ∀ (seen : Compiler Unit) (count : ℕ), ∃ (work : List Request)
    (ending : Except CompileError (α × Compiler Unit × ℕ)), (∀ request ∈ work, request.OfNode) ∧
      GraphCheck ending ∧ ∀ c : Compiler (Recorder β), Sees seen count c →
        Follows c (work.map (.ask · "")) (ending.map Arrives) (x c)

namespace Scripted

variable {x : Attempt (Compiler (Recorder β)) α} {f : α → Attempt (Compiler (Recorder β)) γ}

/-- One request. -/
lemma ofRequest (request : ℕ → Request) (expected : Compiler Unit → ℕ → α × Compiler Unit × ℕ)
    (hrequest : ∀ count, (request count).OfNode)
    (hx : ∀ {seen count c}, Sees seen count c →
      Follows c [.ask (request count) ""] (.ok (Arrives (expected seen count))) (x c)) :
    Scripted x :=
  fun seen count => ⟨[request count], .ok (expected seen count), by simpa using hrequest count,
    .ok _, fun _ hc => hx hc⟩

lemma bind (hx : Scripted x) (hf : ∀ a, Scripted (f a)) : Scripted (x >>= f) := by
  intro seen count
  obtain ⟨work, ending, hwork, hending, hfollows⟩ := hx seen count
  cases ending with
  | error e =>
    exact ⟨work, .error e, hwork, .error (hending e rfl), fun c hc => (hfollows c hc).bind_stopped⟩
  | ok expected =>
    obtain ⟨a, seen', count'⟩ := expected
    obtain ⟨work', ending', hwork', hending', hfollows'⟩ := hf a seen' count'
    refine ⟨work ++ work', ending', ?_, hending', fun c hc => ?_⟩
    · intro request hrequest
      exact (List.mem_append.mp hrequest).elim (hwork request) (hwork' request)
    · rw [List.map_append]
      refine (hfollows c hc).bind ?_
      rintro _ d - ⟨rfl, hd⟩
      exact hfollows' d hd

lemma ofExcept {x : Except CompileError α} (hx : GraphCheck x) :
    Scripted (MonadExcept.ofExcept x : Attempt (Compiler (Recorder β)) α) := by
  intro seen count
  cases x with
  | error e =>
    exact ⟨[], .error e, fun _ h => absurd h List.not_mem_nil, .error (hx e rfl),
      fun _ _ => .stopped (.refl _)⟩
  | ok a =>
    exact ⟨[], .ok (a, seen, count), fun _ h => absurd h List.not_mem_nil, .ok _,
      fun _ hc => .pure ⟨rfl, hc⟩⟩

lemma look {f : Compiler Unit → Attempt (Compiler (Recorder β)) α}
    (hf : ∀ seen, Scripted (f seen)) :
    Scripted (get >>= fun compiler => f compiler.view) := by
  intro seen count
  obtain ⟨work, ending, hwork, hending, hfollows⟩ := hf seen seen count
  refine ⟨work, ending, hwork, hending, fun c hc => ?_⟩
  rw [bind_run, get_run]
  simp only [hc.view]
  exact hfollows c hc

end Scripted

/-- Lowering any node goes by a script. -/
lemma scripted_congruence (hβ : Backend.Counts β) : LowerCongruence id
    fun α _ (x _ : Attempt (Compiler (Recorder β)) α) => Scripted x where
  pure a seen count := ⟨[], .ok (a, seen, count), fun _ h => absurd h List.not_mem_nil, .ok _,
    fun _ hc => .pure ⟨rfl, hc⟩⟩
  ofExcept := .ofExcept
  bind := .bind
  look {_ _ f _} hf := .look (f := fun seen => f seen.scene) fun seen => hf seen.scene
  elementType site index := .look
    (f := fun seen => MonadExcept.ofExcept (site.inputType seen.options.checkElementTypes index))
    fun _ => .ofExcept (site.inputType_check _ index)
  checkOperands site := .look
    (f := fun seen => MonadExcept.ofExcept (site.checkOperandTypes seen.options.checkElementTypes))
    fun _ => .ofExcept (site.checkOperandTypes_check _)
  allocate spec _ := .ofRequest (fun count => .allocate ⟨count⟩)
    (fun seen count => (⟨count⟩, seen, count + 1)) (fun _ => trivial) fun hc =>
      allocate_follows hβ hc spec
  bindPort port var seen count := by
    refine ⟨[], .ok ((), seen.bindPort port var, count), fun _ h => absurd h List.not_mem_nil,
      .ok _, fun c hc => (Follows.modify (.refl _) ⟨rfl, rfl⟩).mono ?_⟩
    rintro - _ - rfl
    exact ⟨rfl, hc.view ▸ rfl, hc.count⟩
  emit instruction := .ofRequest (fun _ => .emit instruction)
    (fun seen count => ((), seen, count)) (fun _ => trivial) fun hc =>
      (emit_follows hβ hc instruction).mono fun _ _ _ hd => ⟨rfl, hd⟩

end Compiler
end Dataflow
