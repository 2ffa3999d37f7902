import Dataflow.Backend.Basic

/-!
# Recorders

A recorder is a backend that hands every request on to another backend and keeps a log of requests
and notices.  It shows in which order a compiler talks to its backend.  A recorder can also be told
to fail certain requests and to refuse certain merges on its own, which shows what the compiler does
in that case.
-/

namespace Dataflow

/-- A request that may fail. -/
inductive Request where
  /-- To reserve storage for a variable. -/
  | allocate (var : VarId)
  /-- To begin a function. -/
  | beginFunction (name : String) (parameters : List Parameter)
  /-- To open the region of a node. -/
  | openRegion (node : NodeId)
  /-- To append an instruction. -/
  | emit (instruction : Instruction)
  /-- To finish the open function. -/
  | endFunction
deriving DecidableEq, Repr

/-- A request as it is logged. -/
def Request.text : Request → String
  | allocate var => "allocate " ++ var.text
  | beginFunction name parameters =>
    "begin " ++ name ++ "(" ++ String.intercalate ", " (parameters.map Parameter.text) ++ ")"
  | openRegion node => "region " ++ node.text
  | emit instruction => "emit " ++ instruction.text
  | endFunction => "end"

/-- How a backend answers a request. -/
def Request.serve {β : Type} [Backend β] : Request → Attempt β Unit
  | allocate var => Backend.allocate var
  | beginFunction name parameters => Backend.beginFunction name parameters
  | openRegion node => Backend.openRegion node
  | emit instruction => Backend.emit instruction
  | endFunction => Backend.endFunction

/-- An entry of a log. -/
inductive Event where
  /-- The compiler has reached a milestone. -/
  | notice (news : Notice)
  /-- A request that may fail.  The flag says whether the recorder made it fail. -/
  | request (asked : Request) (failed : Bool)
  /-- A request to merge the region of a node with the one before it, and the answer. -/
  | merge (node : NodeId) (merged : Bool)
  /-- A request to merge the region of a source node into that of a target node, and the answer. -/
  | mergeInto (target source : NodeId) (merged : Bool)
  /-- The open function was discarded. -/
  | discard
deriving DecidableEq, Repr

/-- An entry as it is logged. -/
def Event.text : Event → String
  | notice news => news.text
  | request asked failed => if failed then asked.text ++ " !" else asked.text
  | merge node merged => s!"merge {node.text} {merged}"
  | mergeInto target source merged => s!"merge {source.text} into {target.text} {merged}"
  | discard => "discard"

/-- What a recorder does on its own. -/
structure Interference where
  /-- The error of the request with the given number, counted from zero over all requests that may
  fail, unless it is handed on. -/
  failure : Nat → Option CompileError
  /-- Whether the merge with the given number, counted from zero, is refused without asking. -/
  refusal : Nat → Bool

/-- To record only. -/
def Interference.nothing : Interference := ⟨fun _ => none, fun _ => false⟩

/-- A backend with a log. -/
structure Recorder (β : Type) where
  /-- The backend that does the work. -/
  inner : β
  /-- What the recorder does on its own. -/
  interference : Interference
  /-- The number of requests so far that may fail. -/
  requests : Nat
  /-- The number of merges so far. -/
  merges : Nat
  /-- The log. -/
  events : Array Event

namespace Recorder

variable {β : Type}

/-- A recorder with an empty log. -/
def around (inner : β) (interference : Interference) : Recorder β :=
  ⟨inner, interference, 0, 0, #[]⟩

/-- Appends an entry to the log. -/
def record (recorder : Recorder β) (event : Event) : Recorder β :=
  { recorder with events := recorder.events.push event }

/-- The milestones in the log. -/
def notices (recorder : Recorder β) : List Notice :=
  recorder.events.toList.filterMap fun event =>
    match event with
    | .notice news => some news
    | _ => none

/-- What was asked of the backend, according to the log. -/
def actions (recorder : Recorder β) : List Event :=
  recorder.events.toList.filter fun event => !(event matches .notice _)

/-- A recorder that goes on with an empty log. -/
def cleared (recorder : Recorder β) : Recorder β := { recorder with events := #[] }

variable [Backend β]

/-- Logs a request and hands it on, unless the recorder makes it fail. -/
def pass (request : Request) : Attempt (Recorder β) Unit := do
  let recorder ← get
  let failure := recorder.interference.failure recorder.requests
  let recorder := recorder.record (.request request failure.isSome)
  set { recorder with requests := recorder.requests + 1 }
  match failure with
  | some error => throw error
  | none => request.serve.zoom inner fun inner recorder => { recorder with inner }

/-- Asks for a merge, unless the recorder refuses it, and logs the answer. -/
def merge (ask : β → Bool × β) (event : Bool → Event) (recorder : Recorder β) :
    Bool × Recorder β :=
  let (merged, inner) :=
    if recorder.interference.refusal recorder.merges then (false, recorder.inner)
    else ask recorder.inner
  (merged, { recorder.record (event merged) with inner, merges := recorder.merges + 1 })

instance : Backend (Recorder β) where
  vars recorder := Backend.vars recorder.inner
  declare spec recorder := { recorder with inner := Backend.declare spec recorder.inner }
  allocate var := pass (.allocate var)
  beginFunction name parameters := pass (.beginFunction name parameters)
  endFunction := pass .endFunction
  discardFunction recorder :=
    { recorder.record .discard with inner := Backend.discardFunction recorder.inner }
  openRegion node := pass (.openRegion node)
  emit instruction := pass (.emit instruction)
  mergeRegion node := merge (Backend.mergeRegion node) (.merge node)
  mergeRegions target source :=
    merge (Backend.mergeRegions target source) (.mergeInto target source)
  notify notice recorder :=
    { recorder.record (.notice notice) with inner := Backend.notify notice recorder.inner }

end Recorder
end Dataflow
