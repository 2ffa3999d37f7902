import Dataflow.Model.Basic
import Dataflow.Storage.Variable

/-!
# Scopes

Ports are bound to variables in a stack of frames.  A lookup asks the innermost frame first, so an
inner binding hides an outer one until its frame is closed, and the outer one then shows again.  The
stack always has a root frame, which cannot be closed.
-/

namespace Dataflow

/-- The bindings of one frame.  The latest binding of a port comes first and counts. -/
abbrev Frame := List (PortId × VarId)

/-- A stack of frames that is never empty. -/
structure ScopeStack where
  /-- The innermost frame. -/
  innermost : Frame
  /-- The other frames, from the inside to the outside. -/
  outer : List Frame
deriving DecidableEq, Repr

/-- The variable that a frame binds to a port. -/
def Frame.lookup (frame : Frame) (port : PortId) : Option VarId :=
  (frame.find? fun binding => binding.1 = port).map Prod.snd

namespace ScopeStack

/-- The stack that has only the root frame, without bindings. -/
def root : ScopeStack := ⟨[], []⟩

/-- The number of frames, the root frame included. -/
def depth (scopes : ScopeStack) : Nat := scopes.outer.length + 1

/-- The frames from the inside to the outside. -/
def frames (scopes : ScopeStack) : List Frame := scopes.innermost :: scopes.outer

/-- Opens a frame. -/
def push (scopes : ScopeStack) : ScopeStack := ⟨[], scopes.frames⟩

/-- Closes the innermost frame, unless it is the root frame. -/
def pop? (scopes : ScopeStack) : Option ScopeStack :=
  match scopes.outer with
  | [] => none
  | frame :: outer => some ⟨frame, outer⟩

/-- The variable bound to a port in the innermost frame that binds it. -/
def lookup (scopes : ScopeStack) (port : PortId) : Option VarId :=
  scopes.frames.findSome? fun frame => frame.lookup port

/-- Binds a port in the innermost frame. -/
def bind (scopes : ScopeStack) (port : PortId) (var : VarId) : ScopeStack :=
  { scopes with innermost := (port, var) :: scopes.innermost }

/-- Binds the port that a range belongs to.  Parts of a port never have storage of their own. -/
def bindElement (scopes : ScopeStack) (range : PortRange) (var : VarId) : ScopeStack :=
  scopes.bind range.port var

/-- Whether the innermost frame itself binds a port. -/
def bindsInnermost (scopes : ScopeStack) (port : PortId) : Bool :=
  (scopes.innermost.lookup port).isSome

@[simp] theorem pop?_push (scopes : ScopeStack) : scopes.push.pop? = some scopes := rfl

@[simp] theorem lookup_push (scopes : ScopeStack) (port : PortId) :
    scopes.push.lookup port = scopes.lookup port := rfl

@[simp] theorem depth_push (scopes : ScopeStack) : scopes.push.depth = scopes.depth + 1 := rfl

@[simp] theorem depth_bind (scopes : ScopeStack) (port : PortId) (var : VarId) :
    (scopes.bind port var).depth = scopes.depth := rfl

@[simp] theorem lookup_bind_self (scopes : ScopeStack) (port : PortId) (var : VarId) :
    (scopes.bind port var).lookup port = some var := by
  simp [bind, lookup, frames, Frame.lookup]

theorem lookup_bind_of_ne (scopes : ScopeStack) {port other : PortId} (h : port ≠ other)
    (var : VarId) : (scopes.bind port var).lookup other = scopes.lookup other := by
  have hframe : Frame.lookup ((port, var) :: scopes.innermost) other =
      scopes.innermost.lookup other := by
    simp [Frame.lookup, h]
  simp only [lookup, frames, bind, List.findSome?_cons, hframe]

@[simp] theorem lookup_root (port : PortId) : root.lookup port = none := rfl

end ScopeStack
end Dataflow
