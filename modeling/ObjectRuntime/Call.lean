import ObjectRuntime.Unwind

/-!
# Calls

A call gets a frame of its own, linked to its caller while it runs. The body of the call is run by a
`Runner`, which every operation that calls takes as an argument; what a runner does is settled where
programs are evaluated.

A method checks its arguments before the limit on nested calls is checked; both faults are raised
from the caller. When the call has ended, however it ended, the depth and the current frame are as
before, and its frame has neither a caller nor a receiver.
-/

set_option autoImplicit false

namespace ObjectRuntime

/-- Runs an entry in a frame made for it, on a receiver, arguments and perhaps a block. -/
abbrev Runner := Entry → FrameId → Value → List Value → Option Block → Run Value

namespace Run

def allowsCall (m : Machine) : Bool :=
  match m.settings.callDepthLimit with
  | some limit => m.depth < limit
  | none => true

def enterCall (caller : FrameId) : Run Unit := do
  if ← read allowsCall then modify fun m => { m with depth := m.depth + 1 }
  else fail caller .stackTooDeep

def enterFrame (frame : FrameId) : Run (Option FrameId) := update fun m =>
  (m.current, { m with current := some frame })

def leaveCall (frame : FrameId) (previous : Option FrameId) (m : Machine) : Machine :=
  { m with
    current := previous
    depth := m.depth - 1
    frames := m.frames.modify frame fun f => { f with caller := none, receiver := none } }

def inNewFrame (run : Runner) (caller : FrameId) (frame : Frame) (entry : Entry) (receiver : Value)
    (args : List Value) (block : Option Block) : Run Value := do
  enterCall caller
  let position ← read fun m => m.frames.position caller
  let id ← newFrame { frame with caller := some caller, position, receiver := some receiver }
  let previous ← enterFrame id
  afterward (run entry id receiver args block) (leaveCall id previous)

def ownerFrame (m : Machine) (owner : ModuleId) : Option FrameId :=
  (m.hierarchy.get? owner).map (·.frame)

/-- Runs a method that was found at a place among the receiver's ancestors, if that is known. -/
def invokeAt (run : Runner) (caller : FrameId) (method : Method) (receiver : Value)
    (args : List Value) (block : Option Block) (ancestorIndex : Option Nat) : Run Value := do
  match method.body with
  | .undefined =>
    let subject ← read fun m => m.describeReceiver receiver
    fail caller (.methodMissing .notFound method.name subject)
  | .native entry =>
    let outer ← read fun m => ownerFrame m method.owner
    enter entry .method outer
  | .closure entry outer => enter entry .closureMethod (some outer)
where
  enter (entry : Entry) (kind : FrameKind) (outer : Option FrameId) : Run Value :=
    if method.arity.accepts args.length then
      inNewFrame run caller
        { Frame.fresh kind outer with method := some method, block, ancestorIndex }
        entry receiver args block
    else fail caller (.wrongArity args.length method.arity)

def invoke (run : Runner) (caller : FrameId) (method : Method) (receiver : Value)
    (args : List Value) (block : Option Block) : Run Value :=
  invokeAt run caller method receiver args block none

/-- A block takes any number of arguments and no block. -/
def callBlock (run : Runner) (caller : FrameId) (block : Block) (args : List Value) : Run Value :=
  inNewFrame run caller (Frame.fresh .block (some block.frame)) block.entry block.receiver args none

end Run

end ObjectRuntime
