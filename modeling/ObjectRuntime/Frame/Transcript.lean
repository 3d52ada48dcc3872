import ObjectRuntime.Frame.Scope
import ObjectRuntime.Transcript

/-!
# Driving frames

Frames without methods or blocks, held by handles. A frame lives while a handle names it or a frame
that lives is enclosed by it. The link to the caller does not hold the caller: it leads nowhere once
the caller is dead.
-/

set_option autoImplicit false

namespace ObjectRuntime

/-- Frames and those outside them who hold some. -/
structure FrameHolding where
  frames : Frames
  handles : Bindings FrameId

inductive FrameStep where
  | create (handle : String) (kind : FrameKind)
  | child (handle outer : String) (kind : FrameKind)
  | release (handle : String)
  | define (handle name : String) (value : Int64)
  | assign (handle name : String) (value : Int64)
  | setCaller (handle caller : String)
  | clearCaller (handle : String)
  | setPosition (handle : String) (position : Option Position)
  | setLine (handle : String) (line : Nat)
  | setReceiver (handle : String) (value : Option Int64)
  | setException (handle : String) (value : Option Int64)
  | lookup (handle name : String)
  | lookupLocal (handle name : String)
  | localNames (handle : String)
  | kind (handle : String)
  | outer (handle : String)
  | caller (handle : String)
  | position (handle : String)
  | methodFrame (handle : String)
  | receiver (handle : String)
  | exception (handle : String)

/-- What is said of a frame: its first handle, if it has one. -/
inductive FrameName where
  | handle (name : String)
  | nameless
deriving DecidableEq

inductive FrameAnswer where
  | done
  | value (value : Option Value)
  | names (names : List String)
  | kind (kind : FrameKind)
  | frame (name : Option FrameName)
  | position (position : Option Position)

namespace FrameHolding

def empty : FrameHolding := ⟨.empty, .empty⟩

def isAlive (h : FrameHolding) (id : FrameId) : Bool :=
  h.handles.values.any fun held => (h.frames.scopes held).contains id

def nameOf (h : FrameHolding) (id : FrameId) : FrameName :=
  match h.handles.sortedKeys.find? fun handle => h.handles.get? handle == some id with
  | some handle => .handle handle
  | none => .nameless

def create (h : FrameHolding) (handle : String) (frame : Frame) : FrameHolding where
  frames := h.frames.push frame
  handles := h.handles.insert handle h.frames.next

def modify (h : FrameHolding) (handle : String) (f : Frame → Frame) :
    Option (FrameAnswer × FrameHolding) := do
  let id ← h.handles.get? handle
  return (.done, { h with frames := h.frames.modify id f })

def change (h : FrameHolding) (handle : String) (f : Frames → FrameId → Frames) :
    Option (FrameAnswer × FrameHolding) := do
  let id ← h.handles.get? handle
  return (.done, { h with frames := f h.frames id })

def tell (h : FrameHolding) (handle : String) (f : Frames → FrameId → FrameAnswer) :
    Option (FrameAnswer × FrameHolding) := do
  let id ← h.handles.get? handle
  return (f h.frames id, h)

def perform (h : FrameHolding) : FrameStep → Option (FrameAnswer × FrameHolding)
  | .create handle kind => some (.done, h.create handle (.fresh kind none))
  | .child handle outer kind => do
    let id ← h.handles.get? outer
    return (.done, h.create handle (.fresh kind (some id)))
  | .release handle => some (.done, { h with handles := h.handles.erase handle })
  | .define handle name value => h.change handle fun fs id => fs.define id name (.int value)
  | .assign handle name value => h.change handle fun fs id => fs.assign id name (.int value)
  | .setCaller handle caller => do
    let callerId ← h.handles.get? caller
    h.modify handle fun f => { f with caller := some callerId }
  | .clearCaller handle => h.modify handle fun f => { f with caller := none }
  | .setPosition handle position => h.modify handle fun f => { f with position }
  | .setLine handle line => h.change handle fun fs id => fs.setLine id line
  | .setReceiver handle value =>
    h.modify handle fun f => { f with receiver := value.map Value.int }
  | .setException handle value =>
    h.modify handle fun f => { f with exception := value.map Value.int }
  | .lookup handle name => h.tell handle fun fs id => .value (fs.lookup id name)
  | .lookupLocal handle name => h.tell handle fun fs id => .value (fs.lookupLocal id name)
  | .localNames handle => h.tell handle fun fs id =>
    .names (((fs.get? id).map fun f => f.bindings.sortedKeys).getD [])
  | .kind handle => h.tell handle fun fs id => .kind (fs.kindOf id)
  | .outer handle => h.tell handle fun fs id => .frame ((fs.outer? id).map h.nameOf)
  | .caller handle => h.tell handle fun fs id =>
    .frame (((fs.caller? id).filter h.isAlive).map h.nameOf)
  | .position handle => h.tell handle fun fs id => .position (fs.position id)
  | .methodFrame handle => h.tell handle fun fs id => .frame ((fs.methodFrame? id).map h.nameOf)
  | .receiver handle => h.tell handle fun fs id => .value ((fs.get? id).bind (·.receiver))
  | .exception handle => h.tell handle fun fs id => .value ((fs.get? id).bind (·.exception))

def answers (steps : List FrameStep) : Option (List FrameAnswer) := transcript perform empty steps

end FrameHolding

end ObjectRuntime
