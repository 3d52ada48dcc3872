import ObjectRuntime.Dispatch
import ObjectRuntime.Numbered.Unwind

/-!
# Dispatch with numbered names

A selector is a number from the start of the send to its end. The operators that dispatch may apply
directly are known by the numbers that their selectors got at the start.
-/

set_option autoImplicit false

namespace ObjectRuntime.Numbered

abbrev Runner := Entry → FrameId → Value → List Value → Option Block → Run Value

def definingFrame? (s : Numbered) (id : FrameId) (name : String) : Option FrameId :=
  let fs := s.machine.frames
  (fs.searched (isLexicallyVisible (s.text name)) (fs.scopes id)).find? fun frame =>
    (fs.lookupLocal frame name).isSome

def lookup (s : Numbered) (id : FrameId) (name : String) : Option Value :=
  (s.definingFrame? id name).bind fun frame => s.machine.frames.lookupLocal frame name

def operator? (s : Numbered) (table : List Operator) (selector : String) : Option Operator :=
  table.find? fun op => s.core op.selector == selector

def directOperator? (s : Numbered) (receiver : Value) (selector : String) (args : List Value) :
    Option (Operator × Value) := do
  let (cls, table) ← ObjectRuntime.Run.directTable receiver
  let op ← s.operator? table selector
  let [argument] := args | none
  let method ← s.machine.hierarchy.findMethod cls selector
  if method.operator = some op ∧ method.isPublic then some (op, argument) else none

namespace Run

open ObjectRuntime.Run (Route allowsCall leaveCall ownerFrame refusal? nextDefinition)

/-! ### Calls -/

def enterCall (caller : FrameId) : Run Unit := do
  if ← see allowsCall then modify fun m => { m with depth := m.depth + 1 }
  else fail caller .stackTooDeep

def inNewFrame (run : Runner) (caller : FrameId) (frame : Frame) (entry : Entry) (receiver : Value)
    (args : List Value) (block : Option Block) : Run Value := do
  enterCall caller
  let position ← see fun m => m.frames.position caller
  let id ← lift (.newFrame
    { frame with caller := some caller, position, receiver := some receiver })
  let previous ← lift (.enterFrame id)
  afterward (run entry id receiver args block) (leaveCall id previous)

def invokeAt (run : Runner) (caller : FrameId) (method : Method) (receiver : Value)
    (args : List Value) (block : Option Block) (ancestorIndex : Option Nat) : Run Value := do
  match method.body with
  | .undefined =>
    let fault ← read fun s =>
      Fault.methodMissing .notFound (s.text method.name) (s.shown.describeReceiver receiver)
    fail caller fault
  | .native entry =>
    let outer ← see fun m => ownerFrame m method.owner
    enter entry .method outer
  | .closure entry outer => enter entry .closureMethod (some outer)
where
  enter (entry : Entry) (kind : FrameKind) (outer : Option FrameId) : Run Value :=
    if method.arity.accepts args.length then
      inNewFrame run caller
        { Frame.fresh kind outer with method := some method, block, ancestorIndex }
        entry receiver args block
    else fail caller (.wrongArity args.length method.arity)

def invoke (run : Runner) (caller : FrameId) (method : Method) (receiver : Value)
    (args : List Value) (block : Option Block) : Run Value :=
  invokeAt run caller method receiver args block none

def callBlock (run : Runner) (caller : FrameId) (block : Block) (args : List Value) : Run Value :=
  inNewFrame run caller (Frame.fresh .block (some block.frame)) block.entry block.receiver args none

/-! ### Sends -/

def route (receiver : Value) (selector : String) (args : List Value) : Run Route := do
  lift (.count .send)
  match ← read fun s => s.directOperator? receiver selector args with
  | some (op, argument) =>
    lift (.count .direct)
    return .direct op receiver argument
  | none =>
    if receiver.isImmediate then lift (.count .hydration)
    return .general (← lift (.hydrate receiver))

def methodMissing (run : Runner) (env : FrameId) (id : ObjectId) (selector : String)
    (args : List Value) (block : Option Block) (reason : MissReason) : Run Value := do
  modify fun m => { m with missReason := reason }
  lift (.count .missing)
  let fallback ← read fun s => s.core "method_missing"
  match ← see fun m => Method.defined? (m.resolve id fallback) with
  | some handler =>
    let name ← lift (.symbol selector)
    invoke run env handler (.object id) (name :: args) block
  | none =>
    let fault ← read fun s =>
      Fault.methodMissing reason (s.text selector) (s.shown.describeReceiver (.object id))
    fail env fault

def sendToObject (run : Runner) (env : FrameId) (kind : SendKind) (id : ObjectId)
    (selector : String) (args : List Value) (block : Option Block) : Run Value := do
  match ← see fun m => Method.defined? (m.resolve id selector) with
  | none => methodMissing run env id selector args block .notFound
  | some method =>
    match refusal? kind method with
    | some reason => methodMissing run env id selector args block reason
    | none => invoke run env method (.object id) args block

def applyOperator (env : FrameId) (op : Operator) (left right : Value) : Run Value := do
  orFail env (← read fun s => s.shown.apply op left right)

def follow (run : Runner) (env : FrameId) (kind : SendKind) (selector : String) (args : List Value)
    (block : Option Block) : Route → Run Value
  | .direct op receiver argument => applyOperator env op receiver argument
  | .general id => sendToObject run env kind id selector args block

def send (run : Runner) (env : FrameId) (kind : SendKind) (receiver : Value) (selector : String)
    (args : List Value) (block : Option Block) : Run Value := do
  let route ← route receiver selector args
  follow run env kind selector args block route

def identify (run : Runner) (env : FrameId) (receiver : Value) (name : String) (args : List Value) :
    Run (Value × Run Value) := do
  match args, ← read fun s => s.lookup env name with
  | [], some value => return (receiver, Pure.pure value)
  | _, _ =>
    let route ← route receiver name args
    return (route.receiver, follow run env .anyMethod name args none route)

def callSuper (run : Runner) (env : FrameId) (receiver : Value) (args : List Value)
    (block : Option Block) : Run Value := do
  let frame ← see fun m => (m.frames.methodFrame? env).bind m.frames.get?
  match frame.bind fun f => f.method.map fun method => (f, method) with
  | none => fail env .superOutsideMethod
  | some (f, current) =>
    let id ← lift (.hydrate receiver)
    match ← see fun m => nextDefinition m id current f.ancestorIndex with
    | some (place, method) =>
      let block ← match block with
        | some block => Pure.pure (some block)
        | none => see fun m => m.frames.currentBlock? env
      invokeAt run env method (.object id) args block place
    | none =>
      let fault ← read fun s =>
        Fault.noSuperMethod (s.text current.name) (s.shown.describeReceiver (.object id))
      fail env fault

end Run

end ObjectRuntime.Numbered
