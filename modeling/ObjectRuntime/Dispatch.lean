import ObjectRuntime.Arithmetic
import ObjectRuntime.Call

/-!
# Dispatch

A send first finds its route. An operator that is allowed on an immediate receiver, with one
argument, is applied directly, provided that the method found for it is public and still the
operator's own. On every other route the receiver becomes an object. There the method is resolved;
one that is missing, or not visible to the send, gives way to `method_missing`, and without that to
an exception.

A super call goes on from the running method: along the class-level methods if the running method is
the class-level method of its owner, else along the ancestors of the receiver's class.
-/

set_option autoImplicit false

namespace ObjectRuntime.Run

inductive Route where
  | direct (op : Operator) (receiver argument : Value)
  | general (receiver : ObjectId)

def Route.receiver : Route → Value
  | direct _ receiver _ => receiver
  | general id => .object id

/-- The class of an immediate number and the operators it may be sent directly. -/
def directTable : Value → Option (ModuleId × List Operator)
  | .int _ => some (Core.integer.id, Operator.onIntegers)
  | .float _ => some (Core.float.id, Operator.onFloats)
  | .object _ => none

def directOperator? (m : Machine) (receiver : Value) (selector : String) (args : List Value) :
    Option (Operator × Value) := do
  let (cls, table) ← directTable receiver
  let op ← Operator.find? table selector
  let [argument] := args | none
  let method ← m.hierarchy.findMethod cls selector
  if method.operator = some op ∧ method.isPublic then some (op, argument) else none

def route (receiver : Value) (selector : String) (args : List Value) : Run Route := do
  count .send
  match ← read fun m => directOperator? m receiver selector args with
  | some (op, argument) =>
    count .direct
    return .direct op receiver argument
  | none =>
    if receiver.isImmediate then count .hydration
    return .general (← hydrate receiver)

def methodMissing (run : Runner) (env : FrameId) (id : ObjectId) (selector : String)
    (args : List Value) (block : Option Block) (reason : MissReason) : Run Value := do
  modify fun m => { m with missReason := reason }
  count .missing
  match ← read fun m => Method.defined? (m.resolve id "method_missing") with
  | some handler =>
    let name ← symbol selector
    invoke run env handler (.object id) (name :: args) block
  | none =>
    let subject ← read fun m => m.describeReceiver (.object id)
    fail env (.methodMissing reason selector subject)

/-- Why a send of the kind may not call the method. -/
def refusal? (kind : SendKind) (method : Method) : Option MissReason :=
  match kind, method.visibility with
  | .publicOnly, .isPrivate => some .hidden
  | .publicOnly, .isProtected => some .guarded
  | _, _ => none

def sendToObject (run : Runner) (env : FrameId) (kind : SendKind) (id : ObjectId)
    (selector : String) (args : List Value) (block : Option Block) : Run Value := do
  match ← read fun m => Method.defined? (m.resolve id selector) with
  | none => methodMissing run env id selector args block .notFound
  | some method =>
    match refusal? kind method with
    | some reason => methodMissing run env id selector args block reason
    | none => invoke run env method (.object id) args block

def applyOperator (env : FrameId) (op : Operator) (left right : Value) : Run Value := do
  orFail env (← read fun m => m.apply op left right)

def follow (run : Runner) (env : FrameId) (kind : SendKind) (selector : String) (args : List Value)
    (block : Option Block) : Route → Run Value
  | .direct op receiver argument => applyOperator env op receiver argument
  | .general id => sendToObject run env kind id selector args block

/-- A send whose receiver is not needed afterwards. -/
def send (run : Runner) (env : FrameId) (kind : SendKind) (receiver : Value) (selector : String)
    (args : List Value) (block : Option Block) : Run Value := do
  let route ← route receiver selector args
  follow run env kind selector args block route

/-- A visible binding without arguments, else a send to the receiver. Also says what the receiver
has become. -/
def identify (run : Runner) (env : FrameId) (receiver : Value) (name : String) (args : List Value) :
    Run (Value × Run Value) := do
  match args, ← read fun m => m.frames.lookup env name with
  | [], some value => return (receiver, Pure.pure value)
  | _, _ =>
    let route ← route receiver name args
    return (route.receiver, follow run env .anyMethod name args none route)

/-- The definition after the running one, and its place if it was found among the ancestors. -/
def nextDefinition (m : Machine) (id : ObjectId) (current : Method) (recorded : Option Nat) :
    Option (Option Nat × Method) :=
  let isClassMethod :=
    match m.hierarchy.ownClassMethod? current.owner current.name with
    | some method => method.isIdentical current
    | none => false
  let found : Option (Option Nat × Method) :=
    match m.module? (.object id), isClassMethod with
    | some cls, true =>
      (m.hierarchy.findClassMethodAfter cls current.owner current.name).map fun method =>
        (none, method)
    | _, _ =>
      (m.hierarchy.findMethodAfter (m.classOf (.object id)) current.owner current.name recorded).map
        fun entry => (some entry.1, entry.2)
  found.filter fun entry => !entry.2.isUndefined

/-- Without a block of its own the call passes on the block of the running method. -/
def callSuper (run : Runner) (env : FrameId) (receiver : Value) (args : List Value)
    (block : Option Block) : Run Value := do
  let frame ← read fun m => (m.frames.methodFrame? env).bind m.frames.get?
  match frame.bind fun f => f.method.map fun method => (f, method) with
  | none => fail env .superOutsideMethod
  | some (f, current) =>
    let id ← hydrate receiver
    match ← read fun m => nextDefinition m id current f.ancestorIndex with
    | some (place, method) =>
      let block ← match block with
        | some block => Pure.pure (some block)
        | none => read fun m => m.frames.currentBlock? env
      invokeAt run env method (.object id) args block place
    | none =>
      let subject ← read fun m => m.describeReceiver (.object id)
      fail env (.noSuperMethod current.name subject)

end ObjectRuntime.Run
