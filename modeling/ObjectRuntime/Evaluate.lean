import ObjectRuntime.Builtins
import ObjectRuntime.Observe

/-!
# Evaluating programs

An expression is evaluated in a context: the frame it stands in, the receiver, the arguments and the
block of the body that it belongs to. Evaluation goes down the expression; the bodies of methods and
blocks that it calls are run by the runner it is given.

`runEntry` is the runner. Its first argument is the number of calls that may still nest, so that it
is defined by recursion on that number. A machine that limits nested calls never needs more than its
limit, and for one that does not the number is out of reach.
-/

set_option autoImplicit false

namespace ObjectRuntime

structure Context where
  frame : FrameId
  receiver : Value
  args : List Value
  block : Option Block

namespace Run

def ofLiteral : Literal → Run Value
  | .nil => return .nil
  | .bool b => return .bool b
  | .int i => return .int i
  | .float x => return .float x
  | .symbol name => symbol name
  | .text content => newText content

def moduleOf (v : Value) : Run ModuleId := do ofOption (← read fun m => m.module? v)

/-- The frame in which a class or a module is opened, given the operand for it. -/
def placeFrame (c : Context) (place : Place) (operands : List Value) : Run FrameId := do
  match place, operands with
  | .main, [] => return .main
  | .here, [] => return c.frame
  | .inModule, [v] =>
    let id ← moduleOf v
    ofOption (← read fun m => ownerFrame m id)
  | _, _ => malformed

def openClassPrim (c : Context) (name : String) (hasSuperclass : Bool) (place : Place)
    (operands : List Value) : Run Value := do
  let (superclass, rest) ← match hasSuperclass, operands with
    | true, v :: rest => do Pure.pure (some (← moduleOf v), rest)
    | true, [] => malformed
    | false, rest => Pure.pure (none, rest)
  let frame ← placeFrame c place rest
  let id ← openClass frame name superclass
  read fun m => m.moduleObject id

def openModulePrim (c : Context) (name : String) (place : Place) (operands : List Value) :
    Run Value := do
  let frame ← placeFrame c place operands
  let id ← openModule frame name
  read fun m => m.moduleObject id

/-- A public method with the body of another one. -/
def aliasMethod (old new : String) (arity : Arity) (source target : ModuleId) : Run Unit := do
  let method ← ofOption (← read fun m => m.hierarchy.findMethod source old)
  defineMethod (.plain new target arity method.body)

def causeOf (m : Machine) (cause : Cause) (operands : List Value) : Option Fault :=
  match cause, operands with
  | .runtimeError message, [] => some (.runtimeError message)
  | .typeError message, [] => some (.typeError message)
  | .argumentError message, [] => some (.argumentError message)
  | .wrongArity given expected, [] => some (.wrongArity given expected)
  | .nameError message name, [] => some (.nameError message name)
  | .noMethodError message name, [] => some (.noMethodError message name)
  | .invalidIvarName name, [] => some (.invalidIvarName name)
  | .undefinedMethodCalled name, [v] => some (.methodMissing .notFound name (m.describeReceiver v))
  | .zeroDivision, [] => some .zeroDivision
  | .integerOverflow, [] => some .integerOverflow
  | .stackTooDeep, [] => some .stackTooDeep
  | .frozen, [v] => some (.frozen (m.className (m.classOf v)) (m.inspect v))
  | _, _ => none

/-- The identity of the value in a register, which a float may leave as an object. -/
def registerIdentity (name : String) : Run Value := do
  let v ← ofOption (← read fun m => m.desk.registers.get? name)
  let (id, after) ← identityOf v
  setRegister name after
  return .int id

def resignal (key : String) : Run Value := do
  signal (← ofOption (← read fun m => m.desk.kept.get? key))

def perform (c : Context) (step : Prim) (operands : List Value) : Run Value := do
  match step, operands with
  | .self, [] => return c.receiver
  | .argument position, [] => return c.args[position]?.getD .nil
  | .argumentCount, [] => return .int (Int64.ofNat c.args.length)
  | .blockGiven, [] => return .bool c.block.isSome
  | .mainObject, [] => return .object .main
  | .moduleObject, [v] =>
    let id ← moduleOf v
    read fun m => m.moduleObject id
  | .keep register, [v] => setRegister register v; return v
  | .forget register, [] =>
    modify fun m => { m with desk := { m.desk with registers := m.desk.registers.erase register } }
    return .nil
  | .log, [v] => log (.value (← read fun m => m.view v)); return v
  | .ask question, operands => ask c.frame question operands; return .nil
  | .hydrate register, [] => hydrateRegister register
  | .objectId register, [] => registerIdentity register
  | .openClass name hasSuperclass place, operands =>
    openClassPrim c name hasSuperclass place operands
  | .openModule name place, operands => openModulePrim c name place operands
  | .defineUndefined name, [v] => defineMethod (.undefined name (← moduleOf v)); return .nil
  | .defineUndefinedSingleton name arity, [v] =>
    defineSingleton c.frame v name arity .undefined
    return .nil
  | .alias old new arity, [v, w] =>
    aliasMethod old new arity (← moduleOf v) (← moduleOf w)
    return .nil
  | .includeModule, [v, w] => includeModule c.frame (← moduleOf v) (← moduleOf w); return .nil
  | .removeMethod name, [v] => removeMethod c.frame (← moduleOf v) name; return .nil
  | .undefMethod name, [v] => undefMethod c.frame (← moduleOf v) name; return .nil
  | .setVisibility name visibility, [v] =>
    setVisibility c.frame (← moduleOf v) name visibility
    return .nil
  | .newObject, [v] => newObject (← moduleOf v) .plain
  | .variable name, [] => return (← read fun m => m.frames.lookup c.frame name).getD .nil
  | .assign name, [v] =>
    modify fun m => { m with frames := m.frames.assign c.frame name v }
    return v
  | .define name, [v] =>
    modify fun m => { m with frames := m.frames.define c.frame name v }
    return v
  | .globalGet name, [] => return (← read fun m => m.globals.get? name).getD .nil
  | .globalSet name, [v] => setGlobal name v; return v
  | .ivarGet name, [v] => ivarGet c.frame v name
  | .ivarSet name, [v, w] => ivarSet c.frame v name w
  | .setPosition file line, [] =>
    modifyFrame c.frame fun f => { f with position := some ⟨file, line⟩ }
    return .nil
  | .setLine line, [] =>
    modify fun m => { m with frames := m.frames.setLine c.frame line }
    return .nil
  | .delivered, [] =>
    return ((← read fun m => m.frames.get? c.frame).bind (·.exception)).getD .nil
  | .newException message, [v] =>
    return .object (← newException (← moduleOf v) (.ofMessage message))
  | .raise, [v] => raise c.frame v
  | .raiseNew message, [v] => fail c.frame (.raised (← moduleOf v) message)
  | .throw, [tag, v] => throw c.frame tag v
  | .fail cause, operands =>
    fail c.frame (← ofOption (← read fun m => causeOf m cause operands))
  | .resignal key, [] => resignal key
  | .setCollecting enabled, [] =>
    setGate ((← read fun m => m.heap.gate).set enabled)
    return .nil
  | .paused steps, [] => paused c.frame steps; return .nil
  | _, _ => malformed

/-- A register that an evaluated receiver came from, which a call may change. -/
def slot? : Expr → Option String
  | .register name => some name
  | _ => none

/-- Puts a receiver that has become an object back into the register it came from. -/
def writeBack (slot : Option String) (before after : Value) (m : Machine) : Machine :=
  match slot with
  | some name =>
    if before.isImmediate && !after.isImmediate then
      { m with desk := { m.desk with registers := m.desk.registers.insert name after } }
    else m
  | none => m

def body (capture : Capture) (code : Expr) (frame : FrameId) : Body :=
  match capture with
  | .none => .native (.code code)
  | .frame => .closure (.code code) frame

/-- Keeps the signal that ends a computation; any value is dropped. -/
def stash (key : String) (x : Run Value) : Run Value := do
  match ← attempt x with
  | .ok _ => return .nil
  | .error (.signal s) =>
    modify fun m => { m with desk := { m.desk with kept := m.desk.kept.insert key s } }
    return .nil
  | .error e => exit e

def runMain (x : Run Value) : Run Value := do
  match ← attempt x with
  | .ok v => return v
  | .error (.signal s) =>
    log (.uncaught (← uncaught .main s))
    return .nil
  | .error e => exit e

def unlink (frame : FrameId) (m : Machine) : Machine :=
  { m with frames := m.frames.modify frame fun f => { f with caller := none } }

mutual

def eval (run : Runner) (c : Context) : Expr → Run Value
  | .literal value => ofLiteral value
  | .constant name => do ofOption (← read fun m => m.frames.lookupLocal .main name)
  | .register name => do ofOption (← read fun m => m.desk.registers.get? name)
  | .prim step operands => do
    let operands ← evalArgs run c operands
    perform c step operands
  | .seq first second => do
    let _ ← eval run c first
    eval run c second
  | .cond test yes no => do
    let v ← eval run c test
    if ← read fun m => m.truthy v then eval run c yes else eval run c no
  | .times count body => do
    times count (eval run c body)
    return .nil
  | .send kind receiver selector args block => do
    let before ← eval run c receiver
    let args ← evalArgs run c args
    let block ← evalBlock run c block
    let route ← route before selector args
    afterward (follow run c.frame kind selector args block route)
      (writeBack (slot? receiver) before route.receiver)
  | .identifier receiver name args => do
    let before ← eval run c receiver
    let args ← evalArgs run c args
    let (after, result) ← identify run c.frame before name args
    afterward result (writeBack (slot? receiver) before after)
  | .callSuper args block => do
    let args ← evalArgs run c args
    let block ← evalBlock run c block
    callSuper run c.frame c.receiver args block
  | .invoke owner name receiver args block => do
    let owner ← moduleOf (← eval run c owner)
    let receiver ← eval run c receiver
    let args ← evalArgs run c args
    let block ← evalBlock run c block
    let method ← ofOption (← read fun m => m.hierarchy.findMethod owner name)
    invoke run c.frame method receiver args block
  | .yield args => do
    match ← read fun m => m.frames.currentBlock? c.frame with
    | none => fail c.frame .noBlockGiven
    | some block =>
      let args ← evalArgs run c args
      callBlock run c.frame block args
  | .call block args => do
    let block ← ofOption (← evalBlock run c block)
    let args ← evalArgs run c args
    callBlock run c.frame block args
  | .makeProc arity body =>
    newObject Core.proc.id (.proc ⟨.code body, c.frame, arity, c.receiver⟩)
  | .defineMethod owner name arity capture code visibility => do
    let owner ← moduleOf (← eval run c owner)
    defineMethod { Method.plain name owner arity (body capture code c.frame) with visibility }
    return .nil
  | .defineFromBlock owner name block => do
    let owner ← moduleOf (← eval run c owner)
    let block ← ofOption (← evalBlock run c block)
    defineMethod (.ofBlock name owner block)
    return .nil
  | .defineSingleton target name arity capture code => do
    let target ← eval run c target
    defineSingleton c.frame target name arity (body capture code c.frame)
    return .nil
  | .within owner body => do
    let owner ← moduleOf (← eval run c owner)
    let frame ← ofOption (← read fun m => ownerFrame m owner)
    let receiver ← read fun m => m.moduleObject owner
    eval run ⟨frame, receiver, [], none⟩ body
  | .inFrame kind linked body => do
    let caller := if linked then some c.frame else none
    let frame ← newFrame { Frame.fresh kind (some c.frame) with caller }
    afterward (eval run { c with frame } body) (unlink frame)
  | .rescue body handler => do
    match ← rescue c.frame (eval run c body) with
    | .completed v => return v
    | .delivered _ => eval run c handler
  | .catching tag body => do
    let tag ← eval run c tag
    catching c.frame tag (eval run c body)
  | .ensure body cleanup =>
    ensure (eval run c body) (do let _ ← eval run c cleanup)
  | .stash key body => stash key (eval run c body)
  | .runMain body => runMain (eval run { c with frame := .main } body)

def evalArgs (run : Runner) (c : Context) : Args → Run (List Value)
  | .nil => return []
  | .cons first rest => do
    let v ← eval run c first
    let vs ← evalArgs run c rest
    return v :: vs
  | .splice start rest => do
    let vs ← evalArgs run c rest
    return c.args.drop start ++ vs

def evalBlock (run : Runner) (c : Context) : BlockArg → Run (Option Block)
  | .none => return none
  | .literal arity body => return some ⟨.code body, c.frame, arity, c.receiver⟩
  | .passed => return c.block
  | .current => read fun m => m.frames.currentBlock? c.frame
  | .ofProc value => do
    let v ← eval run c value
    some <$> ofOption (← read fun m => m.block? v)

end

end Run

open Run in
/-- Runs what a method or a block consists of, while calls may still nest. -/
def runEntry : Nat → Runner
  | 0, _, _, _, _, _ => exit .exhausted
  | calls + 1, .builtin method, frame, receiver, args, block =>
    method.perform (runEntry calls) frame receiver args block
  | calls + 1, .code body, frame, receiver, args, block =>
    eval (runEntry calls) ⟨frame, receiver, args, block⟩ body

/-- How many calls may nest: the limit, or without one more than any store can hold. -/
def Settings.nesting (s : Settings) : Nat := s.callDepthLimit.getD (Nat.pow 10 18)

def Run.evalMain (program : Expr) : Run Value := do
  let nesting ← read fun m => m.settings.nesting
  eval (runEntry nesting) ⟨.main, .object .main, [], none⟩ program

end ObjectRuntime
