import ObjectRuntime.Evaluate

/-!
# Unwinding with a stack of handlers

A second semantics of programs, in which the rescues and catches that are active form one stack. A
rescue takes every raise that leaves its body, so a raise ends at the innermost one; a catch takes
every throw of its tag that leaves its body; and a throw for which there is no catch on the stack
becomes an exception where it starts.

What leaves a body carries no token, and nothing is looked up on the frames. The notes that the
machine keeps on its frames are written all the same, so that the machines at the end can be
compared. Whatever neither calls nor handles anything is a step of the machine itself, with the
target of its signal forgotten.
-/

set_option autoImplicit false

namespace ObjectRuntime

/-- A way out of a computation, without the place that it goes to. -/
inductive Departure where
  | raise (exception : ObjectId)
  | throw (tag value : Value)
  | exhausted
  | malformed

def Exit.departure : Exit → Departure
  | .signal (.raise id _) => .raise id
  | .signal (.throw tag value _) => .throw tag value
  | .exhausted => .exhausted
  | .malformed => .malformed

/-- A computation under a stack of handlers, innermost first. -/
def Handled (α : Type) : Type := List TargetKind → Machine → Except Departure α × Machine

namespace Handled

variable {α β : Type}

def pure (a : α) : Handled α := fun _ m => (.ok a, m)

def bind (x : Handled α) (f : α → Handled β) : Handled β := fun hs m =>
  match x hs m with
  | (.ok a, m) => f a hs m
  | (.error d, m) => (.error d, m)

instance : Monad Handled where
  pure := pure
  bind := bind

theorem run_bind (x : Handled α) (f : α → Handled β) (hs : List TargetKind) (m : Machine) :
    (x >>= f) hs m =
      match x hs m with
      | (.ok a, m) => f a hs m
      | (.error d, m) => (.error d, m) := rfl

theorem bind_assoc {γ : Type} (x : Handled α) (f : α → Handled β) (g : β → Handled γ) :
    x >>= f >>= g = x >>= fun a => f a >>= g := by
  funext hs m
  change bind (bind x f) g hs m = bind x (fun a => bind (f a) g) hs m
  unfold bind
  cases x hs m with | mk outcome m => cases outcome <;> rfl

def leave (d : Departure) : Handled α := fun _ m => (.error d, m)
def malformed : Handled α := leave .malformed

/-- What is seen of an ending when the target of a signal is forgotten. -/
def observed (ending : Except Exit α × Machine) : Except Departure α × Machine :=
  (ending.1.mapError Exit.departure, ending.2)

def lift (x : Run α) : Handled α := fun _ m => observed (x m)

def handlers : Handled (List TargetKind) := fun hs m => (.ok hs, m)

def attempt (x : Handled α) : Handled (Except Departure α) := fun hs m =>
  (.ok (x hs m).1, (x hs m).2)

def resume (outcome : Except Departure α) : Handled α := fun _ m => (outcome, m)

def afterward (x : Handled α) (f : Machine → Machine) : Handled α := fun hs m =>
  ((x hs m).1, f (x hs m).2)

def times (count : Nat) (x : Handled α) : Handled Unit :=
  match count with
  | 0 => Pure.pure ()
  | count + 1 => x >>= fun _ => times count x

/-! ### Handlers -/

/-- Runs with a handler on the stack and hands out how that ended. -/
def under (env : FrameId) (kind : TargetKind) (body : Handled α) :
    Handled (Except Departure α) := do
  let token ← lift Run.newToken
  lift (Run.modifyFrame env fun f => f.pushTarget ⟨token, kind⟩)
  let outcome ← fun hs => attempt body (kind :: hs)
  lift (Run.modifyFrame env fun f => f.dropTarget token)
  return outcome

def rescue (env : FrameId) (body : Handled Value) : Handled Run.Rescued := do
  match ← under env .rescue body with
  | .ok value => return .completed value
  | .error (.raise id) =>
    let payload := Value.object id
    lift (Run.modifyFrame env fun f => { f with exception := some payload })
    lift (Run.setGlobal Run.lastError payload)
    return .delivered payload
  | .error d => leave d

def catching (env : FrameId) (tag : Value) (body : Handled Value) : Handled Value := do
  match ← under env (.catching tag) body with
  | .error (.throw thrown value) =>
    if tag.same thrown then return value else leave (.throw thrown value)
  | outcome => resume outcome

def throw (env : FrameId) (tag value : Value) : Handled α := do
  if (← handlers).any (Run.isCatchOf tag) then leave (.throw tag value)
  else
    let shown ← lift (Run.read fun m => m.inspect tag)
    lift (Run.fail env (.uncaughtThrow shown))

def ensure (body : Handled α) (cleanup : Handled Unit) : Handled α := do
  match ← attempt body with
  | .ok value => cleanup; return value
  | .error (.raise id) => cleanup; leave (.raise id)
  | .error (.throw tag value) => cleanup; leave (.throw tag value)
  | .error d => leave d

/-! ### Calls -/

abbrev Caller := Entry → FrameId → Value → List Value → Option Block → Handled Value

variable (run : Caller)

def inNewFrame (caller : FrameId) (frame : Frame) (entry : Entry) (receiver : Value)
    (args : List Value) (block : Option Block) : Handled Value := do
  lift (Run.enterCall caller)
  let position ← lift (Run.read fun m => m.frames.position caller)
  let id ← lift (Run.newFrame
    { frame with caller := some caller, position, receiver := some receiver })
  let previous ← lift (Run.enterFrame id)
  afterward (run entry id receiver args block) (Run.leaveCall id previous)

def enter (caller : FrameId) (method : Method) (receiver : Value) (args : List Value)
    (block : Option Block) (ancestorIndex : Option Nat) (entry : Entry) (kind : FrameKind)
    (outer : Option FrameId) : Handled Value :=
  if method.arity.accepts args.length then
    inNewFrame run caller
      { Frame.fresh kind outer with method := some method, block, ancestorIndex }
      entry receiver args block
  else lift (Run.fail caller (.wrongArity args.length method.arity))

def invokeAt (caller : FrameId) (method : Method) (receiver : Value) (args : List Value)
    (block : Option Block) (ancestorIndex : Option Nat) : Handled Value := do
  match method.body with
  | .undefined =>
    let subject ← lift (Run.read fun m => m.describeReceiver receiver)
    lift (Run.fail caller (.methodMissing .notFound method.name subject))
  | .native entry =>
    let outer ← lift (Run.read fun m => Run.ownerFrame m method.owner)
    enter run caller method receiver args block ancestorIndex entry .method outer
  | .closure entry outer =>
    enter run caller method receiver args block ancestorIndex entry .closureMethod (some outer)

def callBlock (caller : FrameId) (block : Block) (args : List Value) : Handled Value :=
  inNewFrame run caller (Frame.fresh .block (some block.frame)) block.entry block.receiver args none

/-! ### Dispatch -/

def methodMissing (env : FrameId) (id : ObjectId) (selector : String) (args : List Value)
    (block : Option Block) (reason : MissReason) : Handled Value := do
  lift (Run.modify fun m => { m with missReason := reason })
  lift (Run.count .missing)
  match ← lift (Run.read fun m => Method.defined? (m.resolve id "method_missing")) with
  | some handler =>
    let name ← lift (Run.symbol selector)
    invokeAt run env handler (.object id) (name :: args) block none
  | none =>
    let subject ← lift (Run.read fun m => m.describeReceiver (.object id))
    lift (Run.fail env (.methodMissing reason selector subject))

def sendToObject (env : FrameId) (kind : SendKind) (id : ObjectId) (selector : String)
    (args : List Value) (block : Option Block) : Handled Value := do
  match ← lift (Run.read fun m => Method.defined? (m.resolve id selector)) with
  | none => methodMissing run env id selector args block .notFound
  | some method =>
    match Run.refusal? kind method with
    | some reason => methodMissing run env id selector args block reason
    | none => invokeAt run env method (.object id) args block none

def follow (env : FrameId) (kind : SendKind) (selector : String) (args : List Value)
    (block : Option Block) : Run.Route → Handled Value
  | .direct op receiver argument => lift (Run.applyOperator env op receiver argument)
  | .general id => sendToObject run env kind id selector args block

def send (env : FrameId) (kind : SendKind) (receiver : Value) (selector : String)
    (args : List Value) (block : Option Block) : Handled Value := do
  let route ← lift (Run.route receiver selector args)
  follow run env kind selector args block route

def identify (env : FrameId) (receiver : Value) (name : String) (args : List Value) :
    Handled (Value × Handled Value) := do
  match args, ← lift (Run.read fun m => m.frames.lookup env name) with
  | [], some value => return (receiver, Pure.pure value)
  | _, _ =>
    let route ← lift (Run.route receiver name args)
    return (route.receiver, follow run env .anyMethod name args none route)

def callSuper (env : FrameId) (receiver : Value) (args : List Value) (block : Option Block) :
    Handled Value := do
  let frame ← lift (Run.read fun m => (m.frames.methodFrame? env).bind m.frames.get?)
  match frame.bind fun f => f.method.map fun method => (f, method) with
  | none => lift (Run.fail env .superOutsideMethod)
  | some (f, current) =>
    let id ← lift (Run.hydrate receiver)
    match ← lift (Run.read fun m => Run.nextDefinition m id current f.ancestorIndex) with
    | some (place, method) =>
      let block ← match block with
        | some block => Pure.pure (some block)
        | none => lift (Run.read fun m => m.frames.currentBlock? env)
      invokeAt run env method (.object id) args block place
    | none =>
      let subject ← lift (Run.read fun m => m.describeReceiver (.object id))
      lift (Run.fail env (.noSuperMethod current.name subject))

/-! ### Built-in methods -/

def sendByName (kind : SendKind) (env : FrameId) (receiver : Value) (args : List Value)
    (block : Option Block) : Handled Value := do
  match args with
  | [] => lift (Run.fail env .noMethodName)
  | selector :: rest =>
    let name ← lift (Run.selectorArg env selector)
    send run env kind receiver name rest block

def raiseByArgs (env : FrameId) (args : List Value) : Handled Value := do
  match args with
  | [] => lift (Run.fail env .unhandled)
  | first :: rest =>
    match ← lift (Run.read fun m => m.text? first) with
    | some message => lift (Run.fail env (.runtimeError message))
    | none =>
      let isClass ← lift (Run.read fun m =>
        ((m.module? first).map fun id => m.hierarchy.inherits id Core.exception.id).getD false)
      if isClass then
        let exception ← send run env .anyMethod first "new" rest none
        lift (Run.raise env exception)
      else
        lift (do
          if let message :: _ := rest then
            if ← Run.read fun m => m.isException first then
              Run.setMessage first (← Run.read fun m => m.messageText message)
          Run.raise env first)

def catchByArgs (env : FrameId) (args : List Value) (block : Option Block) : Handled Value := do
  match block with
  | none => lift (Run.fail env .noBlockGiven)
  | some block =>
    let tag ← match args with
      | tag :: _ => Pure.pure tag
      | [] => lift (Run.newObject Core.object.id .plain)
    catching env tag (callBlock run env block [tag])

def throwByArgs (env : FrameId) (args : List Value) : Handled Value := do
  match args with
  | [] => lift (Run.fail env (.wrongArity 0 (.between 1 2)))
  | tag :: rest => throw env tag (rest.head?.getD .nil)

def instantiate (env : FrameId) (receiver : Value) (args : List Value) (block : Option Block) :
    Handled Value := do
  let object ← send run env .anyMethod receiver "allocate" [] none
  let route ← lift (Run.route object "initialize" args)
  let _ ← follow run env .anyMethod "initialize" args block route
  return route.receiver

/-- The built-in methods that call or throw; all others are steps of the machine. -/
def builtin (env : FrameId) (receiver : Value) (args : List Value) (block : Option Block) :
    Builtin → Handled Value
  | .send => sendByName run .anyMethod env receiver args block
  | .publicSend => sendByName run .publicOnly env receiver args block
  | .raise => raiseByArgs run env args
  | .catching => catchByArgs run env args block
  | .throw => throwByArgs env args
  | .new => instantiate run env receiver args block
  | method => lift (method.perform (fun _ _ _ _ _ => Run.malformed) env receiver args block)

/-! ### Expressions -/

def perform (c : Context) (step : Prim) (operands : List Value) : Handled Value :=
  match step, operands with
  | .throw, [tag, v] => throw c.frame tag v
  | step, operands => lift (Run.perform c step operands)

mutual

/-- Bodies that work on another frame than their own, and those that keep a signal, have no meaning
here. -/
def eval (c : Context) : Expr → Handled Value
  | .literal value => lift (Run.ofLiteral value)
  | .constant name =>
    lift (do Run.ofOption (← Run.read fun m => m.frames.lookupLocal .main name))
  | .register name => lift (do Run.ofOption (← Run.read fun m => m.desk.registers.get? name))
  | .prim step operands => do
    let operands ← evalArgs c operands
    perform c step operands
  | .seq first second => do
    let _ ← eval c first
    eval c second
  | .cond test yes no => do
    let v ← eval c test
    if ← lift (Run.read fun m => m.truthy v) then eval c yes else eval c no
  | .times count body => do
    times count (eval c body)
    return .nil
  | .send kind receiver selector args block => do
    let before ← eval c receiver
    let args ← evalArgs c args
    let block ← evalBlock c block
    let route ← lift (Run.route before selector args)
    afterward (follow run c.frame kind selector args block route)
      (Run.writeBack (Run.slot? receiver) before route.receiver)
  | .identifier receiver name args => do
    let before ← eval c receiver
    let args ← evalArgs c args
    let (after, result) ← identify run c.frame before name args
    afterward result (Run.writeBack (Run.slot? receiver) before after)
  | .callSuper args block => do
    let args ← evalArgs c args
    let block ← evalBlock c block
    callSuper run c.frame c.receiver args block
  | .invoke owner name receiver args block => do
    let owner ← lift (Run.moduleOf (← eval c owner))
    let receiver ← eval c receiver
    let args ← evalArgs c args
    let block ← evalBlock c block
    let found ← lift (Run.read fun m => m.hierarchy.findMethod owner name)
    let method ← lift (Run.ofOption found)
    invokeAt run c.frame method receiver args block none
  | .yield args => do
    match ← lift (Run.read fun m => m.frames.currentBlock? c.frame) with
    | none => lift (Run.fail c.frame .noBlockGiven)
    | some block =>
      let args ← evalArgs c args
      callBlock run c.frame block args
  | .call block args => do
    let block ← lift (Run.ofOption (← evalBlock c block))
    let args ← evalArgs c args
    callBlock run c.frame block args
  | .makeProc arity body =>
    lift (Run.newObject Core.proc.id (.proc ⟨.code body, c.frame, arity, c.receiver⟩))
  | .defineMethod owner name arity capture code visibility => do
    let owner ← lift (Run.moduleOf (← eval c owner))
    lift (Run.defineMethod
      { Method.plain name owner arity (Run.body capture code c.frame) with visibility })
    return .nil
  | .defineFromBlock owner name block => do
    let owner ← lift (Run.moduleOf (← eval c owner))
    let block ← lift (Run.ofOption (← evalBlock c block))
    lift (Run.defineMethod (.ofBlock name owner block))
    return .nil
  | .defineSingleton target name arity capture code => do
    let target ← eval c target
    lift (Run.defineSingleton c.frame target name arity (Run.body capture code c.frame))
    return .nil
  | .inFrame kind _ body => do
    let frame ← lift (Run.newFrame
      { Frame.fresh kind (some c.frame) with caller := some c.frame })
    afterward (eval { c with frame } body) (Run.unlink frame)
  | .rescue body handler => do
    match ← rescue c.frame (eval c body) with
    | .completed v => return v
    | .delivered _ => eval c handler
  | .catching tag body => do
    let tag ← eval c tag
    catching c.frame tag (eval c body)
  | .ensure body cleanup => ensure (eval c body) (do let _ ← eval c cleanup)
  | .within _ _ => malformed
  | .stash _ _ => malformed
  | .runMain _ => malformed

def evalArgs (c : Context) : Args → Handled (List Value)
  | .nil => return []
  | .cons first rest => do
    let v ← eval c first
    let vs ← evalArgs c rest
    return v :: vs
  | .splice start rest => do
    let vs ← evalArgs c rest
    return c.args.drop start ++ vs

def evalBlock (c : Context) : BlockArg → Handled (Option Block)
  | .none => return none
  | .literal arity body => return some ⟨.code body, c.frame, arity, c.receiver⟩
  | .passed => return c.block
  | .current => lift (Run.read fun m => m.frames.currentBlock? c.frame)
  | .ofProc value => do
    let v ← eval c value
    lift (do some <$> Run.ofOption (← Run.read fun m => m.block? v))

end

def runEntry : Nat → Caller
  | 0, _, _, _, _, _ => leave .exhausted
  | calls + 1, .builtin method, frame, receiver, args, block =>
    builtin (runEntry calls) frame receiver args block method
  | calls + 1, .code body, frame, receiver, args, block =>
    eval (runEntry calls) ⟨frame, receiver, args, block⟩ body

def evalMain (program : Expr) : Handled Value := do
  let nesting ← lift (Run.read fun m => m.settings.nesting)
  eval (runEntry nesting) ⟨.main, .object .main, [], none⟩ program

end Handled

end ObjectRuntime
