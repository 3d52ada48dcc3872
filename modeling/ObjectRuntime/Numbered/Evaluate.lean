import ObjectRuntime.Evaluate
import ObjectRuntime.Numbered.Builtins

/-!
# Programs with numbered names

A program is a text. Each name in it is interned when evaluation comes to it.
-/

set_option autoImplicit false

namespace ObjectRuntime.Numbered

def methodView (s : Numbered) (method : Method) : MethodView :=
  s.shown.methodView (method.rename s.text)

/-- How diagnostics show a payload: a symbol by the number of its name. -/
def debugPayload : Payload → String
  | .symbol name => "Symbol(" ++ ("Name(" ++ name ++ ")") ++ ")"
  | payload => payload.debugText

def debugText (s : Numbered) (v : Value) : String :=
  v.debugText fun id => ((s.machine.heap.get? id).map fun o => debugPayload o.payload).getD ""

namespace Run

open ObjectRuntime.Run (Rescued setGate ofLiteral moduleOf placeFrame registerIdentity resignal
  slot? writeBack body unlink)

/-! ### Observing -/

/-- The answer to a question. A name in the question is looked up by its number. -/
def answer (env : FrameId) (q : Question) (operands : List Value) : Run (Option Answer) := do
  match q, operands with
  | .debug, [v] => read fun s => some (.text (s.debugText v))
  | .respondTo name includePrivate, [v] =>
    let name ← intern name
    see fun m => some (.flag (m.respondsTo v name includePrivate))
  | .resolve name, [v] =>
    let name ← intern name
    read fun s => some (.method
      ((v.object?.bind fun id => s.machine.resolve id name).map s.methodView))
  | .singleton name, [v] =>
    let name ← intern name
    read fun s => some (.method
      ((v.object?.bind fun id => s.machine.singletonMethod? id name).map s.methodView))
  | .method place name, [c] =>
    let name ← intern name
    read fun s => (s.machine.module? c).map fun id =>
      .method ((s.machine.hierarchy.search place id name).map s.methodView)
  | .lookup name, [] =>
    let name ← intern name
    read fun s => some (.binding ((s.lookup env name).map s.shown.view))
  | .localBinding name, [] =>
    let name ← intern name
    read fun s => some (.binding ((s.machine.frames.lookupLocal env name).map s.shown.view))
  | .isGlobalDefined name, [] =>
    let name ← intern name
    see fun m => some (.flag (m.globals.contains name))
  | q, operands => read fun s => s.shown.answer? env q operands

def ask (env : FrameId) (q : Question) (operands : List Value) : Run Unit := do
  match q with
  | .collect => lift (do .log (.reachable (← .collect)))
  | q => lift (.log (← ofOption (← answer env q operands)))

/-! ### Single steps -/

def literal : Literal → Run Value
  | .symbol name => do lift (.symbol (← intern name))
  | other => lift (ofLiteral other)

def openClassPrim (c : Context) (name : String) (hasSuperclass : Bool) (place : Place)
    (operands : List Value) : Run Value := do
  let (superclass, rest) ← match hasSuperclass, operands with
    | true, v :: rest => do Pure.pure (some (← lift (moduleOf v)), rest)
    | true, [] => malformed
    | false, rest => Pure.pure (none, rest)
  let frame ← lift (placeFrame c place rest)
  let id ← openClass frame (← intern name) superclass
  see fun m => m.moduleObject id

def openModulePrim (c : Context) (name : String) (place : Place) (operands : List Value) :
    Run Value := do
  let frame ← lift (placeFrame c place operands)
  let id ← openModule frame (← intern name)
  see fun m => m.moduleObject id

def aliasMethod (old new : String) (arity : Arity) (source target : ModuleId) : Run Unit := do
  let old ← intern old
  let method ← ofOption (← see fun m => m.hierarchy.findMethod source old)
  let new ← intern new
  lift (.defineMethod (.plain new target arity method.body))

/-- The steps that are about a name. -/
def performNamed (c : Context) (step : Prim) (operands : List Value) : Run Value := do
  match step, operands with
  | .openClass name hasSuperclass place, operands =>
    openClassPrim c name hasSuperclass place operands
  | .openModule name place, operands => openModulePrim c name place operands
  | .defineUndefined name, [v] =>
    let owner ← lift (moduleOf v)
    lift (.defineMethod (.undefined (← intern name) owner))
    return .nil
  | .defineUndefinedSingleton name arity, [v] =>
    defineSingleton c.frame v (← intern name) arity .undefined
    return .nil
  | .alias old new arity, [v, w] =>
    aliasMethod old new arity (← lift (moduleOf v)) (← lift (moduleOf w))
    return .nil
  | .removeMethod name, [v] =>
    let owner ← lift (moduleOf v)
    removeMethod c.frame owner (← intern name)
    return .nil
  | .undefMethod name, [v] =>
    let owner ← lift (moduleOf v)
    undefMethod c.frame owner (← intern name)
    return .nil
  | .setVisibility name visibility, [v] =>
    let owner ← lift (moduleOf v)
    setVisibility c.frame owner (← intern name) visibility
    return .nil
  | .variable name, [] =>
    let name ← intern name
    return (← read fun s => s.lookup c.frame name).getD .nil
  | .assign name, [v] =>
    let name ← intern name
    let frame ← read fun s => (s.definingFrame? c.frame name).getD c.frame
    modify fun m => { m with frames := m.frames.define frame name v }
    return v
  | .define name, [v] =>
    let name ← intern name
    modify fun m => { m with frames := m.frames.define c.frame name v }
    return v
  | .globalGet name, [] =>
    let name ← intern name
    return (← see fun m => m.globals.get? name).getD .nil
  | .globalSet name, [v] =>
    lift (.setGlobal (← intern name) v)
    return v
  | .ivarGet name, [v] => ivarGet c.frame v (← intern name)
  | .ivarSet name, [v, w] => ivarSet c.frame v (← intern name) w
  | .setPosition file line, [] =>
    let file ← intern file
    lift (.modifyFrame c.frame fun f => { f with position := some ⟨file, line⟩ })
    return .nil
  | _, _ => malformed

/-- The steps that may raise an exception or hand out what is known, but are about no name. -/
def performPlain (c : Context) (step : Prim) (operands : List Value) : Run Value := do
  match step, operands with
  | .log, [v] =>
    lift (.log (.value (← read fun s => s.shown.view v)))
    return v
  | .ask question, operands =>
    ask c.frame question operands
    return .nil
  | .includeModule, [v, w] =>
    includeModule c.frame (← lift (moduleOf v)) (← lift (moduleOf w))
    return .nil
  | .raise, [v] => raise c.frame v
  | .raiseNew message, [v] => fail c.frame (.raised (← lift (moduleOf v)) message)
  | .throw, [tag, v] => throw c.frame tag v
  | .fail cause, operands =>
    fail c.frame (← ofOption (← read fun s => ObjectRuntime.Run.causeOf s.shown cause operands))
  | step, operands => lift (ObjectRuntime.Run.perform c step operands)

def perform (c : Context) (step : Prim) (operands : List Value) : Run Value :=
  match step with
  | .openClass _ _ _ | .openModule _ _ | .defineUndefined _ | .defineUndefinedSingleton _ _
  | .alias _ _ _ | .removeMethod _ | .undefMethod _ | .setVisibility _ _ | .variable _ | .assign _
  | .define _ | .globalGet _ | .globalSet _ | .ivarGet _ | .ivarSet _ | .setPosition _ _ =>
    performNamed c step operands
  | _ => performPlain c step operands

def stash (key : String) (x : Run Value) : Run Value := do
  match ← attempt x with
  | .ok _ => return .nil
  | .error (.signal s) =>
    modify fun m => { m with desk := { m.desk with kept := m.desk.kept.insert key s } }
    return .nil
  | .error e => exit e

def runMain (x : Run Value) : Run Value := do
  match ← attempt x with
  | .ok v => return v
  | .error (.signal s) =>
    lift (.log (.uncaught (← uncaught .main s)))
    return .nil
  | .error e => exit e

/-! ### Expressions -/

mutual

def eval (run : Runner) (c : Context) : Expr → Run Value
  | .literal value => literal value
  | .constant name => do
    let name ← intern name
    ofOption (← see fun m => m.frames.lookupLocal .main name)
  | .register name => do ofOption (← see fun m => m.desk.registers.get? name)
  | .prim step operands => do
    let operands ← evalArgs run c operands
    perform c step operands
  | .seq first second => do
    let _ ← eval run c first
    eval run c second
  | .cond test yes no => do
    let v ← eval run c test
    if ← see fun m => m.truthy v then eval run c yes else eval run c no
  | .times count body => do
    times count (eval run c body)
    return .nil
  | .send kind receiver selector args block => do
    let before ← eval run c receiver
    let args ← evalArgs run c args
    let block ← evalBlock run c block
    let selector ← intern selector
    let route ← route before selector args
    afterward (follow run c.frame kind selector args block route)
      (writeBack (slot? receiver) before route.receiver)
  | .identifier receiver name args => do
    let before ← eval run c receiver
    let args ← evalArgs run c args
    let name ← intern name
    let (after, result) ← identify run c.frame before name args
    afterward result (writeBack (slot? receiver) before after)
  | .callSuper args block => do
    let args ← evalArgs run c args
    let block ← evalBlock run c block
    callSuper run c.frame c.receiver args block
  | .invoke owner name receiver args block => do
    let owner ← lift (moduleOf (← eval run c owner))
    let receiver ← eval run c receiver
    let args ← evalArgs run c args
    let block ← evalBlock run c block
    let name ← intern name
    let method ← ofOption (← see fun m => m.hierarchy.findMethod owner name)
    invoke run c.frame method receiver args block
  | .yield args => do
    match ← see fun m => m.frames.currentBlock? c.frame with
    | none => fail c.frame .noBlockGiven
    | some block =>
      let args ← evalArgs run c args
      callBlock run c.frame block args
  | .call block args => do
    let block ← ofOption (← evalBlock run c block)
    let args ← evalArgs run c args
    callBlock run c.frame block args
  | .makeProc arity body =>
    lift (.newObject Core.proc.id (.proc ⟨.code body, c.frame, arity, c.receiver⟩))
  | .defineMethod owner name arity capture code visibility => do
    let owner ← lift (moduleOf (← eval run c owner))
    let name ← intern name
    lift (.defineMethod
      { Method.plain name owner arity (body capture code c.frame) with visibility })
    return .nil
  | .defineFromBlock owner name block => do
    let owner ← lift (moduleOf (← eval run c owner))
    let block ← ofOption (← evalBlock run c block)
    let name ← intern name
    lift (.defineMethod (.ofBlock name owner block))
    return .nil
  | .defineSingleton target name arity capture code => do
    let target ← eval run c target
    let name ← intern name
    defineSingleton c.frame target name arity (body capture code c.frame)
    return .nil
  | .within owner body => do
    let owner ← lift (moduleOf (← eval run c owner))
    let frame ← ofOption (← see fun m => ObjectRuntime.Run.ownerFrame m owner)
    let receiver ← see fun m => m.moduleObject owner
    eval run ⟨frame, receiver, [], none⟩ body
  | .inFrame kind linked body => do
    let caller := if linked then some c.frame else none
    let frame ← lift (.newFrame { Frame.fresh kind (some c.frame) with caller })
    afterward (eval run { c with frame } body) (unlink frame)
  | .rescue body handler => do
    match ← rescue c.frame (eval run c body) with
    | .completed v => return v
    | .delivered _ => eval run c handler
  | .catching tag body => do
    let tag ← eval run c tag
    catching c.frame tag (eval run c body)
  | .ensure body cleanup =>
    ensure (eval run c body) (do let _ ← eval run c cleanup)
  | .stash key body => stash key (eval run c body)
  | .runMain body => runMain (eval run { c with frame := .main } body)

def evalArgs (run : Runner) (c : Context) : Args → Run (List Value)
  | .nil => return []
  | .cons first rest => do
    let v ← eval run c first
    let vs ← evalArgs run c rest
    return v :: vs
  | .splice start rest => do
    let vs ← evalArgs run c rest
    return c.args.drop start ++ vs

def evalBlock (run : Runner) (c : Context) : BlockArg → Run (Option Block)
  | .none => return none
  | .literal arity body => return some ⟨.code body, c.frame, arity, c.receiver⟩
  | .passed => return c.block
  | .current => see fun m => m.frames.currentBlock? c.frame
  | .ofProc value => do
    let v ← eval run c value
    some <$> ofOption (← see fun m => m.block? v)

end

def runEntry : Nat → Runner
  | 0, _, _, _, _, _ => exit .exhausted
  | calls + 1, .builtin method, frame, receiver, args, block =>
    performBuiltin (runEntry calls) frame receiver args block method
  | calls + 1, .code body, frame, receiver, args, block =>
    eval (runEntry calls) ⟨frame, receiver, args, block⟩ body

def evalMain (program : Expr) : Run Value := do
  let nesting ← see fun m => m.settings.nesting
  eval (runEntry nesting) ⟨.main, .object .main, [], none⟩ program

end Run

end ObjectRuntime.Numbered
