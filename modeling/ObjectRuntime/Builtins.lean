import ObjectRuntime.Dispatch
import ObjectRuntime.Opening

/-!
# Built-in methods

The methods that every machine starts with: identity and reflection, sends by name, raising,
catching and throwing, instantiation, the upkeep of modules, the numeric operators, and exceptions.
A built-in method runs in the frame of its own call, and its faults are raised from there. It looks
at its arguments again, since its body may have been given another arity.
-/

set_option autoImplicit false

namespace ObjectRuntime.Run

/-- A method name is given as a symbol or as a string. -/
def selectorOf (m : Machine) (v : Value) : Except Fault String :=
  match m.symbol? v with
  | some name => .ok name
  | none =>
    match m.text? v with
    | some content => .ok content
    | none => .error (.notASelector (m.inspect v))

def selectorArg (env : FrameId) (v : Value) : Run String := do
  orFail env (← read fun m => selectorOf m v)

def moduleArg (env : FrameId) (v : Value) : Run ModuleId := do
  match ← read fun m => m.module? v with
  | some id => return id
  | none =>
    let shown ← read fun m => m.inspect v
    fail env (.receiverNotAModule shown)

def exceptionArg (env : FrameId) (v : Value) : Run ExceptionData := do
  match ← read fun m => m.exception? v with
  | some data => return data
  | none => fail env .receiverNotAnException

def setMessage (v : Value) (message : String) : Run Unit :=
  match v.object? with
  | some id => modifyObject id fun o => o.mapException fun data => { data with message }
  | none => return ()

def sendByName (run : Runner) (kind : SendKind) (env : FrameId) (receiver : Value)
    (args : List Value) (block : Option Block) : Run Value := do
  match args with
  | [] => fail env .noMethodName
  | selector :: rest =>
    let name ← selectorArg env selector
    send run env kind receiver name rest block

def respondTo (env : FrameId) (receiver : Value) (args : List Value) : Run Value := do
  match args with
  | [] => fail env (.wrongArity 0 (.between 1 2))
  | selector :: rest =>
    let name ← selectorArg env selector
    let includePrivate ← read fun m => (rest.head?.map m.truthy).getD false
    return .bool (← read fun m => m.respondsTo receiver name includePrivate)

def isA (env : FrameId) (receiver : Value) (args : List Value) : Run Value := do
  match ← read fun m => args.head?.bind m.module? with
  | some id => return .bool (← read fun m => m.isA receiver id)
  | none => fail env .classRequired

/-- Without an argument, with a message, with an exception class and the arguments of its `new`, or
with an exception and perhaps another message for it. -/
def raiseByArgs (run : Runner) (env : FrameId) (args : List Value) : Run Value := do
  match args with
  | [] => fail env .unhandled
  | first :: rest =>
    match ← read fun m => m.text? first with
    | some message => fail env (.runtimeError message)
    | none =>
      let isClass ← read fun m =>
        ((m.module? first).map fun id => m.hierarchy.inherits id Core.exception.id).getD false
      if isClass then
        let exception ← send run env .anyMethod first "new" rest none
        raise env exception
      else
        if let message :: _ := rest then
          if ← read fun m => m.isException first then
            setMessage first (← read fun m => m.messageText message)
        raise env first

/-- Without a tag a new object serves as one. -/
def catchByArgs (run : Runner) (env : FrameId) (args : List Value) (block : Option Block) :
    Run Value := do
  match block with
  | none => fail env .noBlockGiven
  | some block =>
    let tag ← match args with
      | tag :: _ => Pure.pure tag
      | [] => newObject Core.object.id .plain
    catching env tag (callBlock run env block [tag])

def throwByArgs (env : FrameId) (args : List Value) : Run Value := do
  match args with
  | [] => fail env (.wrongArity 0 (.between 1 2))
  | tag :: rest => throw env tag (rest.head?.getD .nil)

/-- The module given last is included first, so the one given first is searched first. -/
def includeByArgs (env : FrameId) (receiver : Value) (args : List Value) : Run Value := do
  let target ← moduleArg env receiver
  forEach (fun arg => do includeModule env target (← moduleArg env arg)) args.reverse
  return receiver

def forSelectors (env : FrameId) (receiver : Value) (args : List Value)
    (act : ModuleId → String → Run Unit) : Run Unit := do
  let owner ← moduleArg env receiver
  forEach (fun arg => do act owner (← selectorArg env arg)) args

def methodDefined (env : FrameId) (receiver : Value) (args : List Value) : Run Value := do
  let owner ← moduleArg env receiver
  match args with
  | [] => fail env (.wrongArity 0 (.exactly 1))
  | selector :: _ =>
    let name ← selectorArg env selector
    let found ← read fun m => Method.defined? (m.hierarchy.findMethod owner name)
    return .bool ((found.map fun method => method.visibility != .isPrivate).getD false)

def defineByBlock (env : FrameId) (receiver : Value) (args : List Value) (block : Option Block) :
    Run Value := do
  let owner ← moduleArg env receiver
  match args with
  | [] => fail env (.wrongArity 0 (.exactly 1))
  | selector :: _ =>
    let name ← selectorArg env selector
    match block with
    | none => fail env .noBlockToDefine
    | some block =>
      defineMethod (.ofBlock name owner block)
      symbol name

/-- The new object is the receiver of its own setup, which may make an object of a number. -/
def instantiate (run : Runner) (env : FrameId) (receiver : Value) (args : List Value)
    (block : Option Block) : Run Value := do
  let object ← send run env .anyMethod receiver "allocate" [] none
  let route ← route object "initialize" args
  let _ ← follow run env .anyMethod "initialize" args block route
  return route.receiver

/-- The classes whose objects have a payload that no caller can supply. -/
def withoutAllocator : List Core :=
  [.integer, .float, .symbol, .nilClass, .trueClass, .falseClass]

def allocateObject (env : FrameId) (receiver : Value) : Run Value := do
  let cls ← moduleArg env receiver
  let inherits ← read fun m => m.hierarchy.inherits cls
  let shown ← read fun m => m.className cls
  if withoutAllocator.any fun special => inherits special.id then fail env (.noAllocator shown)
  else if inherits Core.exception.id then
    return .object (← newException cls (.ofMessage shown))
  else if inherits Core.string.id then newObject cls (.text "")
  else newObject cls .plain

/-- Without a message the exception keeps the name of its class. -/
def setUpException (env : FrameId) (receiver : Value) (args : List Value) : Run Value := do
  let _ ← exceptionArg env receiver
  if let message :: _ := args then
    if !(← read fun m => m.isNil message) then
      setMessage receiver (← read fun m => m.messageText message)
  return .nil

def runOperator (env : FrameId) (op : Operator) (receiver : Value) (args : List Value) :
    Run Value :=
  match args with
  | [argument] => applyOperator env op receiver argument
  | _ => fail env (.wrongArity args.length (.exactly 1))

end Run

open Run in
def Builtin.perform (run : Runner) (env : FrameId) (receiver : Value) (args : List Value)
    (block : Option Block) : Builtin → Run Value
  | accept => return .nil
  | same => return .bool ((args.head?.map receiver.same).getD false)
  | negate => return .bool (!(← read fun m => m.truthy receiver))
  | send => sendByName run .anyMethod env receiver args block
  | publicSend => sendByName run .publicOnly env receiver args block
  | classOf => read fun m => m.moduleObject (m.classOf receiver)
  | respondTo => Run.respondTo env receiver args
  | objectId => return .int (← identityOf receiver).1
  | isA => Run.isA env receiver args
  | inspect => do newText (← read fun m => m.inspect receiver)
  | ivarGet =>
    match args with
    | [] => fail env (.wrongArity 0 (.exactly 1))
    | selector :: _ => do Run.ivarGet env receiver (← selectorArg env selector)
  | ivarSet =>
    match args with
    | [selector, value] => do Run.ivarSet env receiver (← selectorArg env selector) value
    | _ => fail env (.wrongArity args.length (.exactly 2))
  | raise => raiseByArgs run env args
  | catching => catchByArgs run env args block
  | throw => throwByArgs env args
  | moduleName => do
    let id ← moduleArg env receiver
    match ← read fun m => m.moduleName? id with
    | some name => newText name
    | none => return .nil
  | includeModule => includeByArgs env receiver args
  | methodDefined => Run.methodDefined env receiver args
  | defineMethod => defineByBlock env receiver args block
  | undefMethod => do
    forSelectors env receiver args (Run.undefMethod env)
    return receiver
  | removeMethod => do
    forSelectors env receiver args (Run.removeMethod env)
    return receiver
  | setVisibility visibility => do
    forSelectors env receiver args fun owner name => Run.setVisibility env owner name visibility
    return .nil
  | new => instantiate run env receiver args block
  | allocate => allocateObject env receiver
  | superclass => do
    let id ← moduleArg env receiver
    match ← read fun m => m.hierarchy.superclass? id with
    | some parent => read fun m => m.moduleObject parent
    | none => return .nil
  | operator op => runOperator env op receiver args
  | exceptionSetup => setUpException env receiver args
  | exceptionMessage => do newText (← exceptionArg env receiver).message
  | exceptionBacktrace => do
    let data ← exceptionArg env receiver
    if data.backtrace.isEmpty then return .nil
    else newText ("\n".intercalate data.backtrace)

end ObjectRuntime
