import ObjectRuntime.Builtins
import ObjectRuntime.Numbered.Dispatch

/-!
# Built-in methods with numbered names

A method name that is given as a string is interned; one that is given as a symbol has its number.
-/

set_option autoImplicit false

namespace ObjectRuntime.Numbered.Run

open ObjectRuntime.Run (Route Rescued setMessage identityOf withoutAllocator)

def selectorArg (env : FrameId) (v : Value) : Run String := do
  match ← see fun m => m.symbol? v with
  | some name => return name
  | none =>
    match ← see fun m => m.text? v with
    | some content => intern content
    | none =>
      let shown ← read fun s => s.shown.inspect v
      fail env (.notASelector shown)

def moduleArg (env : FrameId) (v : Value) : Run ModuleId := do
  match ← see fun m => m.module? v with
  | some id => return id
  | none =>
    let shown ← read fun s => s.shown.inspect v
    fail env (.receiverNotAModule shown)

/-- The message and the backtrace of an exception are texts. -/
def exceptionArg (env : FrameId) (v : Value) : Run ExceptionData := do
  match ← see fun m => m.exception? v with
  | some data => return data
  | none => fail env .receiverNotAnException

def sendByName (run : Runner) (kind : SendKind) (env : FrameId) (receiver : Value)
    (args : List Value) (block : Option Block) : Run Value := do
  match args with
  | [] => fail env .noMethodName
  | selector :: rest =>
    let name ← selectorArg env selector
    send run env kind receiver name rest block

def respondTo (env : FrameId) (receiver : Value) (args : List Value) : Run Value := do
  match args with
  | [] => fail env (.wrongArity 0 (.between 1 2))
  | selector :: rest =>
    let name ← selectorArg env selector
    let includePrivate ← see fun m => (rest.head?.map m.truthy).getD false
    return .bool (← see fun m => m.respondsTo receiver name includePrivate)

def isA (env : FrameId) (receiver : Value) (args : List Value) : Run Value := do
  match ← see fun m => args.head?.bind m.module? with
  | some id => return .bool (← see fun m => m.isA receiver id)
  | none => fail env .classRequired

def raiseByArgs (run : Runner) (env : FrameId) (args : List Value) : Run Value := do
  match args with
  | [] => fail env .unhandled
  | first :: rest =>
    match ← see fun m => m.text? first with
    | some message => fail env (.runtimeError message)
    | none =>
      let isClass ← see fun m =>
        ((m.module? first).map fun id => m.hierarchy.inherits id Core.exception.id).getD false
      if isClass then
        let constructor ← read fun s => s.core "new"
        let exception ← send run env .anyMethod first constructor rest none
        raise env exception
      else
        if let message :: _ := rest then
          if ← see fun m => m.isException first then
            lift (setMessage first (← read fun s => s.shown.messageText message))
        raise env first

def catchByArgs (run : Runner) (env : FrameId) (args : List Value) (block : Option Block) :
    Run Value := do
  match block with
  | none => fail env .noBlockGiven
  | some block =>
    let tag ← match args with
      | tag :: _ => Pure.pure tag
      | [] => lift (.newObject Core.object.id .plain)
    catching env tag (callBlock run env block [tag])

def throwByArgs (env : FrameId) (args : List Value) : Run Value := do
  match args with
  | [] => fail env (.wrongArity 0 (.between 1 2))
  | tag :: rest => throw env tag (rest.head?.getD .nil)

def includeByArgs (env : FrameId) (receiver : Value) (args : List Value) : Run Value := do
  let target ← moduleArg env receiver
  forEach (fun arg => do includeModule env target (← moduleArg env arg)) args.reverse
  return receiver

def forSelectors (env : FrameId) (receiver : Value) (args : List Value)
    (act : ModuleId → String → Run Unit) : Run Unit := do
  let owner ← moduleArg env receiver
  forEach (fun arg => do act owner (← selectorArg env arg)) args

def methodDefined (env : FrameId) (receiver : Value) (args : List Value) : Run Value := do
  let owner ← moduleArg env receiver
  match args with
  | [] => fail env (.wrongArity 0 (.exactly 1))
  | selector :: _ =>
    let name ← selectorArg env selector
    let found ← see fun m => Method.defined? (m.hierarchy.findMethod owner name)
    return .bool ((found.map fun method => method.visibility != .isPrivate).getD false)

def defineByBlock (env : FrameId) (receiver : Value) (args : List Value) (block : Option Block) :
    Run Value := do
  let owner ← moduleArg env receiver
  match args with
  | [] => fail env (.wrongArity 0 (.exactly 1))
  | selector :: _ =>
    let name ← selectorArg env selector
    match block with
    | none => fail env .noBlockToDefine
    | some block =>
      lift (.defineMethod (.ofBlock name owner block))
      lift (.symbol name)

def instantiate (run : Runner) (env : FrameId) (receiver : Value) (args : List Value)
    (block : Option Block) : Run Value := do
  let allocator ← read fun s => s.core "allocate"
  let object ← send run env .anyMethod receiver allocator [] none
  let setup ← read fun s => s.core "initialize"
  let route ← route object setup args
  let _ ← follow run env .anyMethod setup args block route
  return route.receiver

def allocateObject (env : FrameId) (receiver : Value) : Run Value := do
  let cls ← moduleArg env receiver
  let inherits ← see fun m => m.hierarchy.inherits cls
  let shown ← read fun s => s.shown.className cls
  if withoutAllocator.any fun special => inherits special.id then fail env (.noAllocator shown)
  else if inherits Core.exception.id then
    return .object (← lift (.newException cls (.ofMessage shown)))
  else if inherits Core.string.id then lift (.newObject cls (.text ""))
  else lift (.newObject cls .plain)

def setUpException (env : FrameId) (receiver : Value) (args : List Value) : Run Value := do
  let _ ← exceptionArg env receiver
  if let message :: _ := args then
    if !(← see fun m => m.isNil message) then
      lift (setMessage receiver (← read fun s => s.shown.messageText message))
  return .nil

def runOperator (env : FrameId) (op : Operator) (receiver : Value) (args : List Value) :
    Run Value :=
  match args with
  | [argument] => applyOperator env op receiver argument
  | _ => fail env (.wrongArity args.length (.exactly 1))

def performBuiltin (run : Runner) (env : FrameId) (receiver : Value) (args : List Value)
    (block : Option Block) : Builtin → Run Value
  | .accept => return .nil
  | .same => return .bool ((args.head?.map receiver.same).getD false)
  | .negate => return .bool (!(← see fun m => m.truthy receiver))
  | .send => sendByName run .anyMethod env receiver args block
  | .publicSend => sendByName run .publicOnly env receiver args block
  | .classOf => see fun m => m.moduleObject (m.classOf receiver)
  | .respondTo => respondTo env receiver args
  | .objectId => return .int (← lift (identityOf receiver)).1
  | .isA => isA env receiver args
  | .inspect => do lift (.newText (← read fun s => s.shown.inspect receiver))
  | .ivarGet =>
    match args with
    | [] => fail env (.wrongArity 0 (.exactly 1))
    | selector :: _ => do ivarGet env receiver (← selectorArg env selector)
  | .ivarSet =>
    match args with
    | [selector, value] => do ivarSet env receiver (← selectorArg env selector) value
    | _ => fail env (.wrongArity args.length (.exactly 2))
  | .raise => raiseByArgs run env args
  | .catching => catchByArgs run env args block
  | .throw => throwByArgs env args
  | .moduleName => do
    let id ← moduleArg env receiver
    match ← read fun s => s.shown.moduleName? id with
    | some name => lift (.newText name)
    | none => return .nil
  | .includeModule => includeByArgs env receiver args
  | .methodDefined => methodDefined env receiver args
  | .defineMethod => defineByBlock env receiver args block
  | .undefMethod => do
    forSelectors env receiver args (undefMethod env)
    return receiver
  | .removeMethod => do
    forSelectors env receiver args (removeMethod env)
    return receiver
  | .setVisibility visibility => do
    forSelectors env receiver args fun owner name => setVisibility env owner name visibility
    return .nil
  | .new => instantiate run env receiver args block
  | .allocate => allocateObject env receiver
  | .superclass => do
    let id ← moduleArg env receiver
    match ← see fun m => m.hierarchy.superclass? id with
    | some parent => see fun m => m.moduleObject parent
    | none => return .nil
  | .operator op => runOperator env op receiver args
  | .exceptionSetup => setUpException env receiver args
  | .exceptionMessage => do lift (.newText (← exceptionArg env receiver).message)
  | .exceptionBacktrace => do
    let data ← exceptionArg env receiver
    if data.backtrace.isEmpty then return .nil
    else lift (.newText ("\n".intercalate data.backtrace))

end ObjectRuntime.Numbered.Run
