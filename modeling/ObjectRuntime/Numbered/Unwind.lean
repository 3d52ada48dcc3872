import ObjectRuntime.Numbered.Basic
import ObjectRuntime.Opening

/-!
# Unwinding and opening with numbered names

Exceptions carry the names that they are about by number, and their messages and backtraces in text.
-/

set_option autoImplicit false

namespace ObjectRuntime.Numbered.Run

open ObjectRuntime.Run (isRescue isCatchOf Rescued lastError)

variable {α : Type}

/-! ### Unwinding -/

/-- Gives the exception these lines for its backtrace. That of the first raise stays. -/
def noteBacktrace (id : ObjectId) (lines : List String) (m : Machine) : Machine :=
  match (m.heap.get? id).bind Object.exception? with
  | some data =>
    if data.backtrace.isEmpty then
      { m with
        heap := m.heap.modify id fun o => o.mapException fun d => { d with backtrace := lines } }
    else m
  | none => m

def recordBacktrace (env : FrameId) (id : ObjectId) : Run Unit := do
  let lines ← read fun s => s.shown.backtrace env
  modify (noteBacktrace id lines)

def raiseException (env : FrameId) (id : ObjectId) : Run α := do
  recordBacktrace env id
  lift (.count .raised)
  let target ← see fun m => m.frames.findTarget env isRescue
  signal (.raise id target)

def nameIn (fault : Fault) : Run (Option String) := do
  match fault.name? with
  | some text => some <$> intern text
  | none => return none

def fail (env : FrameId) (fault : Fault) : Run α := do
  let name ← nameIn fault
  let id ← lift (.newException fault.cls { fault.data with name })
  raiseException env id

def raise (env : FrameId) (v : Value) : Run α := do
  match v.object?, ← see fun m => m.isException v with
  | some id, true => raiseException env id
  | _, _ => fail env .notAnException

def orFail (env : FrameId) : Except Fault α → Run α
  | .ok a => Pure.pure a
  | .error fault => fail env fault

def throw (env : FrameId) (tag value : Value) : Run α := do
  match ← see fun m => m.frames.findTarget env (isCatchOf tag) with
  | some target => signal (.throw tag value target)
  | none =>
    let shown ← read fun s => s.shown.inspect tag
    fail env (.uncaughtThrow shown)

def withTarget (env : FrameId) (kind : TargetKind) (body : Run α) :
    Run (Token × Except Exit α) := do
  let token ← lift .newToken
  lift (.modifyFrame env fun f => f.pushTarget ⟨token, kind⟩)
  let outcome ← attempt body
  lift (.modifyFrame env fun f => f.dropTarget token)
  return (token, outcome)

def rescue (env : FrameId) (body : Run Value) : Run Rescued := do
  let (token, outcome) ← withTarget env .rescue body
  match outcome with
  | .ok value => return .completed value
  | .error (.signal (.raise id target)) =>
    if target = some token then
      let payload := Value.object id
      lift (.modifyFrame env fun f => { f with exception := some payload })
      let name ← read fun s => s.core lastError
      lift (.setGlobal name payload)
      return .delivered payload
    else signal (.raise id target)
  | .error e => exit e

def catching (env : FrameId) (tag : Value) (body : Run Value) : Run Value := do
  let (token, outcome) ← withTarget env (.catching tag) body
  match outcome with
  | .error (.signal (.throw thrown value target)) =>
    if target = token then return value else signal (.throw thrown value target)
  | outcome => resume outcome

def ensure (body : Run α) (cleanup : Run Unit) : Run α := do
  match ← attempt body with
  | .ok value => cleanup; return value
  | .error (.signal s) => cleanup; signal s
  | .error e => exit e

def reportOf (id : ObjectId) : Run Report := read fun s =>
  let m := s.shown
  let data := ((m.heap.get? id).bind Object.exception?).getD (.ofMessage "")
  { className := m.className (m.classOf (.object id))
    message := data.message
    backtrace := data.backtrace }

def uncaught (env : FrameId) : Signal → Run Report
  | .raise id _ => reportOf id
  | .throw tag _ _ => do
    let shown ← read fun s => s.shown.inspect tag
    let id ← lift (.newException Core.uncaughtThrowError.id (Fault.uncaughtThrow shown).data)
    recordBacktrace env id
    reportOf id

/-! ### Classes, modules, methods and variables -/

def openClass (lexical : FrameId) (name : String) (superclass : Option ModuleId) :
    Run ModuleId := do
  match ← see fun m => (m.frames.lookupLocal lexical name).map m.module? with
  | some existing =>
    let text ← read fun s => s.text name
    match existing.filter (← see fun m => m.hierarchy.isClass) with
    | none => fail lexical (.notAClass text)
    | some id =>
      let actual ← see fun m => m.hierarchy.superclass? id
      if superclass.isNone || superclass == actual then return id
      else fail lexical (.superclassMismatch text)
  | none =>
    let parent := superclass.getD Core.object.id
    let outer ← see fun m => ObjectRuntime.Run.superclassFrame m parent
    lift (.createModule lexical name .classKind (some parent) outer)

def openModule (lexical : FrameId) (name : String) : Run ModuleId := do
  match ← see fun m => (m.frames.lookupLocal lexical name).map m.module? with
  | some existing =>
    let isClass ← see fun m => m.hierarchy.isClass
    match existing.filter fun id => !isClass id with
    | none =>
      let text ← read fun s => s.text name
      fail lexical (.notAModule text)
    | some id => return id
  | none => lift (.createModule lexical name .moduleKind none (some lexical))

def defineSingleton (env : FrameId) (target : Value) (name : String) (arity : Arity) (body : Body) :
    Run Unit := do
  match ← see fun m => m.unboxed? target with
  | none => fail env .noSingleton
  | some id =>
    match ← see fun m => m.module? target with
    | some cls =>
      let method ← lift (.stamp (.plain name cls arity body))
      lift (.modifyHierarchy fun h => h.defineClassMethod cls method)
    | none =>
      let cls ← see fun m => m.classOf target
      let method ← lift (.stamp (.plain name cls arity body))
      lift (.modifyObject id fun o =>
        { o with singletonMethods := o.singletonMethods.insert name method })

def includeModule (env : FrameId) (target id : ModuleId) : Run Unit := do
  match ← see fun m => m.hierarchy.includeModule target id with
  | .ok hierarchy => modify fun m => { m with hierarchy }
  | .error .cyclic => fail env .cyclicInclude
  | .error .notAModule =>
    let shown ← read fun s => s.shown.className id
    fail env (.includesClass shown)

def removeMethod (env : FrameId) (owner : ModuleId) (name : String) : Run Unit := do
  if (← see fun m => m.hierarchy.ownMethod? owner name).isSome then
    lift (.modifyHierarchy fun h => h.removeMethod owner name)
  else
    let fault ← read fun s => Fault.methodNotInTable (s.text name) (s.shown.className owner)
    fail env fault

def failNotFound (env : FrameId) (owner : ModuleId) (name : String) : Run α := do
  let fault ← read fun s =>
    Fault.methodNotFound (s.text name) (s.shown.moduleNoun owner) (s.shown.className owner)
  fail env fault

def undefMethod (env : FrameId) (owner : ModuleId) (name : String) : Run Unit := do
  if ← see fun m => m.hierarchy.isMethodDefined owner name then
    lift (.defineMethod (.undefined name owner))
  else failNotFound env owner name

def setVisibility (env : FrameId) (owner : ModuleId) (name : String) (visibility : Visibility) :
    Run Unit := do
  match ← see fun m => Method.defined? (m.hierarchy.findMethod owner name) with
  | some method =>
    let method ← lift (.stamp { method with visibility })
    lift (.modifyHierarchy fun h => h.defineMethod owner method)
  | none => failNotFound env owner name

def checkIvarName (env : FrameId) (name : String) : Run Unit := do
  let text ← read fun s => s.text name
  if ObjectRuntime.Run.isIvarName text then return () else fail env (.invalidIvarName text)

def ivarGet (env : FrameId) (receiver : Value) (name : String) : Run Value := do
  checkIvarName env name
  let found ← see fun m => ((m.unboxed? receiver).bind m.heap.get?).bind fun o => o.ivars.get? name
  return found.getD .nil

def ivarSet (env : FrameId) (receiver : Value) (name : String) (value : Value) : Run Value := do
  checkIvarName env name
  match ← see fun m => m.unboxed? receiver with
  | some id =>
    lift (.modifyObject id fun o => { o with ivars := o.ivars.insert name value })
    return value
  | none =>
    let fault ← read fun s =>
      Fault.frozen (s.shown.className (s.shown.classOf receiver)) (s.shown.inspect receiver)
    fail env fault

end ObjectRuntime.Numbered.Run
