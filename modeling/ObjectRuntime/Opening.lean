import ObjectRuntime.Unwind

/-!
# Classes, modules, methods and variables

The changes of the hierarchy and of objects that programs ask for. Where a change is refused the
refusal is raised as an exception from the frame that asked, and nothing has changed.
-/

set_option autoImplicit false

namespace ObjectRuntime.Run

def superclassFrame (m : Machine) (id : ModuleId) : Option FrameId :=
  (m.hierarchy.get? id).map (·.frame)

/-- Makes a class or a module with its object, and binds the object as a constant. -/
def createModule (lexical : FrameId) (name : String) (kind : ModuleKind)
    (superclass : Option ModuleId) (outer : Option FrameId) : Run ModuleId := do
  let frame ← newFrame (Frame.fresh .moduleBody outer)
  let id ← read fun m => m.hierarchy.next
  let metaclass := match kind with
    | .classKind => Core.classClass.id
    | .moduleKind => Core.moduleClass.id
  let object ← allocate (.ofPayload metaclass (.module id))
  modifyHierarchy fun h => h.create
    { name := some name, kind, superclass, includes := [], methods := .empty
      classMethods := .empty, frame, object }
  modify fun m => { m with frames := m.frames.define lexical name (.object object) }
  return id

/-- The class bound to the name in the frame, or a new one. A class that is there already must have
the superclass asked for. -/
def openClass (lexical : FrameId) (name : String) (superclass : Option ModuleId) :
    Run ModuleId := do
  match ← read fun m => (m.frames.lookupLocal lexical name).map m.module? with
  | some existing =>
    match existing.filter (← read fun m => m.hierarchy.isClass) with
    | none => fail lexical (.notAClass name)
    | some id =>
      let actual ← read fun m => m.hierarchy.superclass? id
      if superclass.isNone || superclass == actual then return id
      else fail lexical (.superclassMismatch name)
  | none =>
    let parent := superclass.getD Core.object.id
    let outer ← read fun m => superclassFrame m parent
    createModule lexical name .classKind (some parent) outer

def openModule (lexical : FrameId) (name : String) : Run ModuleId := do
  match ← read fun m => (m.frames.lookupLocal lexical name).map m.module? with
  | some existing =>
    let isClass ← read fun m => m.hierarchy.isClass
    match existing.filter fun id => !isClass id with
    | none => fail lexical (.notAModule name)
    | some id => return id
  | none => createModule lexical name .moduleKind none (some lexical)

def defineMethod (method : Method) : Run Unit := do
  let method ← stamp method
  modifyHierarchy fun h => h.defineMethod method.owner method

/-- A method of one object. On a class or a module it is a class-level method; numbers have none. -/
def defineSingleton (env : FrameId) (target : Value) (name : String) (arity : Arity) (body : Body) :
    Run Unit := do
  match ← read fun m => m.unboxed? target with
  | none => fail env .noSingleton
  | some id =>
    match ← read fun m => m.module? target with
    | some cls =>
      let method ← stamp (.plain name cls arity body)
      modifyHierarchy fun h => h.defineClassMethod cls method
    | none =>
      let cls ← read fun m => m.classOf target
      let method ← stamp (.plain name cls arity body)
      modifyObject id fun o =>
        { o with singletonMethods := o.singletonMethods.insert name method }

def includeModule (env : FrameId) (target id : ModuleId) : Run Unit := do
  match ← read fun m => m.hierarchy.includeModule target id with
  | .ok hierarchy => modify fun m => { m with hierarchy }
  | .error .cyclic => fail env .cyclicInclude
  | .error .notAModule =>
    let shown ← read fun m => m.className id
    fail env (.includesClass shown)

def removeMethod (env : FrameId) (owner : ModuleId) (name : String) : Run Unit := do
  if (← read fun m => m.hierarchy.ownMethod? owner name).isSome then
    modifyHierarchy fun h => h.removeMethod owner name
  else
    let shown ← read fun m => m.className owner
    fail env (.methodNotInTable name shown)

def failNotFound {α : Type} (env : FrameId) (owner : ModuleId) (name : String) : Run α := do
  let fault ← read fun m => Fault.methodNotFound name (m.moduleNoun owner) (m.className owner)
  fail env fault

/-- The name stays undefined below the owner until it is defined or removed there. -/
def undefMethod (env : FrameId) (owner : ModuleId) (name : String) : Run Unit := do
  if ← read fun m => m.hierarchy.isMethodDefined owner name then
    defineMethod (.undefined name owner)
  else failNotFound env owner name

/-- A method that is inherited is copied, so that the ancestor keeps its own visibility. The copy
keeps its owner. -/
def setVisibility (env : FrameId) (owner : ModuleId) (name : String) (visibility : Visibility) :
    Run Unit := do
  match ← read fun m => Method.defined? (m.hierarchy.findMethod owner name) with
  | some method =>
    let method ← stamp { method with visibility }
    modifyHierarchy fun h => h.defineMethod owner method
  | none => failNotFound env owner name

/-- A name of more than one byte that starts with one at sign. -/
def isIvarName (name : String) : Bool :=
  match name.toList with
  | '@' :: c :: _ => c != '@'
  | _ => false

def checkIvarName (env : FrameId) (name : String) : Run Unit := do
  if isIvarName name then return () else fail env (.invalidIvarName name)

/-- A variable that was not set is nil, and so is every variable of a number. -/
def ivarGet (env : FrameId) (receiver : Value) (name : String) : Run Value := do
  checkIvarName env name
  let found ← read fun m => ((m.unboxed? receiver).bind m.heap.get?).bind fun o => o.ivars.get? name
  return found.getD .nil

def ivarSet (env : FrameId) (receiver : Value) (name : String) (value : Value) : Run Value := do
  checkIvarName env name
  match ← read fun m => m.unboxed? receiver with
  | some id =>
    modifyObject id fun o => { o with ivars := o.ivars.insert name value }
    return value
  | none =>
    let fault ← read fun m => Fault.frozen (m.className (m.classOf receiver)) (m.inspect receiver)
    fail env fault

def objectNumber (id : ObjectId) : Int64 :=
  (if id.number < Nat.pow 2 63 then Int64.ofNat id.number else Int64.maxValue) * 2

/-- Integers have odd identities of their own, everything else that of its object; a float is made
an object for that. Also says what the value has become. -/
def identityOf (v : Value) : Run (Int64 × Value) := do
  match ← read fun m => m.int? v with
  | some i => return (i * 2 + 1, v)
  | none =>
    let id ← hydrate v
    return (objectNumber id, .object id)

end ObjectRuntime.Run
