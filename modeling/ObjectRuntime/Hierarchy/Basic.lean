import ObjectRuntime.Bindings
import ObjectRuntime.Chain
import ObjectRuntime.Method

/-!
# The hierarchy of classes and modules

Classes and modules are kept in one table. A class has at most one superclass, which was made before
it; classes and modules include modules. The order in which a method is searched is the own table,
then the included modules, the one included last first and each with its own includes, then the same
from the superclass on.

`findMethod` searches in that order and `ancestors` lists it; neither is defined by the other.
-/

set_option autoImplicit false

namespace ObjectRuntime

inductive ModuleKind where
  | classKind
  | moduleKind
deriving DecidableEq

def ModuleKind.name : ModuleKind → String
  | classKind => "Class"
  | moduleKind => "Module"

structure Module where
  name : Option String
  kind : ModuleKind
  superclass : Option ModuleId
  /-- The module included last comes first. -/
  includes : List ModuleId
  methods : Bindings Method
  classMethods : Bindings Method
  /-- The frame that holds the constants. -/
  frame : FrameId
  object : ObjectId

def Module.isClass (m : Module) : Bool := m.kind == .classKind

structure Hierarchy where
  modules : Array Module

namespace Hierarchy

def empty : Hierarchy := ⟨#[]⟩
def size (h : Hierarchy) : Nat := h.modules.size
def get? (h : Hierarchy) (id : ModuleId) : Option Module := h.modules[id.index]?
def next (h : Hierarchy) : ModuleId := ⟨h.size⟩
def create (h : Hierarchy) (m : Module) : Hierarchy := ⟨h.modules.push m⟩

def modify (h : Hierarchy) (id : ModuleId) (f : Module → Module) : Hierarchy :=
  ⟨h.modules.modify id.index f⟩

def isClass (h : Hierarchy) (id : ModuleId) : Bool := ((h.get? id).map Module.isClass).getD false

def superclass? (h : Hierarchy) (id : ModuleId) : Option ModuleId :=
  (h.get? id).bind (·.superclass)

def includesOf (h : Hierarchy) (id : ModuleId) : List ModuleId :=
  ((h.get? id).map (·.includes)).getD []

def ownMethod? (h : Hierarchy) (id : ModuleId) (name : String) : Option Method :=
  (h.get? id).bind fun m => m.methods.get? name

def ownClassMethod? (h : Hierarchy) (id : ModuleId) (name : String) : Option Method :=
  (h.get? id).bind fun m => m.classMethods.get? name

def superclasses (h : Hierarchy) (id : ModuleId) : List ModuleId :=
  chain ModuleId.index h.superclass? id

/-- The module, then what it includes, down to a depth that the number of modules bounds. -/
def expandTo (h : Hierarchy) : Nat → ModuleId → List ModuleId
  | 0, _ => []
  | depth + 1, id => id :: (h.includesOf id).flatMap (expandTo h depth)

def expand (h : Hierarchy) (id : ModuleId) : List ModuleId := h.expandTo h.size id

/-- All places where a method is searched, in order. -/
def ancestors (h : Hierarchy) (id : ModuleId) : List ModuleId :=
  (h.superclasses id).flatMap h.expand

def inherits (h : Hierarchy) (id ancestor : ModuleId) : Bool :=
  id == ancestor || (h.ancestors id).contains ancestor

def lookupTo (h : Hierarchy) (name : String) : Nat → ModuleId → Option Method
  | 0, _ => none
  | depth + 1, id =>
    match h.ownMethod? id name with
    | some m => some m
    | none => (h.includesOf id).findSome? (lookupTo h name depth)

def lookupIn (h : Hierarchy) (id : ModuleId) (name : String) : Option Method :=
  h.lookupTo name h.size id

/-- The method may be a placeholder, which its user takes for a miss. -/
def findMethod (h : Hierarchy) (cls : ModuleId) (name : String) : Option Method :=
  (h.superclasses cls).findSome? fun id => h.lookupIn id name

def findClassMethod (h : Hierarchy) (id : ModuleId) (name : String) : Option Method :=
  (h.superclasses id).findSome? fun cls => h.ownClassMethod? cls name

def search (h : Hierarchy) (table : MethodSearch) (id : ModuleId) (name : String) : Option Method :=
  match table with
  | .instanceMethod => h.findMethod id name
  | .ownInstanceMethod => h.ownMethod? id name
  | .classMethod => h.findClassMethod id name
  | .ownClassMethod => h.ownClassMethod? id name

def firstEntry (h : Hierarchy) (name : String) : Nat → List ModuleId → Option (Nat × Method)
  | _, [] => none
  | place, id :: rest =>
    match h.ownMethod? id name with
    | some m => some (place, m)
    | none => firstEntry h name (place + 1) rest

/-- Where a method of `owner` was found: the recorded place if `owner` stands there, else the first
place of `owner`. -/
def placeOf (path : List ModuleId) (owner : ModuleId) (recorded : Option Nat) : Option Nat :=
  match recorded with
  | some place => if path[place]? = some owner then some place else path.idxOf? owner
  | none => path.idxOf? owner

def findMethodAfter (h : Hierarchy) (cls owner : ModuleId) (name : String) (recorded : Option Nat) :
    Option (Nat × Method) :=
  let path := h.ancestors cls
  (placeOf path owner recorded).bind fun place =>
    h.firstEntry name (place + 1) (path.drop (place + 1))

def findClassMethodAfter (h : Hierarchy) (id owner : ModuleId) (name : String) : Option Method :=
  (((h.superclasses id).dropWhile (· != owner)).drop 1).findSome? fun cls =>
    h.ownClassMethod? cls name

inductive IncludeError where
  | cyclic
  | notAModule
deriving DecidableEq

/-- The same module may be included more than once. -/
def includeModule (h : Hierarchy) (target id : ModuleId) : Except IncludeError Hierarchy :=
  if h.isClass id then .error .notAModule
  else if id = target ∨ target ∈ h.ancestors id then .error .cyclic
  else .ok (h.modify target fun m => { m with includes := id :: m.includes })

def defineMethod (h : Hierarchy) (owner : ModuleId) (method : Method) : Hierarchy :=
  h.modify owner fun m => { m with methods := m.methods.insert method.name method }

def defineClassMethod (h : Hierarchy) (owner : ModuleId) (method : Method) : Hierarchy :=
  h.modify owner fun m => { m with classMethods := m.classMethods.insert method.name method }

/-- The search for the name goes on to the ancestors then. -/
def removeMethod (h : Hierarchy) (owner : ModuleId) (name : String) : Hierarchy :=
  h.modify owner fun m => { m with methods := m.methods.erase name }

/-- Whether a class or module answers the name, placeholders not counted. -/
def isMethodDefined (h : Hierarchy) (owner : ModuleId) (name : String) : Bool :=
  (Method.defined? (h.findMethod owner name)).isSome

end Hierarchy

end ObjectRuntime
