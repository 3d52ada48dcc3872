import ObjectRuntime.Answer
import ObjectRuntime.Interner
import ObjectRuntime.Transcript

/-!
# Driving a hierarchy

A hierarchy without a machine around it. Modules are known by their places. The names that the steps
mention are interned when they come up, since diagnostics show a method's name by its number.
-/

set_option autoImplicit false

namespace ObjectRuntime

structure HierarchyState where
  hierarchy : Hierarchy
  interner : Interner

/-- The table that a new method goes into, and whether it keeps a frame. -/
inductive Placement where
  | ordinary
  | closure
  | classLevel
deriving DecidableEq

inductive HierarchyStep where
  | create (name : Option String) (kind : ModuleKind) (superclass : Option ModuleId)
  | define (placement : Placement) (owner : ModuleId) (name : String) (arity : Arity)
      (visibility : Visibility)
  /-- Puts a copy of the method found into the table of the module it was looked up from. -/
  | retag (id : ModuleId) (name : String) (visibility : Visibility)
  | remove (owner : ModuleId) (name : String)
  | undefine (owner : ModuleId) (name : String)
  | includeModule (target id : ModuleId)
  | method (search : MethodSearch) (id : ModuleId) (name : String)
  | methodAfter (cls owner : ModuleId) (name : String) (recorded : Option Nat)
  | classMethodAfter (id owner : ModuleId) (name : String)
  | ancestors (id : ModuleId)
  | superclasses (id : ModuleId)
  | includes (id : ModuleId)
  | inherits (id ancestor : ModuleId)
  | methodNames (id : ModuleId)
  | info (id : ModuleId)
  | size
  | debug (id : ModuleId) (name : String)

inductive HierarchyAnswer where
  | done
  | text (text : String)
  | optionalText (text : Option String)
  | method (method : Option MethodView)
  | methodAt (entry : Option (Nat × MethodView))
  | included (result : Except Hierarchy.IncludeError Unit)
  | modules (list : List ModuleId)
  | names (list : List String)
  | flag (value : Bool)
  | info (name : Option String) (isClass : Bool) (superclass : Option ModuleId) (object : ObjectId)
  | size (modules : Nat)

def Method.debugText (m : Method) (number : Nat) : String :=
  "Method \x7b name: " ++ Interner.debugText number ++ ", owner: " ++ m.owner.debugText ++
    ", arity: " ++ m.arity.debugText ++ ", visibility: " ++ m.visibility.debugText ++
    ", body: \"" ++ m.body.kind ++ "\" \x7d"

namespace HierarchyStep

def name? : HierarchyStep → Option String
  | create name _ _ => name
  | define _ _ name _ _ | retag _ name _ | remove _ name | undefine _ name | method _ _ name
  | methodAfter _ _ name _ | classMethodAfter _ _ name | debug _ name => some name
  | includeModule _ _ | ancestors _ | superclasses _ | includes _ | inherits _ _ | methodNames _
  | info _ | size => none

end HierarchyStep

namespace HierarchyState

def empty : HierarchyState := ⟨.empty, .withCore⟩

def view (h : Hierarchy) (method : Method) : MethodView :=
  method.view ((h.get? method.owner).bind (·.name))

def fresh (h : Hierarchy) (name : Option String) (kind : ModuleKind)
    (superclass : Option ModuleId) : Module where
  name := name
  kind := kind
  superclass := superclass
  includes := []
  methods := .empty
  classMethods := .empty
  frame := .main
  object := ⟨h.size⟩

/-- The body of the methods that steps define; nothing runs it. -/
def body (placement : Placement) : Body :=
  match placement with
  | .ordinary | .classLevel => .native (.builtin .accept)
  | .closure => .closure (.builtin .accept) .main

def define (h : Hierarchy) (placement : Placement) (method : Method) : Hierarchy :=
  match placement with
  | .ordinary | .closure => h.defineMethod method.owner method
  | .classLevel => h.defineClassMethod method.owner method

def performOn (h : Hierarchy) (i : Interner) : HierarchyStep → HierarchyAnswer × Hierarchy
  | .create name kind superclass =>
    (.text h.next.debugText, h.create (fresh h name kind superclass))
  | .define placement owner name arity visibility =>
    let method := { Method.plain name owner arity (body placement) with visibility }
    (.method (some (view h method)), define h placement method)
  | .retag id name visibility =>
    match h.findMethod id name with
    | some method =>
      let copy := { method with visibility }
      (.method (some (view h copy)), h.defineMethod id copy)
    | none => (.method none, h)
  | .remove owner name =>
    (.method ((h.ownMethod? owner name).map (view h)), h.removeMethod owner name)
  | .undefine owner name => (.done, h.defineMethod owner (.undefined name owner))
  | .includeModule target id =>
    match h.includeModule target id with
    | .ok h => (.included (.ok ()), h)
    | .error e => (.included (.error e), h)
  | .method table id name => (.method ((h.search table id name).map (view h)), h)
  | .methodAfter cls owner name recorded =>
    (.methodAt ((h.findMethodAfter cls owner name recorded).map fun entry =>
      (entry.1, view h entry.2)), h)
  | .classMethodAfter id owner name =>
    (.method ((h.findClassMethodAfter id owner name).map (view h)), h)
  | .ancestors id => (.modules (h.ancestors id), h)
  | .superclasses id => (.modules (h.superclasses id), h)
  | .includes id => (.modules (h.includesOf id).reverse, h)
  | .inherits id ancestor => (.flag (h.inherits id ancestor), h)
  | .methodNames id => (.names (((h.get? id).map fun m => m.methods.sortedKeys).getD []), h)
  | .info id =>
    match h.get? id with
    | some m => (.info m.name m.isClass m.superclass m.object, h)
    | none => (.done, h)
  | .size => (.size h.size, h)
  | .debug id name =>
    (.optionalText ((h.findMethod id name).map fun method =>
      method.debugText ((i.get? method.name).getD Interner.emptyNumber)), h)

def named (i : Interner) : Option String → Option Interner
  | some name => (i.intern name).toOption.map (·.2)
  | none => some i

def perform (s : HierarchyState) (step : HierarchyStep) :
    Option (HierarchyAnswer × HierarchyState) := do
  let interner ← named s.interner step.name?
  let (answer, hierarchy) := performOn s.hierarchy interner step
  return (answer, { hierarchy, interner })

def answers (steps : List HierarchyStep) : Option (List HierarchyAnswer) :=
  transcript perform empty steps

end HierarchyState

end ObjectRuntime
