import ObjectRuntime.Machine.Basic
import ObjectRuntime.Number.FloatText
import ObjectRuntime.Text.Quoted
import ObjectRuntime.Value.Debug

/-!
# Reading the machine

What can be said of values, modules and frames in a given state: payloads, classes, the method a
name resolves to, and the texts in which messages speak of them.
-/

set_option autoImplicit false

namespace ObjectRuntime

def Payload.debugText : Payload → String
  | .plain => "Instance"
  | .nil => "Nil"
  | .true => "True"
  | .false => "False"
  | .int i => Value.debugText (fun _ => "") (.int i)
  | .float x => Value.debugText (fun _ => "") (.float x)
  | .symbol name => "Symbol(" ++ name ++ ")"
  | .text content => "String(" ++ Text.quote content ++ ")"
  | .exception data => "Exception(" ++ Text.quote data.message ++ ")"
  | .module cls => "Module(" ++ cls.debugText ++ ")"
  | .proc _ => "Proc"

namespace Machine

variable (m : Machine)

/-! ### Values -/

def object? (v : Value) : Option Object := v.object?.bind m.heap.get?

def payload? (v : Value) : Option Payload := (m.object? v).map (·.payload)

def int? : Value → Option Int64
  | .int i => some i
  | .float _ => none
  | v =>
    match m.payload? v with
    | some (.int i) => some i
    | _ => none

def float? : Value → Option Binary64
  | .float x => some x
  | .int _ => none
  | v =>
    match m.payload? v with
    | some (.float x) => some x
    | _ => none

def symbol? (v : Value) : Option String :=
  match m.payload? v with
  | some (.symbol name) => some name
  | _ => none

def text? (v : Value) : Option String :=
  match m.payload? v with
  | some (.text content) => some content
  | _ => none

def module? (v : Value) : Option ModuleId := (m.object? v).bind Object.module?

def exception? (v : Value) : Option ExceptionData := (m.object? v).bind Object.exception?

def block? (v : Value) : Option Block :=
  match m.payload? v with
  | some (.proc block) => some block
  | _ => none

def isException (v : Value) : Bool := (m.exception? v).isSome

def isNil (v : Value) : Bool :=
  match m.payload? v with
  | some .nil => true
  | _ => false

def truthy (v : Value) : Bool :=
  match m.payload? v with
  | some .nil | some .false => false
  | _ => true

/-- The object behind a reference that may have variables and methods of its own. -/
def unboxed? (v : Value) : Option ObjectId :=
  v.object?.filter fun id => !((m.heap.get? id).map Object.isBoxedNumber).getD true

/-- Numbers are equal by value, boxed or not; anything else only to itself. -/
def equal (a b : Value) : Bool :=
  match a, b with
  | .object i, .object j => i == j || numericallyEqual a b
  | _, _ => numericallyEqual a b
where
  numericallyEqual (a b : Value) : Bool :=
    match m.int? a, m.int? b with
    | some x, some y => x == y
    | _, _ =>
      match m.float? a, m.float? b with
      | some x, some y => x.equal y
      | _, _ => false

/-! ### Classes and methods -/

def classOf : Value → ModuleId
  | .int _ => Core.integer.id
  | .float _ => Core.float.id
  | .object id => ((m.heap.get? id).map (·.cls)).getD Core.object.id

def moduleName? (id : ModuleId) : Option String := (m.hierarchy.get? id).bind (·.name)

def className (id : ModuleId) : String :=
  match m.moduleName? id with
  | some name => name
  | none =>
    let noun := if m.hierarchy.isClass id then "Class" else "Module"
    "#<" ++ noun ++ ":" ++ id.debugText ++ ">"

def moduleNoun (id : ModuleId) : String := if m.hierarchy.isClass id then "class" else "module"

def isA (v : Value) (id : ModuleId) : Bool := m.hierarchy.inherits (m.classOf v) id

def moduleObject (id : ModuleId) : Value :=
  match m.hierarchy.get? id with
  | some entry => .object entry.object
  | none => .nil

def singletonMethod? (id : ObjectId) (name : String) : Option Method :=
  (m.heap.get? id).bind fun o => o.singletonMethods.get? name

/-- The object's own methods, then, for a class or a module, its class-level methods and those of
the classes above it, then the methods of its class. -/
def resolve (id : ObjectId) (name : String) : Option Method :=
  match m.singletonMethod? id name with
  | some method => some method
  | none =>
    match (m.module? (.object id)).bind fun cls => m.hierarchy.findClassMethod cls name with
    | some method => some method
    | none => m.hierarchy.findMethod (m.classOf (.object id)) name

def respondsTo (v : Value) (name : String) (includePrivate : Bool) : Bool :=
  let found :=
    match v with
    | .object id => m.resolve id name
    | _ => m.hierarchy.findMethod (m.classOf v) name
  match Method.defined? found with
  | some method => includePrivate || method.isPublic
  | none => false

/-! ### Texts -/

def inspect : Value → String
  | .int i => toString i.toInt
  | .float x => Number.inspectStyle.render x
  | .object id =>
    match m.heap.get? id with
    | none => ""
    | some o =>
      match o.payload with
      | .nil => "nil"
      | .true => "true"
      | .false => "false"
      | .int i => toString i.toInt
      | .float x => Number.inspectStyle.render x
      | .symbol name => ":" ++ name
      | .text content => Text.quote content
      | .exception data => "#<" ++ m.className o.cls ++ ": " ++ data.message ++ ">"
      | .module cls => m.className cls
      | .proc _ => "#<Proc>"
      | .plain => "#<" ++ m.className o.cls ++ ">"

/-- A string's own text, and the inspection of anything else. -/
def messageText (v : Value) : String := (m.text? v).getD (m.inspect v)

def debugText (v : Value) : String :=
  v.debugText fun id => ((m.heap.get? id).map fun o => o.payload.debugText).getD ""

def describeReceiver (v : Value) : String :=
  match m.payload? v with
  | some .nil => "nil"
  | some .true => "true"
  | some .false => "false"
  | some (.module id) => m.moduleNoun id ++ " " ++ m.className id
  | _ => "an instance of " ++ m.className (m.classOf v)

def describeOperand (v : Value) : String :=
  match m.payload? v with
  | some .nil | some .true | some .false => m.inspect v
  | _ => m.className (m.classOf v)

/-! ### Frames -/

def frameLabel (id : FrameId) : String :=
  let inMethod := ((m.frames.currentMethod? id).map (·.name)).getD "<main>"
  match m.frames.kindOf id with
  | .block => "block in " ++ inMethod
  | .method | .closureMethod => inMethod
  | .top | .moduleBody => "<main>"

def frameLine (id : FrameId) : String :=
  let place :=
    match m.frames.position id with
    | some p => p.file ++ ":" ++ toString p.line
    | none => m.settings.scriptName
  place ++ ":in '" ++ m.frameLabel id ++ "'"

/-- One line for the frame and for each that called it, innermost first. -/
def backtrace (id : FrameId) : List String := (m.frames.callers id).map m.frameLine

/-! ### Views -/

def view : Value → View
  | .int i => .int i
  | .float x => .float x
  | .object id =>
    match m.heap.get? id with
    | none => .nil
    | some o =>
      match o.payload with
      | .nil => .nil
      | .true => .bool Bool.true
      | .false => .bool Bool.false
      | .int i => .boxedInt i
      | .float x => .boxedFloat x
      | .symbol name => .symbol name
      | .text content => .text content (m.className o.cls)
      | .exception data => .exception (m.className o.cls) data.message
      | .module cls => .module (m.className cls)
      | .proc block => .proc block.arity
      | .plain => .plain (m.className o.cls)

def methodView (method : Method) : MethodView := method.view (some (m.className method.owner))

def exceptionView? (id : ObjectId) : Option ExceptionView :=
  (m.heap.get? id).bind fun o => o.exception?.map fun data =>
    { className := m.className o.cls
      message := data.message
      name := data.name
      backtrace := data.backtrace }

end Machine

end ObjectRuntime
