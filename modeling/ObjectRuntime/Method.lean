import ObjectRuntime.Arity
import ObjectRuntime.Operator
import ObjectRuntime.Program.Expr
import ObjectRuntime.Value
import ObjectRuntime.Visibility

/-!
# Methods and blocks

A method has a body that is built in, or code, either of them with or without a frame that it keeps;
or it is a placeholder that ends the search for its name. A block is code with the frame and the
receiver it was made under. Every method made gets a serial number of its own, which tells it from
another method with the same contents.
-/

set_option autoImplicit false

namespace ObjectRuntime

inductive Builtin where
  | accept
  | same
  | negate
  | send
  | publicSend
  | classOf
  | respondTo
  | objectId
  | isA
  | inspect
  | ivarGet
  | ivarSet
  | raise
  | catching
  | throw
  | moduleName
  | includeModule
  | methodDefined
  | defineMethod
  | undefMethod
  | removeMethod
  | setVisibility (visibility : Visibility)
  | new
  | allocate
  | superclass
  | operator (op : Operator)
  | exceptionSetup
  | exceptionMessage
  | exceptionBacktrace
deriving DecidableEq

inductive Entry where
  | builtin (method : Builtin)
  | code (body : Expr)

inductive Body where
  | native (entry : Entry)
  | closure (entry : Entry) (frame : FrameId)
  | undefined

structure Method where
  name : String
  owner : ModuleId
  arity : Arity
  visibility : Visibility
  body : Body
  /-- Set on the numeric methods that dispatch may apply directly. -/
  operator : Option Operator
  serial : Nat

structure Block where
  entry : Entry
  frame : FrameId
  arity : Arity
  receiver : Value

namespace Body

def isUndefined : Body → Bool
  | undefined => true
  | native _ | closure _ _ => false

def kind : Body → String
  | native _ => "native"
  | closure _ _ => "closure"
  | undefined => "undefined"

def frame? : Body → Option FrameId
  | closure _ frame => some frame
  | native _ | undefined => none

end Body

namespace Method

/-- A public method without an operator. -/
def plain (name : String) (owner : ModuleId) (arity : Arity) (body : Body) : Method where
  name := name
  owner := owner
  arity := arity
  visibility := .isPublic
  body := body
  operator := none
  serial := 0

def ofBlock (name : String) (owner : ModuleId) (block : Block) : Method :=
  plain name owner block.arity (.closure block.entry block.frame)

/-- The placeholder that ends the search for a name. -/
def undefined (name : String) (owner : ModuleId) : Method :=
  plain name owner (.atLeast 0) .undefined

def isUndefined (m : Method) : Bool := m.body.isUndefined
def isPublic (m : Method) : Bool := m.visibility == .isPublic

/-- The same method object, not just the same contents. -/
def isIdentical (a b : Method) : Bool := a.serial == b.serial

end Method

def Method.defined? (m : Option Method) : Option Method := m.filter fun m => !m.isUndefined

end ObjectRuntime
