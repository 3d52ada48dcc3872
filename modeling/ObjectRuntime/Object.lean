import ObjectRuntime.Bindings
import ObjectRuntime.Method

/-!
# Objects

An object has a class, a payload that says what kind of thing it is, instance variables, and
methods of its own.
-/

set_option autoImplicit false

namespace ObjectRuntime

structure ExceptionData where
  message : String
  /-- The name that was not found, if the exception is about one. -/
  name : Option String
  /-- Innermost frame first; empty before the first raise. -/
  backtrace : List String

def ExceptionData.ofMessage (message : String) : ExceptionData where
  message := message
  name := none
  backtrace := []

inductive Payload where
  | plain
  | nil
  | true
  | false
  | int (value : Int64)
  | float (value : Binary64)
  | symbol (name : String)
  | text (content : String)
  | exception (data : ExceptionData)
  | module (id : ModuleId)
  | proc (block : Block)

structure Object where
  cls : ModuleId
  payload : Payload
  ivars : Bindings Value
  singletonMethods : Bindings Method

namespace Object

def ofPayload (cls : ModuleId) (payload : Payload) : Object where
  cls := cls
  payload := payload
  ivars := .empty
  singletonMethods := .empty

instance : Inhabited Object := ⟨ofPayload ⟨0⟩ .plain⟩

def exception? (o : Object) : Option ExceptionData :=
  match o.payload with
  | .exception data => some data
  | _ => none

def module? (o : Object) : Option ModuleId :=
  match o.payload with
  | .module id => some id
  | _ => none

/-- A number that was made an object. It has no variables and no methods of its own, as if it were
still immediate. -/
def isBoxedNumber (o : Object) : Bool :=
  match o.payload with
  | .int _ | .float _ => Bool.true
  | _ => Bool.false

def mapException (o : Object) (f : ExceptionData → ExceptionData) : Object :=
  match o.payload with
  | .exception data => { o with payload := .exception (f data) }
  | _ => o

end Object

end ObjectRuntime
