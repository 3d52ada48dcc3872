import ObjectRuntime.Arity
import ObjectRuntime.Core
import ObjectRuntime.Machine.Basic

/-!
# Faults

The causes for which the runtime itself raises an exception. A cause decides the class and the
message of the exception, and the name it carries if it is about a name that was not found. The
texts in a cause describe receivers, operands and modules.
-/

set_option autoImplicit false

namespace ObjectRuntime

inductive Fault where
  /-- An error of any class that a program asks for. -/
  | raised (cls : ModuleId) (message : String)
  | runtimeError (message : String)
  | typeError (message : String)
  | argumentError (message : String)
  | nameError (message name : String)
  | noMethodError (message name : String)
  | wrongArity (given : Nat) (expected : Arity)
  | methodMissing (reason : MissReason) (selector subject : String)
  | noSuperMethod (selector subject : String)
  | superOutsideMethod
  | stackTooDeep
  | zeroDivision
  | integerOverflow
  | notANumber (shown : String)
  | incomparable (left right : String)
  | notCoercible (right left : String)
  | frozen (className shown : String)
  | notAnException
  | receiverNotAnException
  | unhandled
  | uncaughtThrow (tag : String)
  | noBlockGiven
  | noBlockToDefine
  | notAClass (name : String)
  | notAModule (name : String)
  | superclassMismatch (name : String)
  | noSingleton
  | cyclicInclude
  | includesClass (className : String)
  | methodNotInTable (method module : String)
  | methodNotFound (method noun module : String)
  | invalidIvarName (name : String)
  | notASelector (shown : String)
  | receiverNotAModule (shown : String)
  | classRequired
  | noMethodName
  | noAllocator (className : String)
deriving DecidableEq

namespace Fault

def cls : Fault → ModuleId
  | raised cls _ => cls
  | runtimeError _ | superOutsideMethod | unhandled => Core.runtimeError.id
  | typeError _ | notANumber _ | notCoercible _ _ | notAnException | receiverNotAnException
  | notAClass _ | notAModule _ | superclassMismatch _ | noSingleton | includesClass _
  | notASelector _ | receiverNotAModule _ | classRequired | noAllocator _ => Core.typeError.id
  | argumentError _ | wrongArity _ _ | incomparable _ _ | noBlockToDefine | cyclicInclude
  | noMethodName => Core.argumentError.id
  | nameError _ _ | methodNotInTable _ _ | methodNotFound _ _ _ | invalidIvarName _ =>
    Core.nameError.id
  | noMethodError _ _ | methodMissing _ _ _ | noSuperMethod _ _ => Core.noMethodError.id
  | stackTooDeep => Core.systemStackError.id
  | zeroDivision => Core.zeroDivisionError.id
  | integerOverflow => Core.rangeError.id
  | frozen _ _ => Core.frozenError.id
  | uncaughtThrow _ => Core.uncaughtThrowError.id
  | noBlockGiven => Core.localJumpError.id

private def quoted (text : String) : String := "'" ++ text ++ "'"

def message : Fault → String
  | raised _ message | runtimeError message | typeError message | argumentError message
  | nameError message _ | noMethodError message _ => message
  | wrongArity given expected =>
    "wrong number of arguments (given " ++ toString given ++ ", expected " ++ expected.text ++ ")"
  | methodMissing .notFound selector subject =>
    "undefined method " ++ quoted selector ++ " for " ++ subject
  | methodMissing .hidden selector subject =>
    "private method " ++ quoted selector ++ " called for " ++ subject
  | methodMissing .guarded selector subject =>
    "protected method " ++ quoted selector ++ " called for " ++ subject
  | noSuperMethod selector subject =>
    "super: no superclass method " ++ quoted selector ++ " for " ++ subject
  | superOutsideMethod => "super called outside of method"
  | stackTooDeep => "stack level too deep"
  | zeroDivision => "divided by 0"
  | integerOverflow => "integer overflow"
  | notANumber shown => shown ++ " is not a number"
  | incomparable left right => "comparison of " ++ left ++ " with " ++ right ++ " failed"
  | notCoercible right left => right ++ " can't be coerced into " ++ left
  | frozen className shown => "can't modify frozen " ++ className ++ ": " ++ shown
  | notAnException => "exception class/object expected"
  | receiverNotAnException => "not an exception"
  | unhandled => "unhandled exception"
  | uncaughtThrow tag => "uncaught throw " ++ tag
  | noBlockGiven => "no block given (yield)"
  | noBlockToDefine => "tried to create Proc object without a block"
  | notAClass name => name ++ " is not a class"
  | notAModule name => name ++ " is not a module"
  | superclassMismatch name => "superclass mismatch for class " ++ name
  | noSingleton => "can't define singleton"
  | cyclicInclude => "cyclic include detected"
  | includesClass className => "wrong argument type Class (expected Module): " ++ className
  | methodNotInTable method module => "method " ++ quoted method ++ " not defined in " ++ module
  | methodNotFound method noun module =>
    "undefined method " ++ quoted method ++ " for " ++ noun ++ " " ++ quoted module
  | invalidIvarName name => quoted name ++ " is not allowed as an instance variable name"
  | notASelector shown => shown ++ " is not a symbol nor a string"
  | receiverNotAModule shown => shown ++ " is not a class/module"
  | classRequired => "class or module required"
  | noMethodName => "no method name given"
  | noAllocator className => "allocator undefined for " ++ className

def name? : Fault → Option String
  | nameError _ name | noMethodError _ name | methodMissing _ name _ | noSuperMethod name _
  | methodNotInTable name _ | methodNotFound name _ _ | invalidIvarName name => some name
  | _ => none

def data (f : Fault) : ExceptionData where
  message := f.message
  name := f.name?
  backtrace := []

end Fault

end ObjectRuntime
