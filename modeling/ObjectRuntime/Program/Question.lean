/-!
# Questions

What a program can ask about the state of the machine without changing it, apart from the operands
it is asked about. The answers go to the log.
-/

set_option autoImplicit false

namespace ObjectRuntime

/-- Which method table of a module is searched, and whether its ancestors are searched too. -/
inductive MethodSearch where
  | instanceMethod
  | ownInstanceMethod
  | classMethod
  | ownClassMethod
deriving DecidableEq

inductive Question where
  | inspect
  | debug
  | describe
  | classOf
  | same
  | equal
  | facts
  | ivarNames
  | exceptionData
  | isA
  | respondTo (name : String) (includePrivate : Bool)
  | resolve (name : String)
  | singleton (name : String)
  | ancestors
  | superclasses
  | includes
  | inherits
  | methodNames
  | method (search : MethodSearch) (name : String)
  | moduleInfo
  | moduleCount
  | lookup (name : String)
  | localBinding (name : String)
  | localNames
  | backtrace
  | depth
  | frame
  | isGlobalDefined (name : String)
  | missReason
  | counters
  | counterReport
  | settings
  | allocations
  | collect
  | collectorState
  | mark (registers : List String)

end ObjectRuntime
