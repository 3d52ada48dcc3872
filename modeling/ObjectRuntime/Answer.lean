import ObjectRuntime.Counters
import ObjectRuntime.Frame.Basic
import ObjectRuntime.Hierarchy.Basic
import ObjectRuntime.Report
import ObjectRuntime.Settings

/-!
# Answers

What a program or its observer gets to see of the machine: values without identities, methods,
frames and modules by their names, and the outcome of a step. An answer holds the state of the
moment at which it was taken.
-/

set_option autoImplicit false

namespace ObjectRuntime

inductive View where
  | int (value : Int64)
  | float (value : Binary64)
  | boxedInt (value : Int64)
  | boxedFloat (value : Binary64)
  | nil
  | bool (value : Bool)
  | symbol (name : String)
  | text (content : String) (className : String)
  | exception (className message : String)
  | module (name : String)
  | proc (arity : Arity)
  | plain (className : String)

structure MethodView where
  name : String
  /-- Absent when the owner has no name. -/
  owner : Option String
  arity : Arity
  visibility : Visibility
  kind : String
  operator : Option Operator
  isUndefined : Bool

def Method.view (m : Method) (owner : Option String) : MethodView where
  name := m.name
  owner := owner
  arity := m.arity
  visibility := m.visibility
  kind := m.body.kind
  operator := m.operator
  isUndefined := m.isUndefined

structure ExceptionView where
  className : String
  message : String
  name : Option String
  backtrace : List String

/-- The simple facts about a value; numbers are seen through their boxes. -/
structure Facts where
  isImmediate : Bool
  isImmediateInt : Bool
  isImmediateFloat : Bool
  isTruthy : Bool
  isNil : Bool
  int : Option Int64
  float : Option Binary64
  symbol : Option String
  isException : Bool
  isBoxedNumber : Bool
  module : Option String
  hasSingletons : Bool

structure ModuleView where
  name : String
  kind : ModuleKind
  index : Nat
  superclass : Option String
  constants : List String
  metaclass : String

structure BlockView where
  arity : Arity
  receiver : View
  frameKind : FrameKind

structure FrameView where
  kind : FrameKind
  outer : Option FrameKind
  caller : Option FrameKind
  position : Option Position
  method : Option String
  hasBlock : Bool
  receiver : Option View
  ancestorIndex : Option Nat
  methodFrame : Option FrameKind
  inMethod : Option String
  methodReceiver : Option (Option View)
  currentBlock : Option BlockView
  isTarget : Bool
  exception : Option View
  isCurrent : Bool

structure MarksView where
  objects : Nat
  modules : Nat
  registers : List Bool
  currentFrame : Bool

inductive Answer where
  | value (view : View)
  | text (content : String)
  | optionalText (content : Option String)
  | flag (value : Bool)
  | number (value : Nat)
  | names (list : List String)
  | optionalNames (list : Option (List String))
  | facts (facts : Facts)
  | exception (data : Option ExceptionView)
  | method (method : Option MethodView)
  | module (info : ModuleView)
  | modules (names : List String)
  | binding (value : Option View)
  | backtrace (lines : List String)
  | frame (frame : FrameView)
  | counters (counters : Option Counters)
  | settings (settings : Settings)
  | reachable (objects : Option Nat)
  | collector (enabled pending : Bool)
  | marks (marks : MarksView)
  | uncaught (report : Report)

inductive Outcome where
  | value (view : View)
  | raised (exception : ExceptionView) (targeted : Bool)
  | threw (tag value : View)
  | exhausted
  /-- The step was not a program. -/
  | malformed

end ObjectRuntime
