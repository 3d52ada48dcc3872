import ObjectRuntime.Arity
import ObjectRuntime.Frame.Kind
import ObjectRuntime.Number.Binary64
import ObjectRuntime.Program.Question
import ObjectRuntime.Visibility

/-!
# Programs

A program is an expression. Most of its forms evaluate their operands from left to right and then
take one step of the machine; these are primitives. The other forms decide which operands are
evaluated, in which frame, and what becomes of a signal that ends them. The bodies of methods and
blocks are expressions again.
-/

set_option autoImplicit false

namespace ObjectRuntime

inductive Literal where
  | nil
  | bool (value : Bool)
  | int (value : Int64)
  | float (value : Binary64)
  | symbol (name : String)
  | text (content : String)

/-- The lexical frame in which a class or a module is opened: the main one, the current one, or that
of a module given as the last operand. -/
inductive Place where
  | main
  | here
  | inModule
deriving DecidableEq

/-- Steps that run while a pause holds collection off. A pause inside a pause is a step. -/
inductive PauseStep where
  | hydrate (register : String)
  | collect
  | collectorState
  | enable
  | paused (steps : List PauseStep)

inductive Cause where
  | runtimeError (message : String)
  | typeError (message : String)
  | argumentError (message : String)
  | wrongArity (given : Nat) (expected : Arity)
  | nameError (message name : String)
  | noMethodError (message name : String)
  | invalidIvarName (name : String)
  /-- Of a receiver that is an operand. -/
  | undefinedMethodCalled (name : String)
  | zeroDivision
  | integerOverflow
  | stackTooDeep
  /-- Of a receiver that is an operand. -/
  | frozen

inductive Prim where
  | self
  | argument (position : Nat)
  | argumentCount
  | blockGiven
  | mainObject
  | moduleObject
  | keep (register : String)
  | forget (register : String)
  | log
  | ask (question : Question)
  | hydrate (register : String)
  | objectId (register : String)
  | openClass (name : String) (hasSuperclass : Bool) (place : Place)
  | openModule (name : String) (place : Place)
  | defineUndefined (name : String)
  | defineUndefinedSingleton (name : String) (arity : Arity)
  | alias (old new : String) (arity : Arity)
  | includeModule
  | removeMethod (name : String)
  | undefMethod (name : String)
  | setVisibility (name : String) (visibility : Visibility)
  | newObject
  | variable (name : String)
  | assign (name : String)
  | define (name : String)
  | globalGet (name : String)
  | globalSet (name : String)
  | ivarGet (name : String)
  | ivarSet (name : String)
  | setPosition (file : String) (line : Nat)
  | setLine (line : Nat)
  | delivered
  | newException (message : String)
  | raise
  | raiseNew (message : String)
  | throw
  | fail (cause : Cause)
  | resignal (key : String)
  | setCollecting (enabled : Bool)
  | paused (steps : List PauseStep)

/-- Whether a method body keeps the frame in which it was defined. -/
inductive Capture where
  | none
  | frame
deriving DecidableEq

mutual

inductive Expr where
  | literal (value : Literal)
  /-- A constant of the main frame. -/
  | constant (name : String)
  | register (name : String)
  | prim (step : Prim) (operands : Args)
  | seq (first second : Expr)
  | cond (test yes no : Expr)
  | times (count : Nat) (body : Expr)
  /-- When the receiver is a register, the call may leave another value in it. -/
  | send (kind : SendKind) (receiver : Expr) (selector : String) (args : Args) (block : BlockArg)
  /-- A visible binding if there is one and no argument is given, else a send. -/
  | identifier (receiver : Expr) (name : String) (args : Args)
  | callSuper (args : Args) (block : BlockArg)
  /-- The method of a module, run on any receiver. -/
  | invoke (owner : Expr) (name : String) (receiver : Expr) (args : Args) (block : BlockArg)
  | yield (args : Args)
  | call (block : BlockArg) (args : Args)
  | makeProc (arity : Arity) (body : Expr)
  | defineMethod (owner : Expr) (name : String) (arity : Arity) (capture : Capture) (body : Expr)
      (visibility : Visibility)
  | defineFromBlock (owner : Expr) (name : String) (block : BlockArg)
  | defineSingleton (target : Expr) (name : String) (arity : Arity) (capture : Capture)
      (body : Expr)
  | within (module : Expr) (body : Expr)
  | inFrame (kind : FrameKind) (linked : Bool) (body : Expr)
  | rescue (body handler : Expr)
  | catching (tag body : Expr)
  | ensure (body cleanup : Expr)
  /-- A signal that ends the body is kept under the key, and the value is nil either way. -/
  | stash (key : String) (body : Expr)
  | runMain (body : Expr)

inductive Args where
  | nil
  | cons (first : Expr) (rest : Args)
  /-- The arguments of the running body from a position on. -/
  | splice (start : Nat) (rest : Args)

inductive BlockArg where
  | none
  | literal (arity : Arity) (body : Expr)
  | passed
  | current
  | ofProc (value : Expr)

end

end ObjectRuntime
