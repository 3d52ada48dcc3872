import ObjectRuntime.Hierarchy.Basic

/-!
# The core classes

The classes and modules that every machine starts with, in the order in which they are made. A class
comes after its superclass.
-/

set_option autoImplicit false

namespace ObjectRuntime

inductive Core where
  | basicObject
  | object
  | moduleClass
  | classClass
  | kernel
  | comparable
  | numeric
  | string
  | exception
  | standardError
  | nameError
  | argumentError
  | rangeError
  | runtimeError
  | nilClass
  | trueClass
  | falseClass
  | integer
  | float
  | symbol
  | array
  | hash
  | regexp
  | random
  | rational
  | binding
  | proc
  | scriptError
  | systemStackError
  | noMethodError
  | typeError
  | uncaughtThrowError
  | floatDomainError
  | zeroDivisionError
  | frozenError
  | localJumpError
deriving DecidableEq

namespace Core

def id (c : Core) : ModuleId := ⟨c.ctorIdx⟩

def all : List Core :=
  [basicObject, object, moduleClass, classClass, kernel, comparable, numeric, string, exception,
   standardError, nameError, argumentError, rangeError, runtimeError, nilClass, trueClass,
   falseClass, integer, float, symbol, array, hash, regexp, random, rational, binding, proc,
   scriptError, systemStackError, noMethodError, typeError, uncaughtThrowError, floatDomainError,
   zeroDivisionError, frozenError, localJumpError]

def name : Core → String
  | basicObject => "BasicObject"
  | object => "Object"
  | moduleClass => "Module"
  | classClass => "Class"
  | kernel => "Kernel"
  | comparable => "Comparable"
  | numeric => "Numeric"
  | string => "String"
  | exception => "Exception"
  | standardError => "StandardError"
  | nameError => "NameError"
  | argumentError => "ArgumentError"
  | rangeError => "RangeError"
  | runtimeError => "RuntimeError"
  | nilClass => "NilClass"
  | trueClass => "TrueClass"
  | falseClass => "FalseClass"
  | integer => "Integer"
  | float => "Float"
  | symbol => "Symbol"
  | array => "Array"
  | hash => "Hash"
  | regexp => "Regexp"
  | random => "Random"
  | rational => "Rational"
  | binding => "Binding"
  | proc => "Proc"
  | scriptError => "ScriptError"
  | systemStackError => "SystemStackError"
  | noMethodError => "NoMethodError"
  | typeError => "TypeError"
  | uncaughtThrowError => "UncaughtThrowError"
  | floatDomainError => "FloatDomainError"
  | zeroDivisionError => "ZeroDivisionError"
  | frozenError => "FrozenError"
  | localJumpError => "LocalJumpError"

def kind : Core → ModuleKind
  | kernel | comparable => .moduleKind
  | _ => .classKind

def superclass? : Core → Option Core
  | basicObject | kernel | comparable => none
  | object => some basicObject
  | moduleClass | numeric | string | exception | nilClass | trueClass | falseClass | symbol | array
  | hash | regexp | random | binding | proc => some object
  | classClass => some moduleClass
  | integer | float | rational => some numeric
  | standardError | scriptError | systemStackError => some exception
  | nameError | argumentError | rangeError | runtimeError | typeError | zeroDivisionError
  | localJumpError => some standardError
  | noMethodError => some nameError
  | uncaughtThrowError => some argumentError
  | floatDomainError => some rangeError
  | frozenError => some runtimeError

def includes : Core → List Core
  | object => [kernel]
  | numeric | string => [comparable]
  | _ => []

end Core

end ObjectRuntime
