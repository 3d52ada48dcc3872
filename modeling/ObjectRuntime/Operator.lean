/-!
# Operators

The numeric operators that dispatch can apply to immediate numbers without making objects of them.
Every one of them is in the table of integers, all but the remainder in that of floats.
-/

set_option autoImplicit false

namespace ObjectRuntime

inductive Operator where
  | add
  | sub
  | mul
  | div
  | rem
  | lt
  | le
  | gt
  | ge
  | eq
  | cmp
deriving DecidableEq

namespace Operator

def selector : Operator → String
  | add => "+"
  | sub => "-"
  | mul => "*"
  | div => "/"
  | rem => "%"
  | lt => "<"
  | le => "<="
  | gt => ">"
  | ge => ">="
  | eq => "=="
  | cmp => "<=>"

def name : Operator → String
  | add => "Add"
  | sub => "Sub"
  | mul => "Mul"
  | div => "Div"
  | rem => "Mod"
  | lt => "Lt"
  | le => "Le"
  | gt => "Gt"
  | ge => "Ge"
  | eq => "Eq"
  | cmp => "Cmp"

def onIntegers : List Operator := [add, sub, mul, div, rem, lt, le, gt, ge, eq, cmp]
def onFloats : List Operator := [add, sub, mul, div, lt, le, gt, ge, eq, cmp]

def find? (table : List Operator) (selector : String) : Option Operator :=
  table.find? fun op => op.selector == selector

end Operator

end ObjectRuntime
