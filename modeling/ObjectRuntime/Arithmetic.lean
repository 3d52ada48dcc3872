import ObjectRuntime.Fault
import ObjectRuntime.Machine.Reading
import ObjectRuntime.Number.Integer

/-!
# Arithmetic

One definition of the operators serves numbers that are immediate and numbers that are objects. Two
integers give an exact integer or a fault; an integer and a float are both taken as floats; with
anything that is not a number equality fails, comparison gives nil, and the rest is a fault.
-/

set_option autoImplicit false

namespace ObjectRuntime

inductive Num where
  | int (value : Int64)
  | float (value : Binary64)

namespace Num

def toFloat : Num → Binary64
  | int i => .ofInt64 i
  | float x => x

def className : Num → String
  | int _ => "Integer"
  | float _ => "Float"

end Num

def orderValue : Ordering → Value
  | .lt => .int (-1)
  | .eq => .int 0
  | .gt => .int 1

namespace Operator

def exactly (result : Option Int64) : Except Fault Value :=
  match result with
  | some i => .ok (.int i)
  | none => .error .integerOverflow

def onInts (op : Operator) (a b : Int64) : Except Fault Value :=
  match op with
  | add => exactly (Number.add? a b)
  | sub => exactly (Number.sub? a b)
  | mul => exactly (Number.mul? a b)
  | div => if b = 0 then .error .zeroDivision else exactly (Number.floorDiv? a b)
  | rem => if b = 0 then .error .zeroDivision else .ok (.int (Number.floorMod a b))
  | lt => .ok (.bool (a < b))
  | le => .ok (.bool (a ≤ b))
  | gt => .ok (.bool (b < a))
  | ge => .ok (.bool (b ≤ a))
  | eq => .ok (.bool (a == b))
  | cmp => .ok (orderValue (compare a b))

def onDoubles (op : Operator) (a b : Binary64) : Value :=
  match op with
  | add => .float (a.add b)
  | sub => .float (a.sub b)
  | mul => .float (a.mul b)
  | div => .float (a.div b)
  | rem => .float (a.floorRemainder b)
  | lt => .bool (a.less b)
  | le => .bool (a.atMost b)
  | gt => .bool (b.less a)
  | ge => .bool (b.atMost a)
  | eq => .bool (a.equal b)
  | cmp =>
    match a.compare? b with
    | some order => orderValue order
    | none => .nil

def isComparison : Operator → Bool
  | lt | le | gt | ge => true
  | add | sub | mul | div | rem | eq | cmp => false

/-- The right operand is no number; `shown` describes it. -/
def onOther (op : Operator) (left : Num) (shown : String) : Except Fault Value :=
  match op with
  | eq => .ok (.bool false)
  | cmp => .ok .nil
  | op =>
    if op.isComparison then .error (.incomparable left.className shown)
    else .error (.notCoercible shown left.className)

end Operator

namespace Machine

variable (m : Machine)

def num? (v : Value) : Option Num :=
  match m.int? v with
  | some i => some (.int i)
  | none => (m.float? v).map .float

def apply (op : Operator) (left right : Value) : Except Fault Value :=
  match m.num? left, m.num? right with
  | none, _ => .error (.notANumber (m.inspect left))
  | some x, none => op.onOther x (m.describeOperand right)
  | some (.int a), some (.int b) => op.onInts a b
  | some x, some y => .ok (op.onDoubles x.toFloat y.toFloat)

end Machine

end ObjectRuntime
