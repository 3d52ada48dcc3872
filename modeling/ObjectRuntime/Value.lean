import ObjectRuntime.Identity
import ObjectRuntime.Number.Binary64

/-!
# Values

A value is an immediate number or a reference to an object. Two immediate numbers are the same
when their bits are, two references when they lead to one object; an immediate number is never the
same as a reference.
-/

set_option autoImplicit false

namespace ObjectRuntime

inductive Value where
  | int (value : Int64)
  | float (value : Binary64)
  | object (id : ObjectId)
deriving DecidableEq

/-- Every machine has the main object, nil, true and false; they come after the objects of the core
classes. -/
def ObjectId.main : ObjectId := ⟨36⟩
def ObjectId.nil : ObjectId := ⟨37⟩
def ObjectId.true : ObjectId := ⟨38⟩
def ObjectId.false : ObjectId := ⟨39⟩

def FrameId.main : FrameId := ⟨0⟩

namespace Value

def nil : Value := .object .nil
def bool (b : Bool) : Value := .object (if b then .true else .false)

instance : Inhabited Value := ⟨nil⟩

def isImmediate : Value → Bool
  | object _ => false
  | int _ | float _ => true

def object? : Value → Option ObjectId
  | object id => some id
  | int _ | float _ => none

theorem object?_eq_some_iff {v : Value} {id : ObjectId} : v.object? = some id ↔ v = object id := by
  cases v <;> simp [object?]

/-- Identity is equality of values. -/
def same (a b : Value) : Bool := a == b

end Value

end ObjectRuntime
