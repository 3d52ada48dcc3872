import ObjectRuntime.Interner
import ObjectRuntime.Transcript

/-!
# Driving an interner
-/

set_option autoImplicit false

namespace ObjectRuntime

inductive InternerStep where
  | intern (text : String)
  | get (text : String)
  | lookup (number : Nat)
  | size
  | isEmpty
  | debug (number : Nat)
  /-- Interns both texts, the left one first, and compares their numbers. -/
  | compare (left right : String)
  | empty

inductive InternerAnswer where
  | number (number : Nat)
  | absent
  | text (text : String)
  | flag (value : Bool)
  | ordering (result : Ordering)
  | empty (number : Nat) (isDefault : Bool)

namespace Interner

def defaultNumber : Nat := 0

/-- A step that ends the program has no answer. -/
def perform (i : Interner) : InternerStep → Option (InternerAnswer × Interner)
  | .intern text => do
    let (number, i) ← (i.intern text).toOption
    return (.number number, i)
  | .get text => some (((i.get? text).map .number).getD .absent, i)
  | .lookup number => some (.text (i.lookup number), i)
  | .size => some (.number i.size, i)
  | .isEmpty => some (.flag i.isEmpty, i)
  | .debug number => some (.text (debugText number), i)
  | .compare left right => do
    let (a, i) ← (i.intern left).toOption
    let (b, i) ← (i.intern right).toOption
    return (.ordering (Ord.compare a b), i)
  | .empty => some (.empty emptyNumber (emptyNumber == defaultNumber), i)

def answers (steps : List InternerStep) : Option (List InternerAnswer) :=
  transcript perform withCore steps

end Interner

end ObjectRuntime
