/-!
# Identities

Objects, scope frames and modules are kept in tables and referred to by their places there. A token
tells the registrations of rescues and catches apart. Objects are numbered from one.

None of these numbers has a bound here. A runtime that counts objects and tokens in 64 bits starts
over after `2 ^ 64` of them, and one that keeps the places of modules in 32 bits has one place for
all modules from number `2 ^ 32 - 1` on; it is described as long as it has not come that far. Where
the words themselves matter, as for the numbers in a registry, the bound is a hypothesis.
-/

set_option autoImplicit false

namespace ObjectRuntime

structure ObjectId where
  index : Nat
deriving DecidableEq, Inhabited

structure FrameId where
  index : Nat
deriving DecidableEq, Inhabited

structure ModuleId where
  index : Nat
deriving DecidableEq, Inhabited

structure Token where
  serial : Nat
deriving DecidableEq, Inhabited

/-- The number of an object as programs see it. -/
def ObjectId.number (id : ObjectId) : Nat := id.index + 1

def ModuleId.debugText (id : ModuleId) : String := "ModuleId(" ++ toString id.index ++ ")"

theorem ObjectId.number_injective {a b : ObjectId} (h : a.number = b.number) : a = b := by
  cases a; cases b; simp_all [ObjectId.number]

end ObjectRuntime
