/-!
# The collector's gate

Collection is on or off. A pause turns it off and hands out a guard that remembers whether it was
on; releasing the guard turns it on again if it was. A collection that is asked for while it is off
is noted.
-/

set_option autoImplicit false

namespace ObjectRuntime

structure Gate where
  enabled : Bool
  /-- A collection was asked for while collection was off, and none has run since. -/
  pending : Bool
deriving DecidableEq

structure PauseGuard where
  wasEnabled : Bool
deriving DecidableEq

namespace Gate

def opened : Gate := ⟨true, false⟩

def set (g : Gate) (enabled : Bool) : Gate := { g with enabled }

def pause (g : Gate) : PauseGuard × Gate := (⟨g.enabled⟩, g.set false)

def release (g : Gate) (guard : PauseGuard) : Gate := if guard.wasEnabled then g.set true else g

def request (g : Gate) : Bool × Gate :=
  if g.enabled then (true, { g with pending := false }) else (false, { g with pending := true })

end Gate

end ObjectRuntime
