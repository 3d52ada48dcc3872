/-!
# Dispatch counters

Five counts of what dispatch did, each modulo `2 ^ 64`.
-/

set_option autoImplicit false

namespace ObjectRuntime

inductive Event where
  | send
  | direct
  | hydration
  | missing
  | raised
deriving DecidableEq

structure Counters where
  sends : UInt64
  direct : UInt64
  hydrations : UInt64
  missing : UInt64
  raises : UInt64
deriving DecidableEq

namespace Counters

def zero : Counters := ⟨0, 0, 0, 0, 0⟩

def count (c : Counters) (event : Event) (times : Nat) : Counters :=
  let more := UInt64.ofNat times
  match event with
  | .send => { c with sends := c.sends + more }
  | .direct => { c with direct := c.direct + more }
  | .hydration => { c with hydrations := c.hydrations + more }
  | .missing => { c with missing := c.missing + more }
  | .raised => { c with raises := c.raises + more }

def ofEvents (events : List (Event × Nat)) : Counters :=
  events.foldl (fun c entry => c.count entry.1 entry.2) zero

def report (c : Counters) : String :=
  "Dispatch profile:\n" ++
  "  Sends:             " ++ toString c.sends ++ "\n" ++
  "  Fast-path hits:    " ++ toString c.direct ++ "\n" ++
  "  Hydrations:        " ++ toString c.hydrations ++ "\n" ++
  "  Method missing:    " ++ toString c.missing ++ "\n" ++
  "  Raises:            " ++ toString c.raises

end Counters

end ObjectRuntime
