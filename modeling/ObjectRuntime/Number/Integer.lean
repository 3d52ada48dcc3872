/-!
# Integers of 64 bits

Sums, differences and products are exact or absent. Division rounds toward negative infinity and
the remainder has the sign of the divisor; both are built from the division that truncates.
-/

set_option autoImplicit false

namespace ObjectRuntime.Number

def exact (i : Int) : Option Int64 :=
  if Int64.minValue.toInt ≤ i ∧ i ≤ Int64.maxValue.toInt then some (Int64.ofInt i) else none

def add? (a b : Int64) : Option Int64 := exact (a.toInt + b.toInt)
def sub? (a b : Int64) : Option Int64 := exact (a.toInt - b.toInt)
def mul? (a b : Int64) : Option Int64 := exact (a.toInt * b.toInt)

/-- The truncated quotient is one too large when the division leaves a rest and the signs differ. -/
def floorDiv? (a b : Int64) : Option Int64 :=
  if a = Int64.minValue ∧ b = -1 then none
  else if a % b ≠ 0 ∧ (decide (a < 0) ≠ decide (b < 0)) then some (a / b - 1)
  else some (a / b)

def floorMod (a b : Int64) : Int64 :=
  let rest := a % b
  if rest ≠ 0 ∧ (decide (rest < 0) ≠ decide (b < 0)) then rest + b else rest

end ObjectRuntime.Number
