/-!
# Doubles

An IEEE 754 double is held by its 64 bits, so that two of them are equal when their bits are. Order
and numerical equality are read off the bits; sums, differences, products and quotients are those
of the machine; the remainder is exact. A NaN operand comes out quiet, the first one first, and an
operation without a value gives the default NaN, whose sign bit is set.

Nothing here is stated about the rounding of the machine's operations.
-/

set_option autoImplicit false

namespace ObjectRuntime

structure Binary64 where
  bits : UInt64
deriving DecidableEq, Inhabited

namespace Binary64

def isNegative (x : Binary64) : Bool := x.bits >>> 63 == 1

def magnitude (x : Binary64) : Nat := x.bits.toNat % Nat.pow 2 63

def infinityMagnitude : Nat := 0x7FF0000000000000

def isNaN (x : Binary64) : Bool := infinityMagnitude < x.magnitude
def isInfinite (x : Binary64) : Bool := x.magnitude == infinityMagnitude
def isZero (x : Binary64) : Bool := x.magnitude == 0

/-- Magnitudes order as the absolute values do, so with the sign they order the numbers; the two
zeros have one key. -/
def orderKey (x : Binary64) : Int := if x.isNegative then -(x.magnitude : Int) else x.magnitude

/-- No order is defined where a NaN takes part. -/
def compare? (a b : Binary64) : Option Ordering :=
  if a.isNaN || b.isNaN then none else some (compare a.orderKey b.orderKey)

def equal (a b : Binary64) : Bool := a.compare? b == some .eq
def less (a b : Binary64) : Bool := a.compare? b == some .lt
def atMost (a b : Binary64) : Bool := a.less b || a.equal b

/-- The absolute value of a finite double as `significand * 2 ^ exponent`. -/
def significand (x : Binary64) : Nat :=
  let fraction := x.magnitude % Nat.pow 2 52
  if x.magnitude / Nat.pow 2 52 = 0 then fraction else Nat.pow 2 52 + fraction

def exponent (x : Binary64) : Int :=
  let biased : Nat := x.magnitude / Nat.pow 2 52
  if biased = 0 then -1074 else (biased : Int) - 1075

def ofFloat (x : Float) : Binary64 := ⟨x.toBits⟩
def toFloat (x : Binary64) : Float := Float.ofBits x.bits

/-- The nearest double, ties to even. -/
def ofInt64 (i : Int64) : Binary64 := ofFloat i.toFloat

def negate (x : Binary64) : Binary64 := ⟨x.bits ^^^ 0x8000000000000000⟩
def quiet (x : Binary64) : Binary64 := ⟨x.bits ||| 0x0008000000000000⟩
def defaultNaN : Binary64 := ⟨0xFFF8000000000000⟩

/-- What a binary operation does about NaN around its work on numbers. -/
def operate (f : Binary64 → Binary64 → Binary64) (a b : Binary64) : Binary64 :=
  if a.isNaN then a.quiet
  else if b.isNaN then b.quiet
  else
    let result := f a b
    if result.isNaN then defaultNaN else result

def add : Binary64 → Binary64 → Binary64 := operate fun a b => ofFloat (a.toFloat + b.toFloat)
def sub : Binary64 → Binary64 → Binary64 := operate fun a b => ofFloat (a.toFloat - b.toFloat)
def mul : Binary64 → Binary64 → Binary64 := operate fun a b => ofFloat (a.toFloat * b.toFloat)
def div : Binary64 → Binary64 → Binary64 := operate fun a b => ofFloat (a.toFloat / b.toFloat)

/-- The remainder of the division that truncates, with the sign of the dividend. On a common
exponent it is the remainder of two naturals, and it has no more significant bits than one of the
operands, so no rounding takes place. -/
def truncatedRemainder (a b : Binary64) : Binary64 :=
  if a.isInfinite || b.isZero then defaultNaN
  else if b.isInfinite then a
  else
    let common := min a.exponent b.exponent
    let rest := (a.significand * Nat.pow 2 (a.exponent - common).toNat) %
      (b.significand * Nat.pow 2 (b.exponent - common).toNat)
    let size := ofFloat ((Float.ofNat rest).scaleB common)
    if a.isNegative then size.negate else size

/-- The remainder takes the divisor's sign by adding the divisor once. -/
def floorRemainder (a b : Binary64) : Binary64 :=
  let rest := operate truncatedRemainder a b
  let zero : Binary64 := ⟨0⟩
  if !rest.isNaN && !rest.isZero && (rest.less zero != b.less zero) then rest.add b else rest

end Binary64

end ObjectRuntime
