import ObjectRuntime.Number.Binary64

/-!
# The shortest decimal of a double

Among the decimals that round to a given double, `shortest` takes one with the fewest digits and of
those the nearest; where two are equally near it takes the larger. The search tries the grids of
one to seventeen digits, and on each grid the two neighbours of the value, in exact arithmetic on
naturals.

That no coarser grid has a point among the decimals that round to the value follows from the
neighbours alone; it is not proved here, nor is it proved that seventeen digits suffice.
-/

set_option autoImplicit false

namespace ObjectRuntime.Number

/-- The number `digits * 10 ^ exponent`. -/
structure Decimal where
  digits : Nat
  exponent : Int
deriving DecidableEq

/-- A positive value `number / unit` with the ends of the interval that rounds to it, in the same
unit. The ends belong to it when `closed` holds. -/
structure RoundingInterval where
  lower : Nat
  number : Nat
  upper : Nat
  unit : Nat
  closed : Bool

namespace RoundingInterval

/-- The ends lie half way to the neighbouring doubles. Below a power of two the neighbour is half
as far away as above, except at the smallest exponent. -/
def ofBinary64 (x : Binary64) : RoundingInterval :=
  let quarter := Nat.pow 2 (x.exponent - 2).toNat
  let narrow := x.significand = Nat.pow 2 52 ∧ -1074 < x.exponent
  { lower := (4 * x.significand - if narrow then 1 else 2) * quarter
    number := 4 * x.significand * quarter
    upper := (4 * x.significand + 2) * quarter
    unit := Nat.pow 2 (2 - x.exponent).toNat
    closed := x.significand % 2 = 0 }

def compareTo (i : RoundingInterval) (d : Decimal) (number : Nat) : Ordering :=
  compare (d.digits * Nat.pow 10 d.exponent.toNat * i.unit)
    (number * Nat.pow 10 (-d.exponent).toNat)

def contains (i : RoundingInterval) (d : Decimal) : Bool :=
  let fromBelow := i.compareTo d i.lower
  let fromAbove := i.compareTo d i.upper
  (fromBelow == .gt || (i.closed && fromBelow == .eq)) &&
    (fromAbove == .lt || (i.closed && fromAbove == .eq))

def floorOn (i : RoundingInterval) (exponent : Int) : Nat :=
  i.number * Nat.pow 10 (-exponent).toNat / (i.unit * Nat.pow 10 exponent.toNat)

/-- The least power of ten above the value. No double is below `10 ^ (-330)`. -/
def scale (i : RoundingInterval) : Int :=
  (Nat.toDigits 10 (i.floorOn (-330))).length - 330

/-- The point of a grid that stands for the value, if one does. -/
def pickOn (i : RoundingInterval) (exponent : Int) : Option Decimal :=
  let below : Decimal := ⟨i.floorOn exponent, exponent⟩
  let above : Decimal := ⟨below.digits + 1, exponent⟩
  match i.contains below, i.contains above with
  | false, false => none
  | true, false => some below
  | false, true => some above
  | true, true =>
    if i.compareTo ⟨below.digits + above.digits, exponent⟩ (2 * i.number) == .gt then some below
    else some above

end RoundingInterval

def Decimal.strip (d : Decimal) : Decimal :=
  if d.digits = 0 ∨ d.digits % 10 ≠ 0 then d
  else Decimal.strip ⟨d.digits / 10, d.exponent + 1⟩
termination_by d.digits
decreasing_by omega

def shortest (x : Binary64) : Decimal :=
  if x.isZero then ⟨0, 0⟩
  else
    let interval := RoundingInterval.ofBinary64 x
    let found := (List.range 17).findSome? fun (n : Nat) => interval.pickOn (interval.scale - n - 1)
    (found.getD ⟨interval.floorOn (interval.scale - 17), interval.scale - 17⟩).strip

end ObjectRuntime.Number
