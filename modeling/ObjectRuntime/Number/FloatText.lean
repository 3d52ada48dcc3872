import ObjectRuntime.Number.Shortest

/-!
# Text of a double

Doubles are written by their shortest decimal, always positionally. A style says what stands for
infinity and up to where whole numbers show that they are doubles.
-/

set_option autoImplicit false

namespace ObjectRuntime.Number

structure FloatStyle where
  infinity : String
  /-- Whole numbers below this bound end in a point and a zero. -/
  wholeMarkedBelow : Nat

/-- Every digit in its place, without an exponent. -/
def Decimal.positional (d : Decimal) : String :=
  let digits := Nat.toDigits 10 d.digits
  let places := (-d.exponent).toNat
  let padded := List.replicate (places + 1 - digits.length) '0' ++ digits ++
    List.replicate d.exponent.toNat '0'
  let whole := padded.length - places
  String.ofList (padded.take whole ++ if places = 0 then [] else '.' :: padded.drop whole)

def Decimal.isWhole (d : Decimal) : Bool := 0 ≤ d.exponent

def FloatStyle.render (style : FloatStyle) (x : Binary64) : String :=
  if x.isNaN then "NaN"
  else
    let sign := if x.isNegative then "-" else ""
    if x.isInfinite then sign ++ style.infinity
    else
      let d := shortest x
      let marked :=
        d.isWhole && d.digits * Nat.pow 10 d.exponent.toNat < style.wholeMarkedBelow
      sign ++ d.positional ++ if marked then ".0" else ""

def inspectStyle : FloatStyle where
  infinity := "Infinity"
  wholeMarkedBelow := Nat.pow 10 16

def plainStyle : FloatStyle where
  infinity := "inf"
  wholeMarkedBelow := 0

end ObjectRuntime.Number
