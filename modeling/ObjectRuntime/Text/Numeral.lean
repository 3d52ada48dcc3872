/-!
# Decimal numerals

A numeral is a non-empty run of ASCII digits; leading zeros are allowed.
-/

set_option autoImplicit false

namespace ObjectRuntime.Text

def digit? (c : Char) : Option Nat := if c.isDigit then some (c.toNat - '0'.toNat) else none

/-- The value of the digits read after a number that is already known. -/
def digitsFrom (value : Nat) : List Char → Option Nat
  | [] => some value
  | c :: rest =>
    match digit? c with
    | some d => digitsFrom (10 * value + d) rest
    | none => none

def numeral? : List Char → Option Nat
  | [] => none
  | cs => digitsFrom 0 cs

end ObjectRuntime.Text
