/-!
# Sets of code points

A set of characters is a list of closed ranges of code points. Every table of the library is read
through `inRanges`; the tables state a property of the Unicode standard, version 17.0.
-/

set_option autoImplicit false

namespace ObjectRuntime.Text

def inRanges (ranges : List (Nat × Nat)) (point : Nat) : Bool :=
  ranges.any fun range => range.1 ≤ point && point ≤ range.2

end ObjectRuntime.Text
