import ObjectRuntime.Number.FloatText
import ObjectRuntime.Value

/-!
# Values in diagnostics
-/

set_option autoImplicit false

namespace ObjectRuntime.Value

/-- How diagnostics show a value, given what they show of the payload of an object. -/
def debugText (payload : ObjectId → String) : Value → String
  | int i => "Integer(" ++ toString i.toInt ++ ")"
  | float x => "Float(" ++ Number.plainStyle.render x ++ ")"
  | object id => "#<" ++ payload id ++ " id=" ++ toString id.number ++ ">"

end ObjectRuntime.Value
