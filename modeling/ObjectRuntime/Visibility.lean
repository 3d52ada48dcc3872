/-!
# Visibility

Who may call a method.
-/

set_option autoImplicit false

namespace ObjectRuntime

inductive Visibility where
  | isPublic
  | isPrivate
  | isProtected
deriving DecidableEq

def Visibility.text : Visibility → String
  | isPublic => "public"
  | isPrivate => "private"
  | isProtected => "protected"

def Visibility.debugText : Visibility → String
  | isPublic => "Public"
  | isPrivate => "Private"
  | isProtected => "Protected"

/-- A send of any visibility, or one that reaches public methods only. -/
inductive SendKind where
  | anyMethod
  | publicOnly
deriving DecidableEq

end ObjectRuntime
