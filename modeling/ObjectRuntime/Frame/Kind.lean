/-!
# Kinds of frames

What a scope frame was made for. The bodies of blocks, and of methods made from blocks, see the
local variables around them.
-/

set_option autoImplicit false

namespace ObjectRuntime

inductive FrameKind where
  | top
  | moduleBody
  | method
  | closureMethod
  | block
deriving DecidableEq

namespace FrameKind

def isTransparent : FrameKind → Bool
  | block | closureMethod => true
  | top | moduleBody | method => false

def name : FrameKind → String
  | top => "Top"
  | moduleBody => "Module"
  | method => "Method"
  | closureMethod => "ClosureMethod"
  | block => "Block"

end FrameKind

end ObjectRuntime
