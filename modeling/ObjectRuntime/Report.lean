import ObjectRuntime.Text.Lines

/-!
# Reports

What is told of an exception that nobody rescued: one line, and the same line with the frames it
came through, innermost first.
-/

set_option autoImplicit false

namespace ObjectRuntime

structure Report where
  className : String
  message : String
  backtrace : List String
deriving DecidableEq

namespace Report

def headline (r : Report) : String := r.message ++ " (" ++ r.className ++ ")"

def text (r : Report) : String :=
  match r.backtrace with
  | [] => r.headline
  | first :: rest =>
    first ++ ": " ++ r.headline ++ String.join (rest.map fun line => "\n\tfrom " ++ line)

def opening (r : Report) (lines : Nat) : String :=
  "\n".intercalate ((Text.lines r.text).take lines)

end Report

end ObjectRuntime
