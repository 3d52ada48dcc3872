import ObjectRuntime.Text.Numeral

/-!
# Arity

How many arguments a method takes: exactly so many, at least so many, or a number from a range that
includes both its ends. `text` is the notation of messages and `ofText?` reads it.
-/

set_option autoImplicit false

namespace ObjectRuntime

inductive Arity where
  | exactly (count : Nat)
  | atLeast (least : Nat)
  | between (least most : Nat)
deriving DecidableEq

namespace Arity

def accepts : Arity → Nat → Bool
  | exactly count, given => given == count
  | atLeast least, given => least ≤ given
  | between least most, given => least ≤ given && given ≤ most

def text : Arity → String
  | exactly count => toString count
  | atLeast least => toString least ++ "+"
  | between least most => toString least ++ ".." ++ toString most

def debugText : Arity → String
  | exactly count => "Exact(" ++ toString count ++ ")"
  | atLeast least => "AtLeast(" ++ toString least ++ ")"
  | between least most => "Range(" ++ toString least ++ ", " ++ toString most ++ ")"

def ofText? (text : String) : Option Arity :=
  let cs := text.toList
  let least := cs.takeWhile Char.isDigit
  match Text.numeral? least, cs.dropWhile Char.isDigit with
  | some count, [] => some (exactly count)
  | some count, ['+'] => some (atLeast count)
  | some count, '.' :: '.' :: rest => (Text.numeral? rest).map (between count)
  | _, _ => none

end Arity

end ObjectRuntime
