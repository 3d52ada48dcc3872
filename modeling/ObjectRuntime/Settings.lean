import ObjectRuntime.Text.Blank
import ObjectRuntime.Text.Numeral
import ObjectRuntime.Text.Quoted

/-!
# Settings

The limit on nested calls, whether dispatch is counted, and the name that stands for the program in
backtraces. The first two are read from two variables; the depth variable is judged first.
-/

set_option autoImplicit false

namespace ObjectRuntime

structure Settings where
  /-- Absent when calls may nest without limit. -/
  callDepthLimit : Option Nat
  profile : Bool
  scriptName : String
deriving DecidableEq

namespace Settings

def standard : Settings where
  callDepthLimit := some 10000
  profile := false
  scriptName := "main"

def depthVariable : String := "GARNET_MAX_CALL_DEPTH"
def profileVariable : String := "GARNET_PROFILE"

/-- A variable whose text is none of the accepted ones. -/
structure Fault where
  name : String
  value : String
  expected : String
deriving DecidableEq

def Fault.message (f : Fault) : String :=
  "invalid value for " ++ f.name ++ ": " ++ Text.quote f.value ++ " (expected " ++ f.expected ++ ")"

/-- An optional plus sign and a numeral below `2 ^ 64`. -/
def count? (cs : List Char) : Option Nat :=
  let digits := match cs with
    | '+' :: rest => rest
    | _ => cs
  (Text.numeral? digits).filter fun n => n < Nat.pow 2 64

/-- The words for "no limit", and after them the counts. -/
def depthLimit? (cs : List Char) : Option (Option Nat) :=
  if cs = "0".toList ∨ cs = "none".toList ∨ cs = "unlimited".toList then some none
  else (count? cs).map some

def readDepth (text : String) : Except Fault (Option Nat) :=
  match depthLimit? (Text.trim text.toList) with
  | some limit => .ok limit
  | none => .error ⟨depthVariable, text, "a positive integer or \"unlimited\""⟩

def flag? (word : List Char) : Option Bool :=
  if ["1".toList, "true".toList, "yes".toList, "on".toList].contains word then some true
  else if [[], "0".toList, "false".toList, "no".toList, "off".toList].contains word then some false
  else none

/-- Only ASCII letters lose their case. -/
def readProfile (text : String) : Except Fault Bool :=
  match flag? ((Text.trim text.toList).map Char.toLower) with
  | some value => .ok value
  | none => .error ⟨profileVariable, text, "a boolean"⟩

def read (lookup : String → Option String) : Except Fault Settings := do
  let callDepthLimit ← match lookup depthVariable with
    | some text => readDepth text
    | none => pure standard.callDepthLimit
  let profile ← match lookup profileVariable with
    | some text => readProfile text
    | none => pure standard.profile
  return { standard with callDepthLimit, profile }

end Settings

end ObjectRuntime
