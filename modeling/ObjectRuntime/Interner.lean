import ObjectRuntime.Bindings

/-!
# Interner

Every distinct text gets the next free number, once and for good. Two structures are kept: the
numbers by text, and the texts by number. They start with the empty text and the names that the core
of the runtime refers to.

Interning has two steps, a look-up and, if that found nothing, an insertion that looks again. Other
callers may act between the two.
-/

set_option autoImplicit false

namespace ObjectRuntime

structure Interner where
  numbers : Bindings Nat
  texts : Array String

inductive InternError where
  | overflow (count : Nat)
deriving DecidableEq

def InternError.message : InternError → String
  | .overflow count =>
    "symbol table exceeded capacity: " ++ toString count ++ " strings, max is 4294967295"

namespace Interner

/-- Numbers have 32 bits. -/
def capacity : Nat := UInt32.size

def coreNames : List String :=
  ["nil", "true", "false", "self", "initialize", "method_missing", "respond_to?", "send",
   "public_send", "new", "allocate", "message", "+", "-", "*", "/", "%", "<", "<=", ">", ">=",
   "==", "<=>", "$!"]

def get? (i : Interner) (text : String) : Option Nat := i.numbers.get? text

/-- A number that was never given out belongs to the empty text. -/
def lookup (i : Interner) (number : Nat) : String := i.texts[number]?.getD ""

def size (i : Interner) : Nat := i.texts.size

/-- Whether there is no text but the empty one. -/
def isEmpty (i : Interner) : Bool := i.size ≤ 1

def add (i : Interner) (text : String) : Interner where
  numbers := i.numbers.insert text i.size
  texts := i.texts.push text

/-- The second step: the text may have come in since it was looked up. -/
def insert (i : Interner) (text : String) : Except InternError Nat × Interner :=
  match i.get? text with
  | some number => (.ok number, i)
  | none =>
    if i.size < capacity then (.ok i.size, i.add text)
    else (.error (.overflow i.size), i)

/-- Both steps, with nobody in between. -/
def tryIntern (i : Interner) (text : String) : Except InternError Nat × Interner :=
  match i.get? text with
  | some number => (.ok number, i)
  | none => i.insert text

/-- Where `tryIntern` fails, the program ends with the message. -/
def intern (i : Interner) (text : String) : Except String (Nat × Interner) :=
  match i.tryIntern text with
  | (.ok number, i) => .ok (number, i)
  | (.error e, _) => .error e.message

def internAll (i : Interner) (texts : List String) : Interner :=
  texts.foldl (fun i text => (i.tryIntern text).2) i

def emptyNumber : Nat := 0

def bare : Interner := ⟨Bindings.empty.insert "" emptyNumber, #[""]⟩

def withCore : Interner := bare.internAll coreNames

def debugText (number : Nat) : String := "Name(" ++ toString number ++ ")"

end Interner

end ObjectRuntime
