import ObjectRuntime.Interner
import ObjectRuntime.Numbered.Renaming
import ObjectRuntime.Steps

/-!
# Names as numbers

The machine keeps names as texts. A runtime keeps their numbers: an interner gives a new text the
next number, all tables go by numbers, and a text is looked up where a message or a report needs it
or where something depends on how a name is spelt.

Such a runtime is a machine whose names are the numerals of numbers, together with the interner. All
that does not depend on what a name is serves both kinds of machine.
-/

set_option autoImplicit false

namespace ObjectRuntime

namespace Interner

def numeral (number : Nat) : String := Nat.repr number

def textOf (i : Interner) (name : String) : String :=
  i.lookup (Nat.ofDigitChars 10 name.toList 0)

/-- The name for a text that has its number already. -/
def nameOf (i : Interner) (text : String) : String := numeral ((i.get? text).getD emptyNumber)

/-- The name for a text, which gets the next number if it is new. An interner that has run out of
numbers ends the program, so that it is enough to look at its size in the end. -/
def give (i : Interner) (text : String) : String × Interner :=
  match i.get? text with
  | some number => (numeral number, i)
  | none => (numeral i.size, i.add text)

def giveAll (i : Interner) (texts : List String) : Interner :=
  texts.foldl (fun i text => (i.give text).2) i

end Interner

/-- A machine whose names are numerals, and the interner that gave them out. -/
structure Numbered where
  interner : Interner
  machine : Machine

namespace Numbered

/-- The machine with the text of each name in its place, which is what messages and reports show. -/
def shown (s : Numbered) : Machine := s.machine.rename s.interner.textOf

def text (s : Numbered) (name : String) : String := s.interner.textOf name

/-- The name for a text that the interner has known from the start. -/
def core (s : Numbered) (text : String) : String := s.interner.nameOf text

def Run (α : Type) : Type := Numbered → Except Exit α × Numbered

namespace Run

variable {α β : Type}

@[always_inline, inline] def pure (a : α) : Run α := fun s => (.ok a, s)

@[always_inline, inline] def bind (x : Run α) (f : α → Run β) : Run β := fun s =>
  match x s with
  | (.ok a, s) => f a s
  | (.error e, s) => (.error e, s)

instance : Monad Run where
  pure := pure
  bind := bind

/-- What does not depend on names, or is given names of the machine. -/
@[always_inline, inline] def lift (x : ObjectRuntime.Run α) : Run α := fun s =>
  let (outcome, machine) := x s.machine
  (outcome, { s with machine })

def exit (e : Exit) : Run α := lift (.exit e)
def malformed : Run α := exit .malformed
def signal (s : Signal) : Run α := exit (.signal s)
def ofOption (x : Option α) : Run α := lift (.ofOption x)
def modify (f : Machine → Machine) : Run Unit := lift (.modify f)

@[always_inline, inline] def read (f : Numbered → α) : Run α := fun s => (.ok (f s), s)

def see (f : Machine → α) : Run α := lift (.read f)

def intern (text : String) : Run String := fun s =>
  let (name, interner) := s.interner.give text
  (.ok name, { s with interner })

@[always_inline, inline] def attempt (x : Run α) : Run (Except Exit α) := fun s =>
  let (outcome, s) := x s
  (.ok outcome, s)

@[always_inline, inline] def resume (outcome : Except Exit α) : Run α := fun s => (outcome, s)

@[always_inline, inline] def afterward (x : Run α) (f : Machine → Machine) : Run α := fun s =>
  let (outcome, s) := x s
  (outcome, { s with machine := f s.machine })

def times (count : Nat) (x : Run α) : Run Unit :=
  match count with
  | 0 => pure ()
  | count + 1 => bind x fun _ => times count x

def forEach (f : α → Run Unit) : List α → Run Unit
  | [] => pure ()
  | a :: rest => bind (f a) fun _ => forEach f rest

end Run

end Numbered

end ObjectRuntime
