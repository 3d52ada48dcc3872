import ObjectRuntime.Numbered.Evaluate
import ObjectRuntime.Session

/-!
# Sessions with numbered names

The interner may have been used before the machine is made: whatever was interned first takes the
numbers first. A step ends with a value or an exit, whose objects can be told by their numbers, and
with what is seen of it.
-/

set_option autoImplicit false

namespace ObjectRuntime

/-- What becomes of a step: how it ended, how many objects there are then, and what is seen. -/
structure Ending where
  ending : Except Exit Value
  objects : Nat
  result : StepResult

namespace Machine

def endingOf (m : Machine) (ending : Except Exit Value) : Ending where
  ending := ending
  objects := m.heap.size
  result := { outcome := m.outcomeOf ending, log := m.desk.log.reverse }

def endings (m : Machine) : List Expr → List Ending
  | [] => []
  | program :: rest =>
    let (ending, m) := Run.evalMain program m.clearLog
    m.endingOf ending :: m.endings rest

end Machine

namespace Numbered

/-! ### The machine at the start -/

def startFrame (name : String → String) : Frame :=
  Core.all.foldl (fun f c => f.define (name c.name) (.object c.objectId)) (.fresh .top none)

def startEntry (name : String → String) (c : Core) : Module :=
  { c.entry with name := some (name c.name) }

def install (name : String → String) (h : Hierarchy) (serial : Nat) :
    List Installation → Hierarchy
  | [] => h
  | i :: rest =>
    install name
      (h.defineMethod i.owner.id { i.method serial with name := name i.name }) (serial + 1) rest

def startHierarchy (name : String → String) : Hierarchy :=
  install name ⟨(Core.all.map (startEntry name)).toArray⟩ 1 Installation.all

def bootWith (settings : Settings) (i : Interner) : Numbered where
  interner := i
  machine :=
    { Machine.boot settings with
      frames := ⟨(startFrame i.nameOf :: Core.all.map Core.bodyFrame).toArray⟩
      hierarchy := startHierarchy i.nameOf }

/-- The interner gets the names of the core classes and their methods after what it has already. -/
def internStart (i : Interner) : Interner :=
  (i.giveAll (Core.all.map Core.name)).giveAll (Installation.all.map Installation.name)

def boot (settings : Settings) (before : List String) : Numbered :=
  bootWith settings (internStart (Interner.withCore.giveAll before))

/-! ### Runs of programs -/

def clearLog (s : Numbered) : Numbered := { s with machine := s.machine.clearLog }

def endings (s : Numbered) : List Expr → List Ending × Interner
  | [] => ([], s.interner)
  | program :: rest =>
    let (ending, s) := Run.evalMain program s.clearLog
    let (others, interner) := s.endings rest
    (s.shown.endingOf ending :: others, interner)

/-- The endings of a session, unless the interner has run out of numbers. -/
def session (settings : Settings) (before : List String) (programs : List Expr) :
    Option (List Ending) :=
  let (endings, interner) := (boot settings before).endings programs
  if interner.size ≤ Interner.capacity then some endings else none

end Numbered

end ObjectRuntime
