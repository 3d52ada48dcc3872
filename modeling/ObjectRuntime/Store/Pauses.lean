import ObjectRuntime.Store.Basic

/-!
# Pauses in any order

Whoever pauses collection keeps a guard, and may drop it at any time. A guard knows nothing of the
others: when it is dropped, collection is on again if it was on when the guard was made.
-/

set_option autoImplicit false

namespace ObjectRuntime

/-- A value moves into an object while a pause holds collection off. -/
def Store.hydrate (s : Store) : ObjectId × Store :=
  let (guard, s) := s.pause
  let (id, s) := s.allocate
  (id, s.resume guard)

/-- A store and the guards that have not been dropped, the oldest one first. -/
structure Pausing where
  store : Store
  guards : List PauseGuard

inductive PauseEvent where
  | pause
  | drop (place : Nat)
  | hydrate
  | collect (roots : List ObjectId)

namespace Pausing

def start (s : Store) : Pausing := ⟨s, []⟩

def step (p : Pausing) : PauseEvent → Pausing
  | .pause =>
    let (guard, store) := p.store.pause
    ⟨store, p.guards ++ [guard]⟩
  | .drop place =>
    match p.guards[place]? with
    | some guard => ⟨p.store.resume guard, p.guards.eraseIdx place⟩
    | none => p
  | .hydrate => { p with store := p.store.hydrate.2 }
  | .collect roots => { p with store := (p.store.collect roots).2 }

def run (p : Pausing) (events : List PauseEvent) : Pausing := events.foldl step p

end Pausing

end ObjectRuntime
