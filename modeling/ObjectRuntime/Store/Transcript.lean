import ObjectRuntime.Store.Basic
import ObjectRuntime.Transcript
import ObjectRuntime.Value.Debug

/-!
# Driving a store

Objects are held by handles, which have names, and by a list of roots.
-/

set_option autoImplicit false

namespace ObjectRuntime

/-- A store and those outside it who hold objects. -/
structure Holding where
  store : Store
  handles : Bindings ObjectId
  roots : List ObjectId

inductive StoreStep where
  | allocate (handle : String)
  /-- Makes objects that nobody keeps. -/
  | churn (count : Nat)
  | fill (stem : String) (count : Nat)
  /-- Makes objects of which each holds the one before; the handle holds the last. -/
  | chain (handle : String) (count : Nat)
  | release (handle : String)
  | releaseAll
  | root (handle : String)
  | unrootAll
  | link (handle ivar target : String)
  /-- Puts zero into the variable. -/
  | unlink (handle ivar : String)
  | setCollecting (enabled : Bool)
  | ivarNames (handle : String)
  | follow (handle ivar : String)
  | state
  | collect
  /-- Asks for a collection during a pause, and looks at the gate after the pause and after the
  ends of a second pause and of the first. -/
  | nestPauses

inductive StoreAnswer where
  | done
  | object (number : Nat)
  | names (names : List String)
  | optionalText (text : Option String)
  | state (enabled pending : Bool) (allocations tracked living : Nat)
  | collected (result : Option Collected)
  | flags (values : List Bool)

namespace Holding

def empty : Holding := ⟨.empty, .empty, []⟩

def bind (h : Holding) (handle : String) (id : ObjectId) : Holding :=
  let old := h.handles.get? handle
  { h with handles := h.handles.insert handle id, store := h.store.release old.toList }

def allocate (h : Holding) (handle : String) : ObjectId × Holding :=
  let (id, store) := h.store.allocate
  (id, { h with store }.bind handle id)

def churn : Nat → Store → Store
  | 0, s => s
  | count + 1, s =>
    let (id, s) := s.allocate
    churn count (s.release [id])

def fill (h : Holding) (stem : String) (count : Nat) : Holding :=
  (List.range count).foldl (fun h n => (h.allocate (stem ++ toString n)).2) h

def next : String := "@next"

def chain : Nat → Option ObjectId → Store → Option ObjectId × Store
  | 0, last, s => (last, s)
  | count + 1, last, s =>
    let (id, s) := s.allocate
    let s := match last with
      | some before => (s.setIvar id next (.object before)).release [before]
      | none => s
    chain count (some id) s

def nestPauses (h : Holding) : List Bool × Holding :=
  let (first, store) := h.store.pause
  let during := store.gate.enabled
  let (result, store) := store.collect h.roots
  let (second, store) := store.pause
  let store := store.resume second
  let afterSecond := store.gate.enabled
  let store := store.resume first
  ([during, result.isNone, afterSecond, store.gate.enabled], { h with store })

def perform (h : Holding) : StoreStep → Option (StoreAnswer × Holding)
  | .allocate handle =>
    let (id, h) := h.allocate handle
    some (.object id.number, h)
  | .churn count => some (.done, { h with store := churn count h.store })
  | .fill stem count => some (.done, h.fill stem count)
  | .chain handle count =>
    let (last, store) := chain count none h.store
    let h := { h with store }
    some (.done, match last with
      | some id => h.bind handle id
      | none => h)
  | .release handle =>
    let old := h.handles.get? handle
    some (.done,
      { h with handles := h.handles.erase handle, store := h.store.release old.toList })
  | .releaseAll =>
    some (.done, { h with handles := .empty, store := h.store.release h.handles.values })
  | .root handle => do
    let id ← h.handles.get? handle
    return (.done, { h with roots := h.roots ++ [id], store := h.store.hold id })
  | .unrootAll => some (.done, { h with roots := [], store := h.store.release h.roots })
  | .link handle ivar target => do
    let id ← h.handles.get? handle
    let value ← h.handles.get? target
    return (.done, { h with store := h.store.setIvar id ivar (.object value) })
  | .unlink handle ivar => do
    let id ← h.handles.get? handle
    return (.done, { h with store := h.store.setIvar id ivar (.int 0) })
  | .setCollecting enabled =>
    some (.done, { h with store := { h.store with gate := h.store.gate.set enabled } })
  | .ivarNames handle => do
    let id ← h.handles.get? handle
    let o ← h.store.objects[id.index]?
    return (.names o.ivars.sortedKeys, h)
  | .follow handle ivar => do
    let id ← h.handles.get? handle
    return (.optionalText ((h.store.ivar? id ivar).map (Value.debugText fun _ => "Instance")), h)
  | .state =>
    let s := h.store
    some (.state s.gate.enabled s.gate.pending s.allocations s.tracked s.living, h)
  | .collect =>
    let (result, store) := h.store.collect h.roots
    some (.collected result, { h with store })
  | .nestPauses =>
    let (flags, h) := h.nestPauses
    some (.flags flags, h)

def answers (steps : List StoreStep) : Option (List StoreAnswer) := transcript perform empty steps

end Holding

end ObjectRuntime
