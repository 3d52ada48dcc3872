import ObjectRuntime.Answer
import ObjectRuntime.Collector.Gate
import ObjectRuntime.Core
import ObjectRuntime.Frame.Scope
import ObjectRuntime.Object

/-!
# The machine

Everything that a run reads and changes: objects, frames, modules, global variables, symbols,
counters, the call depth, and the desk of the observer, whose registers hold values outside the
machine proper.
-/

set_option autoImplicit false

namespace ObjectRuntime

/-- A way out of a computation that is on its way to a target. A raise that no rescue will take has
no target; a throw always has one. -/
inductive Signal where
  | raise (exception : ObjectId) (target : Option Token)
  | throw (tag value : Value) (target : Token)
deriving DecidableEq

inductive MissReason where
  | notFound
  | hidden
  | guarded
deriving DecidableEq

def MissReason.name : MissReason → String
  | notFound => "Undefined"
  | hidden => "Private"
  | guarded => "Protected"

/-- The objects, in the order in which they were made. -/
structure Heap where
  objects : Array Object
  gate : Gate

namespace Heap

def empty : Heap := ⟨#[], .opened⟩
def size (h : Heap) : Nat := h.objects.size
def get? (h : Heap) (id : ObjectId) : Option Object := h.objects[id.index]?
def next (h : Heap) : ObjectId := ⟨h.size⟩
def push (h : Heap) (o : Object) : Heap := { h with objects := h.objects.push o }

def modify (h : Heap) (id : ObjectId) (f : Object → Object) : Heap :=
  { h with objects := h.objects.modify id.index f }

@[simp] theorem size_push (h : Heap) (o : Object) : (h.push o).size = h.size + 1 :=
  Array.size_push o

@[simp] theorem size_modify (h : Heap) (id : ObjectId) (f : Object → Object) :
    (h.modify id f).size = h.size := Array.size_modify

theorem get?_modify (h : Heap) (id other : ObjectId) (f : Object → Object) :
    (h.modify id f).get? other = if id = other then (h.get? other).map f else h.get? other := by
  cases id with | mk i => cases other with | mk j =>
    simp [get?, modify, Array.getElem?_modify]

theorem get?_push (h : Heap) (o : Object) (id : ObjectId) :
    (h.push o).get? id = if id = h.next then some o else h.get? id := by
  cases id with | mk i =>
    simp [get?, push, next, size, Array.getElem?_push]

theorem get?_push_next (h : Heap) (o : Object) : (h.push o).get? h.next = some o := by
  rw [get?_push, if_pos rfl]

theorem get?_next (h : Heap) : h.get? h.next = none := Array.getElem?_eq_none (Nat.le_refl _)

end Heap

/-- What the observer holds: values, kept signals, and the log with its last entry first. -/
structure Desk where
  registers : Bindings Value
  kept : Bindings Signal
  log : List Answer

structure Machine where
  heap : Heap
  frames : Frames
  hierarchy : Hierarchy
  globals : Bindings Value
  symbols : Bindings ObjectId
  missReason : MissReason
  settings : Settings
  counters : Option Counters
  /-- The frame of the innermost running call. -/
  current : Option FrameId
  depth : Nat
  tokens : Nat
  methodsMade : Nat
  desk : Desk

end ObjectRuntime
