import ObjectRuntime.Bindings
import ObjectRuntime.Chain
import ObjectRuntime.Frame.Kind
import ObjectRuntime.Method

/-!
# Scope frames

Every call has a frame. A frame binds names, knows the frame that encloses it lexically, and, while
it runs, the frame that called it. The rescues and catches that are active on it are its targets,
innermost first.
-/

set_option autoImplicit false

namespace ObjectRuntime

structure Position where
  file : String
  line : Nat
deriving DecidableEq

/-- What a target takes: any raised exception, or throws of one tag. -/
inductive TargetKind where
  | rescue
  | catching (tag : Value)
deriving DecidableEq

structure Target where
  token : Token
  kind : TargetKind
deriving DecidableEq

structure Frame where
  kind : FrameKind
  outer : Option FrameId
  bindings : Bindings Value
  caller : Option FrameId
  position : Option Position
  method : Option Method
  block : Option Block
  receiver : Option Value
  /-- Where among the receiver's ancestors the running method was found, if a super call found
  it. -/
  ancestorIndex : Option Nat
  targets : List Target
  /-- The exception that the last rescue delivered here. -/
  exception : Option Value

namespace Frame

def fresh (kind : FrameKind) (outer : Option FrameId) : Frame where
  kind := kind
  outer := outer
  bindings := .empty
  caller := none
  position := none
  method := none
  block := none
  receiver := none
  ancestorIndex := none
  targets := []
  exception := none

instance : Inhabited Frame := ⟨fresh .top none⟩

def define (f : Frame) (name : String) (value : Value) : Frame :=
  { f with bindings := f.bindings.insert name value }

def pushTarget (f : Frame) (target : Target) : Frame := { f with targets := target :: f.targets }

def dropTarget (f : Frame) (token : Token) : Frame :=
  { f with targets := f.targets.eraseP fun t => t.token == token }

def findTarget (f : Frame) (accepts : TargetKind → Bool) : Option Token :=
  (f.targets.find? fun t => accepts t.kind).map (·.token)

end Frame

structure Frames where
  table : Array Frame

namespace Frames

def empty : Frames := ⟨#[]⟩
def size (fs : Frames) : Nat := fs.table.size
def get? (fs : Frames) (id : FrameId) : Option Frame := fs.table[id.index]?
def next (fs : Frames) : FrameId := ⟨fs.size⟩
def push (fs : Frames) (f : Frame) : Frames := ⟨fs.table.push f⟩
def modify (fs : Frames) (id : FrameId) (f : Frame → Frame) : Frames := ⟨fs.table.modify id.index f⟩

@[simp] theorem size_push (fs : Frames) (f : Frame) : (fs.push f).size = fs.size + 1 :=
  Array.size_push f

@[simp] theorem size_modify (fs : Frames) (id : FrameId) (f : Frame → Frame) :
    (fs.modify id f).size = fs.size := Array.size_modify

theorem get?_modify (fs : Frames) (id other : FrameId) (f : Frame → Frame) :
    (fs.modify id f).get? other = if id = other then (fs.get? other).map f else fs.get? other := by
  cases id with | mk i => cases other with | mk j =>
    simp [get?, modify, Array.getElem?_modify]

theorem get?_push (fs : Frames) (f : Frame) (id : FrameId) :
    (fs.push f).get? id = if id = fs.next then some f else fs.get? id := by
  cases id with | mk i =>
    simp [get?, push, next, size, Array.getElem?_push]

end Frames

end ObjectRuntime
