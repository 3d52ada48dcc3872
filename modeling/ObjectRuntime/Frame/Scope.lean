import ObjectRuntime.Frame.Basic
import ObjectRuntime.Text.Capital

/-!
# Lexical scope

A name is looked up in the frame and then outward. The way out of a frame is open if the frame is
transparent, or if the name is a constant or one of the words `nil`, `true` and `false`. Assignment
goes to the frame where look-up finds the name, or else to the frame itself.

`scopes` is the list of enclosing frames and `searched` the part of it that is open; look-up is the
first binding there.
-/

set_option autoImplicit false

namespace ObjectRuntime

/-- Names that are seen from inside a method: those that start with a capital letter, and the
reserved words. -/
def isLexicallyVisible (name : String) : Bool :=
  name == "nil" || name == "true" || name == "false" ||
    match name.toList with
    | c :: _ => Text.isCapital c
    | [] => false

namespace Frames

def outer? (fs : Frames) (id : FrameId) : Option FrameId := (fs.get? id).bind (·.outer)

def caller? (fs : Frames) (id : FrameId) : Option FrameId := (fs.get? id).bind (·.caller)

def scopes (fs : Frames) (id : FrameId) : List FrameId := chain FrameId.index fs.outer? id

def callers (fs : Frames) (id : FrameId) : List FrameId := chain FrameId.index fs.caller? id

def kindOf (fs : Frames) (id : FrameId) : FrameKind := ((fs.get? id).map (·.kind)).getD .top

/-- The frames up to the first one that closes the way out, that one included. -/
def searched (fs : Frames) (visible : Bool) : List FrameId → List FrameId
  | [] => []
  | id :: rest =>
    if visible || (fs.kindOf id).isTransparent then id :: searched fs visible rest else [id]

def lookupLocal (fs : Frames) (id : FrameId) (name : String) : Option Value :=
  (fs.get? id).bind fun f => f.bindings.get? name

def definingFrame? (fs : Frames) (id : FrameId) (name : String) : Option FrameId :=
  (fs.searched (isLexicallyVisible name) (fs.scopes id)).find? fun frame =>
    (fs.lookupLocal frame name).isSome

def lookup (fs : Frames) (id : FrameId) (name : String) : Option Value :=
  (fs.definingFrame? id name).bind fun frame => fs.lookupLocal frame name

def define (fs : Frames) (id : FrameId) (name : String) (value : Value) : Frames :=
  fs.modify id fun f => f.define name value

def assign (fs : Frames) (id : FrameId) (name : String) (value : Value) : Frames :=
  fs.define ((fs.definingFrame? id name).getD id) name value

/-- The position of the frame, or of the nearest enclosing frame that has one. -/
def position (fs : Frames) (id : FrameId) : Option Position :=
  first? FrameId.index fs.outer? (fun frame => (fs.get? frame).bind (·.position)) id

/-- The file stays, also when it comes from a frame around this one; the frames around keep their
lines. -/
def setLine (fs : Frames) (id : FrameId) (line : Nat) : Frames :=
  match fs.position id with
  | some p => fs.modify id fun f => { f with position := some { p with line } }
  | none => fs

/-- The nearest method frame, looking through the blocks in between. -/
def methodFrameAmong (fs : Frames) : List FrameId → Option FrameId
  | [] => none
  | id :: rest =>
    match fs.kindOf id with
    | .method | .closureMethod => some id
    | .block => methodFrameAmong fs rest
    | .top | .moduleBody => none

def methodFrame? (fs : Frames) (id : FrameId) : Option FrameId :=
  fs.methodFrameAmong (fs.scopes id)

def currentBlock? (fs : Frames) (id : FrameId) : Option Block :=
  ((fs.methodFrame? id).bind fs.get?).bind (·.block)

def currentMethod? (fs : Frames) (id : FrameId) : Option Method :=
  ((fs.methodFrame? id).bind fs.get?).bind (·.method)

def findTarget (fs : Frames) (id : FrameId) (accepts : TargetKind → Bool) : Option Token :=
  first? FrameId.index fs.caller?
    (fun frame => (fs.get? frame).bind fun f => f.findTarget accepts) id

theorem position_eq (fs : Frames) (id : FrameId) :
    fs.position id = (fs.scopes id).findSome? fun frame => (fs.get? frame).bind (·.position) :=
  first?_eq ..

theorem findTarget_eq (fs : Frames) (id : FrameId) (accepts : TargetKind → Bool) :
    fs.findTarget id accepts =
      (fs.callers id).findSome? fun frame => (fs.get? frame).bind fun f => f.findTarget accepts :=
  first?_eq ..

end Frames

end ObjectRuntime
