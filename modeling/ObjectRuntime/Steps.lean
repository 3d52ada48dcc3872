import ObjectRuntime.Machine.Reading
import ObjectRuntime.Run

/-!
# Elementary steps

The small changes of the machine out of which everything else is made: new objects, frames, symbols,
tokens and serial numbers, and the counters.
-/

set_option autoImplicit false

namespace ObjectRuntime.Run

def allocate (o : Object) : Run ObjectId := update fun m =>
  (m.heap.next, { m with heap := m.heap.push o })

def modifyObject (id : ObjectId) (f : Object → Object) : Run Unit := modify fun m =>
  { m with heap := m.heap.modify id f }

def newObject (cls : ModuleId) (payload : Payload) : Run Value := do
  return .object (← allocate (.ofPayload cls payload))

def newText (content : String) : Run Value := newObject Core.string.id (.text content)

def newException (cls : ModuleId) (data : ExceptionData) : Run ObjectId :=
  allocate (.ofPayload cls (.exception data))

def symbol (name : String) : Run Value := do
  match ← read fun m => m.symbols.get? name with
  | some id => return .object id
  | none =>
    let id ← allocate (.ofPayload Core.symbol.id (.symbol name))
    modify fun m => { m with symbols := m.symbols.insert name id }
    return .object id

/-- Makes an object of an immediate number; a reference stays as it is. -/
def hydrate : Value → Run ObjectId
  | .object id => Pure.pure id
  | .int i => allocate (.ofPayload Core.integer.id (.int i))
  | .float x => allocate (.ofPayload Core.float.id (.float x))

def newFrame (f : Frame) : Run FrameId := update fun m =>
  (m.frames.next, { m with frames := m.frames.push f })

def modifyFrame (id : FrameId) (f : Frame → Frame) : Run Unit := modify fun m =>
  { m with frames := m.frames.modify id f }

def modifyHierarchy (f : Hierarchy → Hierarchy) : Run Unit := modify fun m =>
  { m with hierarchy := f m.hierarchy }

def newToken : Run Token := update fun m =>
  (⟨m.tokens + 1⟩, { m with tokens := m.tokens + 1 })

/-- The method under a serial number that no other method has. -/
def stamp (method : Method) : Run Method := update fun m =>
  ({ method with serial := m.methodsMade + 1 }, { m with methodsMade := m.methodsMade + 1 })

def count (event : Event) : Run Unit := modify fun m =>
  { m with counters := m.counters.map fun c => c.count event 1 }

def setGlobal (name : String) (value : Value) : Run Unit := modify fun m =>
  { m with globals := m.globals.insert name value }

def log (answer : Answer) : Run Unit := modify fun m =>
  { m with desk := { m.desk with log := answer :: m.desk.log } }

def setRegister (name : String) (value : Value) : Run Unit := modify fun m =>
  { m with desk := { m.desk with registers := m.desk.registers.insert name value } }

end ObjectRuntime.Run
