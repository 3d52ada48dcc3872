import ObjectRuntime.Machine.Basic

/-!
# Other names for everything

Names stand in tables as keys, and in methods, symbols, exceptions, modules and positions. A
renaming replaces each of them by what a function makes of it and leaves the rest of the machine as
it is. The registers and the log of the observer have no names of the machine in them, nor has the
code of methods and blocks.
-/

set_option autoImplicit false

namespace ObjectRuntime

def Bindings.rename {α : Type} (f : String → String) (g : α → α) (b : Bindings α) : Bindings α :=
  ⟨b.entries.map fun entry => (f entry.1, g entry.2)⟩

def Method.rename (f : String → String) (m : Method) : Method := { m with name := f m.name }

def Position.rename (f : String → String) (p : Position) : Position := { p with file := f p.file }

def Frame.rename (f : String → String) (frame : Frame) : Frame :=
  { frame with
    bindings := frame.bindings.rename f id
    position := frame.position.map (·.rename f)
    method := frame.method.map (·.rename f) }

def ExceptionData.rename (f : String → String) (data : ExceptionData) : ExceptionData :=
  { data with name := data.name.map f }

def Payload.rename (f : String → String) : Payload → Payload
  | .symbol name => .symbol (f name)
  | .exception data => .exception (data.rename f)
  | payload => payload

def Object.rename (f : String → String) (o : Object) : Object :=
  { o with
    payload := o.payload.rename f
    ivars := o.ivars.rename f id
    singletonMethods := o.singletonMethods.rename f (·.rename f) }

def Module.rename (f : String → String) (m : Module) : Module :=
  { m with
    name := m.name.map f
    methods := m.methods.rename f (·.rename f)
    classMethods := m.classMethods.rename f (·.rename f) }

def Heap.rename (f : String → String) (h : Heap) : Heap :=
  { h with objects := h.objects.map (·.rename f) }

def Frames.rename (f : String → String) (fs : Frames) : Frames := ⟨fs.table.map (·.rename f)⟩

def Hierarchy.rename (f : String → String) (h : Hierarchy) : Hierarchy :=
  ⟨h.modules.map (·.rename f)⟩

def Machine.rename (f : String → String) (m : Machine) : Machine :=
  { m with
    heap := m.heap.rename f
    frames := m.frames.rename f
    hierarchy := m.hierarchy.rename f
    globals := m.globals.rename f id
    symbols := m.symbols.rename f id }

end ObjectRuntime
