import ObjectRuntime.Collector.Graph
import ObjectRuntime.Machine.Reading

/-!
# What the machine reaches

Objects, frames and modules refer to each other. The mark pass starts from the global variables, the
fixed objects, the main frame, the frame that runs, every module, and the symbols. Modules are only
marked where they are met: each of them is among the roots with all it refers to.
-/

set_option autoImplicit false

namespace ObjectRuntime

inductive Node where
  | object (id : ObjectId)
  | frame (id : FrameId)
  | module (id : ModuleId)
deriving DecidableEq

def Value.nodes : Value → List Node
  | .object id => [.object id]
  | .int _ | .float _ => []

def Method.nodes (method : Method) : List Node :=
  .module method.owner :: (method.body.frame?.map Node.frame).toList

def Block.nodes (block : Block) : List Node := .frame block.frame :: block.receiver.nodes

def Payload.nodes : Payload → List Node
  | .module id => [.module id]
  | .proc block => block.nodes
  | _ => []

def Object.nodes (o : Object) : List Node :=
  .module o.cls :: (o.ivars.values.flatMap Value.nodes ++
    o.singletonMethods.values.flatMap Method.nodes ++ o.payload.nodes)

def Target.nodes (t : Target) : List Node :=
  match t.kind with
  | .catching tag => tag.nodes
  | .rescue => []

def Frame.nodes (f : Frame) : List Node :=
  f.bindings.values.flatMap Value.nodes ++ f.receiver.toList.flatMap Value.nodes ++
    (f.outer.map Node.frame).toList ++ (f.caller.map Node.frame).toList ++
    f.method.toList.flatMap Method.nodes ++ f.block.toList.flatMap Block.nodes ++
    f.targets.flatMap Target.nodes ++ f.exception.toList.flatMap Value.nodes

def Module.nodes (entry : Module) : List Node :=
  (entry.superclass.map Node.module).toList ++ entry.includes.map Node.module ++
    entry.methods.values.flatMap Method.nodes ++ entry.classMethods.values.flatMap Method.nodes ++
    [.frame entry.frame, .object entry.object]

namespace Machine

variable (m : Machine)

def edges : Node → List Node
  | .object id => ((m.heap.get? id).map Object.nodes).getD []
  | .frame id => ((m.frames.get? id).map Frame.nodes).getD []
  | .module _ => []

def roots : List Node :=
  m.globals.values.flatMap Value.nodes ++
    [.object .main, .frame .main, .object .nil, .object .true, .object .false] ++
    (m.current.map Node.frame).toList ++
    (List.range m.hierarchy.size).map (fun n => .module ⟨n⟩) ++
    m.hierarchy.modules.toList.flatMap Module.nodes ++
    m.symbols.values.map Node.object

def nodeCount : Nat := m.heap.size + m.frames.size + m.hierarchy.size

/-- Objects come first, then frames, then modules. What is not there gets the number after all
others, which is never marked. -/
def numberOf : Node → Nat
  | .object id => if id.index < m.heap.size then id.index else m.nodeCount
  | .frame id => if id.index < m.frames.size then m.heap.size + id.index else m.nodeCount
  | .module id =>
    if id.index < m.hierarchy.size then m.heap.size + m.frames.size + id.index else m.nodeCount

def nodeOf (n : Nat) : Node :=
  if n < m.heap.size then .object ⟨n⟩
  else if n < m.heap.size + m.frames.size then .frame ⟨n - m.heap.size⟩
  else .module ⟨n - (m.heap.size + m.frames.size)⟩

def successors (n : Nat) : List Nat := (m.edges (m.nodeOf n)).map m.numberOf

def marksOf (roots : List Node) : Array Bool :=
  Graph.marksFrom m.successors m.nodeCount (roots.map m.numberOf)

def marks : Array Bool := m.marksOf m.roots

def markedObjects (marks : Array Bool) : Nat := Graph.countMarked marks 0 m.heap.size

def markedModules (marks : Array Bool) : Nat :=
  Graph.countMarked marks (m.heap.size + m.frames.size) m.hierarchy.size

end Machine

end ObjectRuntime
