import ObjectRuntime.Collector.Mark
import ObjectRuntime.Opening

/-!
# Observing

The answers to questions. Asking changes nothing but the collector's gate, when a collection is
asked for.
-/

set_option autoImplicit false

namespace ObjectRuntime

namespace Machine

variable (m : Machine)

def facts (v : Value) : Facts where
  isImmediate := v.isImmediate
  isImmediateInt := match v with | .int _ => true | _ => false
  isImmediateFloat := match v with | .float _ => true | _ => false
  isTruthy := m.truthy v
  isNil := m.isNil v
  int := m.int? v
  float := m.float? v
  symbol := m.symbol? v
  isException := m.isException v
  isBoxedNumber := ((m.object? v).map Object.isBoxedNumber).getD false
  module := (m.module? v).map m.className
  hasSingletons := ((m.object? v).map fun o => !o.singletonMethods.isEmpty).getD false

def moduleView? (id : ModuleId) : Option ModuleView :=
  (m.hierarchy.get? id).map fun entry =>
    { name := m.className id
      kind := entry.kind
      index := id.index
      superclass := entry.superclass.map m.className
      constants := ((m.frames.get? entry.frame).map fun f => f.bindings.sortedKeys).getD []
      metaclass := m.className (m.classOf (.object entry.object)) }

def blockView (block : Block) : BlockView where
  arity := block.arity
  receiver := m.view block.receiver
  frameKind := m.frames.kindOf block.frame

def frameView? (id : FrameId) : Option FrameView :=
  (m.frames.get? id).map fun f =>
    let methodFrame := m.frames.methodFrame? id
    { kind := f.kind
      outer := f.outer.map m.frames.kindOf
      caller := f.caller.map m.frames.kindOf
      position := m.frames.position id
      method := f.method.map (·.name)
      hasBlock := f.block.isSome
      receiver := f.receiver.map m.view
      ancestorIndex := f.ancestorIndex
      methodFrame := methodFrame.map m.frames.kindOf
      inMethod := (m.frames.currentMethod? id).map (·.name)
      methodReceiver := methodFrame.map fun frame =>
        ((m.frames.get? frame).bind (·.receiver)).map m.view
      currentBlock := (m.frames.currentBlock? id).map m.blockView
      isTarget := !f.targets.isEmpty
      exception := f.exception.map m.view
      isCurrent := m.current == some id }

def marksView (env : FrameId) (registers : List String) : MarksView :=
  let marks := m.marks
  let isMarked (node : Node) := Graph.isMarked marks (m.numberOf node)
  { objects := m.markedObjects marks
    modules := m.markedModules marks
    registers := registers.map fun r =>
      match m.desk.registers.get? r with
      | some (.object id) => isMarked (.object id)
      | _ => false
    currentFrame := isMarked (.frame env) }

/-- The answer to a question that leaves the machine as it is. Without one, the operands do not fit
the question. -/
def answer? (env : FrameId) (q : Question) (operands : List Value) : Option Answer :=
  match q, operands with
  | .inspect, [v] => some (.text (m.inspect v))
  | .debug, [v] => some (.text (m.debugText v))
  | .describe, [v] => some (.text (m.describeReceiver v))
  | .classOf, [v] => some (.text (m.className (m.classOf v)))
  | .same, [a, b] => some (.flag (a.same b))
  | .equal, [a, b] => some (.flag (m.equal a b))
  | .facts, [v] => some (.facts (m.facts v))
  | .ivarNames, [v] => some (.optionalNames ((m.object? v).map fun o => o.ivars.sortedKeys))
  | .exceptionData, [v] => some (.exception (v.object?.bind m.exceptionView?))
  | .isA, [v, c] => (m.module? c).map fun id => .flag (m.isA v id)
  | .respondTo name includePrivate, [v] => some (.flag (m.respondsTo v name includePrivate))
  | .resolve name, [v] =>
    some (.method ((v.object?.bind fun id => m.resolve id name).map m.methodView))
  | .singleton name, [v] =>
    some (.method ((v.object?.bind fun id => m.singletonMethod? id name).map m.methodView))
  | .ancestors, [c] => (m.module? c).map fun id =>
    .names ((m.hierarchy.ancestors id).map m.className)
  | .superclasses, [c] => (m.module? c).map fun id =>
    .names ((m.hierarchy.superclasses id).map m.className)
  | .includes, [c] => (m.module? c).map fun id =>
    .names ((m.hierarchy.includesOf id).reverse.map m.className)
  | .inherits, [a, b] =>
    match m.module? a, m.module? b with
    | some x, some y => some (.flag (m.hierarchy.inherits x y))
    | _, _ => none
  | .methodNames, [c] => ((m.module? c).bind m.hierarchy.get?).map fun entry =>
    .names entry.methods.sortedKeys
  | .method place name, [c] => (m.module? c).map fun id =>
    .method ((m.hierarchy.search place id name).map m.methodView)
  | .moduleInfo, [c] => ((m.module? c).bind m.moduleView?).map .module
  | .moduleCount, [] =>
    some (.modules ((List.range m.hierarchy.size).map fun n => m.className ⟨n⟩))
  | .lookup name, [] => some (.binding ((m.frames.lookup env name).map m.view))
  | .localBinding name, [] => some (.binding ((m.frames.lookupLocal env name).map m.view))
  | .localNames, [] => (m.frames.get? env).map fun f => .names f.bindings.sortedKeys
  | .backtrace, [] => some (.backtrace (m.backtrace env))
  | .depth, [] => some (.number m.depth)
  | .frame, [] => (m.frameView? env).map .frame
  | .isGlobalDefined name, [] => some (.flag (m.globals.contains name))
  | .missReason, [] => some (.text m.missReason.name)
  | .counters, [] => some (.counters m.counters)
  | .counterReport, [] => some (.optionalText (m.counters.map Counters.report))
  | .settings, [] => some (.settings m.settings)
  | .allocations, [] => some (.number m.heap.size)
  | .collectorState, [] => some (.collector m.heap.gate.enabled m.heap.gate.pending)
  | .mark registers, [] => some (.marks (m.marksView env registers))
  | _, _ => none

end Machine

namespace Run

def setGate (gate : Gate) : Run Unit := modify fun m => { m with heap := { m.heap with gate } }

/-- The number of objects reached, or none when collection is off. -/
def collect : Run (Option Nat) := do
  let (allowed, gate) := (← read fun m => m.heap.gate).request
  setGate gate
  if allowed then return some (← read fun m => m.markedObjects m.marks) else return none

def ask (env : FrameId) (q : Question) (operands : List Value) : Run Unit := do
  match q with
  | .collect => log (.reachable (← collect))
  | q => log (← ofOption (← read fun m => m.answer? env q operands))

def hydrateRegister (name : String) : Run Value := do
  let v ← ofOption (← read fun m => m.desk.registers.get? name)
  let boxed := Value.object (← hydrate v)
  setRegister name boxed
  return boxed

mutual

def paused (env : FrameId) (steps : List PauseStep) : Run Unit := do
  let (guard, gate) := (← read fun m => m.heap.gate).pause
  setGate gate
  afterward (pausedSteps env steps) fun m =>
    { m with heap := { m.heap with gate := m.heap.gate.release guard } }

def pausedSteps (env : FrameId) : List PauseStep → Run Unit
  | [] => return ()
  | step :: rest => do
    pauseStep env step
    pausedSteps env rest

def pauseStep (env : FrameId) : PauseStep → Run Unit
  | .hydrate register => do let _ ← hydrateRegister register
  | .collect => ask env .collect []
  | .collectorState => ask env .collectorState []
  | .enable => do setGate ((← read fun m => m.heap.gate).set true)
  | .paused steps => paused env steps

end

end Run

end ObjectRuntime
