import ObjectRuntime.Collector.Mark
import ObjectRuntime.Dispatch
import ObjectRuntime.Proofs.Numbered.Renaming

/-!
# Reading a renamed machine

What is read off a machine without looking at names is the same after a renaming, and the mark pass
reaches the same objects. What is read under a name is the same under the other name.
-/

set_option autoImplicit false

namespace ObjectRuntime

variable {f : String → String}

namespace Machine

variable (m : Machine)

@[simp] theorem rename_heap : (m.rename f).heap = m.heap.rename f := rfl

@[simp] theorem rename_frames : (m.rename f).frames = m.frames.rename f := rfl

@[simp] theorem rename_hierarchy : (m.rename f).hierarchy = m.hierarchy.rename f := rfl

/-! ### Values -/

theorem object?_rename (v : Value) : (m.rename f).object? v = (m.object? v).map (·.rename f) := by
  rw [object?, object?, Option.map_bind]
  exact congrArg _ (funext fun id => m.heap.get?_rename id)

theorem payload?_rename (v : Value) :
    (m.rename f).payload? v = (m.payload? v).map (·.rename f) := by
  rw [payload?, object?_rename, Option.map_map, payload?, Option.map_map]
  rfl

theorem int?_rename (v : Value) : (m.rename f).int? v = m.int? v := by
  cases v with
  | int => rfl
  | float => rfl
  | object id =>
    simp only [int?, payload?_rename]
    cases m.payload? (.object id) with
    | none => rfl
    | some payload => cases payload <;> rfl

theorem symbol?_rename (v : Value) : (m.rename f).symbol? v = (m.symbol? v).map f := by
  rw [symbol?, payload?_rename, symbol?]
  cases m.payload? v with
  | none => rfl
  | some payload => cases payload <;> rfl

theorem text?_rename (v : Value) : (m.rename f).text? v = m.text? v := by
  rw [text?, payload?_rename, text?]
  cases m.payload? v with
  | none => rfl
  | some payload => cases payload <;> rfl

theorem block?_rename (v : Value) : (m.rename f).block? v = m.block? v := by
  rw [block?, payload?_rename, block?]
  cases m.payload? v with
  | none => rfl
  | some payload => cases payload <;> rfl

theorem isNil_rename (v : Value) : (m.rename f).isNil v = m.isNil v := by
  rw [isNil, payload?_rename, isNil]
  cases m.payload? v with
  | none => rfl
  | some payload => cases payload <;> rfl

theorem truthy_rename : (m.rename f).truthy = m.truthy := by
  funext v
  rw [truthy, payload?_rename, truthy]
  cases m.payload? v with
  | none => rfl
  | some payload => cases payload <;> rfl

theorem module?_rename : (m.rename f).module? = m.module? := by
  funext v
  rw [module?, object?_rename, Option.bind_map, module?]
  exact congrArg _ (funext Object.module?_rename)

theorem exception?_rename (v : Value) :
    (m.rename f).exception? v = (m.exception? v).map (·.rename f) := by
  rw [exception?, object?_rename, Option.bind_map, exception?, Option.map_bind]
  exact congrArg _ (funext Object.exception?_rename)

theorem isException_rename (v : Value) : (m.rename f).isException v = m.isException v := by
  rw [isException, exception?_rename, Option.isSome_map, isException]

theorem unboxed?_rename (v : Value) : (m.rename f).unboxed? v = m.unboxed? v := by
  have boxed (id : ObjectId) : ((m.heap.rename f).get? id).map Object.isBoxedNumber =
      (m.heap.get? id).map Object.isBoxedNumber := by
    rw [Heap.get?_rename, Option.map_map]
    exact congrArg₂ _ (funext Object.isBoxedNumber_rename) rfl
  simp only [unboxed?, rename_heap, boxed]

/-! ### Classes and methods -/

theorem classOf_rename (v : Value) : (m.rename f).classOf v = m.classOf v := by
  cases v with
  | int => rfl
  | float => rfl
  | object id =>
    simp only [classOf, rename_heap, Heap.get?_rename, Option.map_map]
    rfl

theorem isA_rename (v : Value) (id : ModuleId) : (m.rename f).isA v id = m.isA v id := by
  simp only [isA, classOf_rename, rename_hierarchy, Hierarchy.inherits_rename]

theorem moduleObject_rename (id : ModuleId) :
    (m.rename f).moduleObject id = m.moduleObject id := by
  simp only [moduleObject, rename_hierarchy, Hierarchy.get?_rename]
  cases m.hierarchy.get? id <;> rfl

theorem ownerFrame_rename (id : ModuleId) :
    Run.ownerFrame (m.rename f) id = Run.ownerFrame m id := by
  simp only [Run.ownerFrame, rename_hierarchy, Hierarchy.get?_rename, Option.map_map]
  rfl

section Names

variable (injective : Function.Injective f) (name : String)
include injective

theorem singletonMethod?_rename (id : ObjectId) :
    (m.rename f).singletonMethod? id (f name) =
      (m.singletonMethod? id name).map (·.rename f) := by
  rw [singletonMethod?, rename_heap, Heap.get?_rename, Option.bind_map, singletonMethod?,
    Option.map_bind]
  exact congrArg _ (funext fun o => Bindings.get?_rename injective o.singletonMethods name)

theorem resolve_rename (id : ObjectId) :
    (m.rename f).resolve id (f name) = (m.resolve id name).map (·.rename f) := by
  simp only [resolve, m.singletonMethod?_rename injective, module?_rename, classOf_rename,
    rename_hierarchy, Hierarchy.findMethod_rename injective,
    Hierarchy.findClassMethod_rename injective]
  cases m.singletonMethod? id name with
  | some method => rfl
  | none =>
    cases m.module? (.object id) with
    | none => rfl
    | some cls =>
      simp only [Option.map_none, Option.bind_some]
      cases m.hierarchy.findClassMethod cls name <;> rfl

theorem respondsTo_rename (v : Value) (includePrivate : Bool) :
    (m.rename f).respondsTo v (f name) includePrivate = m.respondsTo v name includePrivate := by
  cases v with
  | object id =>
    simp only [respondsTo, m.resolve_rename injective, Method.defined?_rename]
    cases Method.defined? (m.resolve id name) <;> rfl
  | int i | float x =>
    simp only [respondsTo, rename_hierarchy, classOf_rename, Hierarchy.findMethod_rename injective,
      Method.defined?_rename]
    cases Method.defined? (m.hierarchy.findMethod (m.classOf _) name) <;> rfl

theorem ivar_rename (v : Value) :
    (((m.rename f).unboxed? v).bind (m.rename f).heap.get?).bind (fun o => o.ivars.get? (f name)) =
      ((m.unboxed? v).bind m.heap.get?).bind fun o => o.ivars.get? name := by
  rw [unboxed?_rename, Option.bind_assoc, Option.bind_assoc]
  refine congrArg _ (funext fun id => ?_)
  rw [rename_heap, Heap.get?_rename, Option.bind_map]
  exact congrArg _ (funext fun o => Bindings.get?_rename_id injective o.ivars name)

theorem nextDefinition_rename (id : ObjectId) (current : Method) (recorded : Option Nat) :
    Run.nextDefinition (m.rename f) id (current.rename f) recorded =
      (Run.nextDefinition m id current recorded).map fun entry => (entry.1, entry.2.rename f) := by
  have above (cls : ModuleId) :=
    m.hierarchy.findClassMethodAfter_rename injective current.name cls current.owner
  have after :=
    m.hierarchy.findMethodAfter_rename injective current.name (m.classOf (.object id)) current.owner
  have own := m.hierarchy.ownClassMethod?_rename injective current.name current.owner
  -- Whether the running method is a class-level one is told by serial numbers, not by names.
  have same (method : Method) :
      (method.rename f).isIdentical (current.rename f) = method.isIdentical current := rfl
  have defined (found : Option (Option Nat × Method)) :
      (found.filter fun e => !e.2.isUndefined).map (fun e => (e.1, e.2.rename f)) =
        (found.map fun e => (e.1, e.2.rename f)).filter fun e => !e.2.isUndefined := by
    rw [Option.filter_map]
    rfl
  simp only [Run.nextDefinition, Method.rename_owner, Method.rename_name, rename_hierarchy,
    module?_rename, classOf_rename, above, after, defined, own]
  refine congrArg _ ?_
  cases m.hierarchy.ownClassMethod? current.owner current.name with
  | none => cases m.module? (.object id) <;> simp only [Option.map_map, Option.map_none] <;> rfl
  | some method =>
    simp only [Option.map_some, same]
    cases m.module? (.object id) <;> cases method.isIdentical current <;>
      simp only [Option.map_map] <;> rfl

end Names

end Machine

/-! ### The mark pass -/

theorem Method.nodes_rename (b : Bindings Method) :
    (b.rename f (·.rename f)).values.flatMap nodes = b.values.flatMap nodes := by
  rw [Bindings.values_rename, List.flatMap_map]
  rfl

theorem Object.nodes_rename (o : Object) : (o.rename f).nodes = o.nodes := by
  have payload : (o.payload.rename f).nodes = o.payload.nodes := by cases o.payload <;> rfl
  simp only [nodes, Object.rename, payload, Bindings.values_rename_id, Method.nodes_rename]

theorem Frame.nodes_rename (frame : Frame) : (frame.rename f).nodes = frame.nodes := by
  simp only [nodes, Frame.rename, Bindings.values_rename_id]
  cases frame.method <;> rfl

theorem Module.nodes_rename (entry : Module) : (entry.rename f).nodes = entry.nodes := by
  simp only [nodes, Module.rename, Method.nodes_rename]

namespace Machine

variable (m : Machine)

theorem edges_rename : (m.rename f).edges = m.edges := by
  funext node
  cases node with
  | object id =>
    simp only [edges, rename_heap, Heap.get?_rename, Option.map_map]
    exact congrArg (Option.getD · _) (congrArg₂ _ (funext Object.nodes_rename) rfl)
  | frame id =>
    simp only [edges, rename_frames, Frames.get?_rename, Option.map_map]
    exact congrArg (Option.getD · _) (congrArg₂ _ (funext Frame.nodes_rename) rfl)
  | module id => rfl

theorem roots_rename : (m.rename f).roots = m.roots := by
  have modules : (m.hierarchy.rename f).modules.toList.flatMap Module.nodes =
      m.hierarchy.modules.toList.flatMap Module.nodes := by
    rw [Hierarchy.rename, Array.toList_map, List.flatMap_map]
    exact congrArg₂ _ (funext Module.nodes_rename) rfl
  have globals : (m.rename f).globals.values = m.globals.values := m.globals.values_rename_id
  have symbols : (m.rename f).symbols.values = m.symbols.values := m.symbols.values_rename_id
  simp only [roots, rename_hierarchy, Hierarchy.size_rename, modules, globals, symbols]
  rfl

theorem marks_rename : (m.rename f).marks = m.marks := by
  have nodeCount : (m.rename f).nodeCount = m.nodeCount := by
    simp only [Machine.nodeCount, rename_heap, rename_frames, rename_hierarchy, Heap.size_rename,
      Frames.size_rename, Hierarchy.size_rename]
  have numberOf : (m.rename f).numberOf = m.numberOf := by
    funext node
    cases node <;>
      simp only [Machine.numberOf, nodeCount, rename_heap, rename_frames, rename_hierarchy,
        Heap.size_rename, Frames.size_rename, Hierarchy.size_rename]
  have nodeOf : (m.rename f).nodeOf = m.nodeOf := by
    funext n
    simp only [Machine.nodeOf, rename_heap, rename_frames, Heap.size_rename, Frames.size_rename]
  have successors : (m.rename f).successors = m.successors := by
    funext n
    simp only [Machine.successors, edges_rename, nodeOf, numberOf]
  simp only [marks, marksOf, successors, nodeCount, roots_rename, numberOf]

theorem markedObjects_rename :
    (m.rename f).markedObjects (m.rename f).marks = m.markedObjects m.marks := by
  rw [marks_rename, markedObjects, rename_heap, Heap.size_rename, markedObjects]

end Machine

end ObjectRuntime
