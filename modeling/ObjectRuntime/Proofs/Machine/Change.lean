import ObjectRuntime.Boot
import ObjectRuntime.Machine.Reading
import ObjectRuntime.Proofs.Hierarchy.Edits
import ObjectRuntime.Proofs.Hierarchy.Lookup
import Mathlib.Logic.Relation

/-!
# Changes of the machine

`Change` lists what one operation of the runtime can do to a machine while no call is entered or
left: make or edit an object, edit a table, edit a frame, or touch what only the observer sees. The
code that it brings into the machine satisfies a predicate. `Step` adds the entering and leaving of
calls, and a machine is `Reachable` if steps lead to it from a new one.
-/

set_option autoImplicit false

namespace ObjectRuntime

/-! ### Code that satisfies a predicate -/

section Code

variable (P : Expr → Prop)

def Entry.Satisfies : Entry → Prop
  | .builtin _ => True
  | .code body => P body

def Body.Satisfies : Body → Prop
  | .native entry => entry.Satisfies P
  | .closure entry _ => entry.Satisfies P
  | .undefined => True

def Method.Satisfies (method : Method) : Prop := method.body.Satisfies P

def Block.Satisfies (block : Block) : Prop := block.entry.Satisfies P

def Payload.Satisfies : Payload → Prop
  | .proc block => block.Satisfies P
  | _ => True

def Frame.Satisfies (f : Frame) : Prop :=
  (∀ method, f.method = some method → method.Satisfies P) ∧
    ∀ block, f.block = some block → block.Satisfies P

end Code

/-! ### Objects and frames after a change of the store -/

theorem Heap.map_get?_modify {α : Type} (h : Heap) (id other : ObjectId) {f : Object → Object}
    (field : Object → α) (same : ∀ o, field (f o) = field o) :
    ((h.modify id f).get? other).map field = (h.get? other).map field := by
  rw [get?_modify]
  split
  · cases h.get? other with
    | none => rfl
    | some o => exact congrArg some (same o)
  · rfl

theorem Heap.bind_get?_modify {α : Type} (h : Heap) (id other : ObjectId) {f : Object → Object}
    (field : Object → Option α) (same : ∀ o, field (f o) = field o) :
    ((h.modify id f).get? other).bind field = (h.get? other).bind field := by
  rw [get?_modify]
  split
  · cases h.get? other with
    | none => rfl
    | some o => exact same o
  · rfl

theorem Heap.get?_push_cases {h : Heap} {o o' : Object} {id : ObjectId}
    (at_id : (h.push o).get? id = some o') : o' = o ∨ h.get? id = some o' := by
  rw [get?_push] at at_id
  split at at_id
  next => exact .inl (Option.some.inj at_id).symm
  next => exact .inr at_id

theorem Heap.get?_modify_cases {h : Heap} {id other : ObjectId} {f : Object → Object} {o' : Object}
    (at_other : (h.modify id f).get? other = some o') :
    (∃ o, other = id ∧ h.get? other = some o ∧ o' = f o) ∨ h.get? other = some o' := by
  rw [get?_modify] at at_other
  split at at_other
  next same =>
    obtain ⟨o, before, rfl⟩ := Option.map_eq_some_iff.1 at_other
    exact .inl ⟨o, same.symm, before, rfl⟩
  next => exact .inr at_other

theorem Frames.get?_push_cases {fs : Frames} {f f' : Frame} {id : FrameId}
    (at_id : (fs.push f).get? id = some f') : f' = f ∨ fs.get? id = some f' := by
  rw [get?_push] at at_id
  split at at_id
  next => exact .inl (Option.some.inj at_id).symm
  next => exact .inr at_id

theorem Frames.get?_modify_cases {fs : Frames} {id other : FrameId} {f : Frame → Frame}
    {f' : Frame} (at_other : (fs.modify id f).get? other = some f') :
    (∃ frame, other = id ∧ fs.get? other = some frame ∧ f' = f frame) ∨
      fs.get? other = some f' := by
  rw [get?_modify] at at_other
  split at at_other
  next same =>
    obtain ⟨frame, before, rfl⟩ := Option.map_eq_some_iff.1 at_other
    exact .inl ⟨frame, same.symm, before, rfl⟩
  next => exact .inr at_other

/-! ### Edits -/

/-- Another object of the same class with the same methods of its own; only the data of an exception
may differ in its payload. -/
structure Object.Alike (o o' : Object) : Prop where
  cls : o'.cls = o.cls
  singletonMethods : o'.singletonMethods = o.singletonMethods
  payload : o'.payload = o.payload ∨
    ∃ data data', o.payload = .exception data ∧ o'.payload = .exception data'

theorem Object.Alike.module? {o o' : Object} (alike : o.Alike o') : o'.module? = o.module? := by
  obtain same | ⟨data, data', before, after⟩ := alike.payload
  · rw [Object.module?, Object.module?, same]
  · rw [Object.module?, Object.module?, before, after]

theorem Object.mapException_alike (o : Object) (f : ExceptionData → ExceptionData) :
    o.Alike (o.mapException f) := by
  unfold mapException
  split
  next data payload => exact ⟨rfl, rfl, .inr ⟨data, f data, payload, rfl⟩⟩
  next => exact ⟨rfl, rfl, .inl rfl⟩

structure Frame.Alike (f f' : Frame) : Prop where
  caller : f'.caller = f.caller
  targets : f'.targets = f.targets
  method : f'.method = f.method
  block : f'.block = f.block

/-- What makes a new module from a name: the frame for its constants, its object and its entry. -/
def Machine.withModule (m : Machine) (name : String) (kind : ModuleKind)
    (superclass : Option ModuleId) (outer : Option FrameId) (metaclass : ModuleId) : Machine :=
  { m with
    frames := m.frames.push (Frame.fresh .moduleBody outer)
    heap := m.heap.push (.ofPayload metaclass (.module m.hierarchy.next))
    hierarchy := m.hierarchy.create
      { name := some name, kind, superclass, includes := [], methods := .empty
        classMethods := .empty, frame := m.frames.next, object := m.heap.next } }

def Machine.stamped (m : Machine) (method : Method) : Method :=
  { method with serial := m.methodsMade + 1 }

inductive Change (P : Expr → Prop) (m : Machine) : Machine → Prop where
  | make (cls : ModuleId) (payload : Payload) (code : payload.Satisfies P)
      (other : ∀ id, payload ≠ .module id) :
      Change P m { m with heap := m.heap.push (.ofPayload cls payload) }
  | edit (id : ObjectId) (f : Object → Object) (alike : ∀ o : Object, o.Alike (f o)) :
      Change P m { m with heap := m.heap.modify id f }
  | singleton (id : ObjectId) (method : Method) (code : method.Satisfies P)
      (general : method.operator = none) (other : m.module? (.object id) = none)
      (owner : ∀ o, m.heap.get? id = some o → method.owner = o.cls) :
      Change P m { m with
        methodsMade := m.methodsMade + 1
        heap := m.heap.modify id fun o =>
          { o with singletonMethods := o.singletonMethods.insert method.name (m.stamped method) } }
  | define (method : Method) (code : method.Satisfies P) (general : method.operator = none) :
      Change P m { m with
        methodsMade := m.methodsMade + 1
        hierarchy := m.hierarchy.defineMethod method.owner (m.stamped method) }
  | retag (owner : ModuleId) (name : String) (visibility : Visibility) (method : Method)
      (found : m.hierarchy.findMethod owner name = some method) :
      Change P m { m with
        methodsMade := m.methodsMade + 1
        hierarchy := m.hierarchy.defineMethod owner (m.stamped { method with visibility }) }
  | defineClassMethod (method : Method) (code : method.Satisfies P)
      (general : method.operator = none) :
      Change P m { m with
        methodsMade := m.methodsMade + 1
        hierarchy := m.hierarchy.defineClassMethod method.owner (m.stamped method) }
  | remove (owner : ModuleId) (name : String) :
      Change P m { m with hierarchy := m.hierarchy.removeMethod owner name }
  | includeModule (target id : ModuleId) (after : Hierarchy) (present : id.index < m.hierarchy.size)
      (done : m.hierarchy.includeModule target id = .ok after) :
      Change P m { m with hierarchy := after }
  | create (name : String) (kind : ModuleKind) (superclass : Option ModuleId)
      (outer : Option FrameId) (metaclass : ModuleId)
      (root : kind = .moduleKind → superclass = none) :
      Change P m (m.withModule name kind superclass outer metaclass)
  | frame (id : FrameId) (f : Frame → Frame) (alike : ∀ frame : Frame, frame.Alike (f frame)) :
      Change P m { m with frames := m.frames.modify id f }
  | observe (globals : Bindings Value) (symbols : Bindings ObjectId) (missReason : MissReason)
      (counters : Option Counters) (desk : Desk) (gate : Gate) :
      Change P m { m with globals, symbols, missReason, counters, desk, heap.gate := gate }

abbrev Changes (P : Expr → Prop) : Machine → Machine → Prop := Relation.ReflTransGen (Change P)

/-! ### Entries that a change makes -/

/-- A method that a change can put into the table of the module: a new one, or the copy of a method
found from there, with another visibility. -/
inductive Machine.Enters (P : Expr → Prop) (m : Machine) : ModuleId → Method → Prop where
  | new (method : Method) (code : method.Satisfies P) (general : method.operator = none) :
      Enters P m method.owner (m.stamped method)
  | copy (owner : ModuleId) (name : String) (visibility : Visibility) (method : Method)
      (found : m.hierarchy.findMethod owner name = some method) :
      Enters P m owner (m.stamped { method with visibility })

section Entries

variable {P : Expr → Prop} {m m' : Machine} {id : ModuleId} {name : String} {method : Method}

theorem Machine.Enters.serial (enters : m.Enters P id method) :
    method.serial = m.methodsMade + 1 := by
  cases enters <;> rfl

/-- An entry after a change was there before, or it is all that the change made. -/
theorem Change.ownMethod?_cases (change : Change P m m')
    (own : m'.hierarchy.ownMethod? id name = some method) :
    m.hierarchy.ownMethod? id name = some method ∨
      m.Enters P id method ∧ method.name = name ∧ m' = { m with
        methodsMade := m.methodsMade + 1
        hierarchy := m.hierarchy.defineMethod id method } := by
  cases change with
  | make | edit | singleton | frame | observe => exact .inl own
  | define made code general =>
    obtain ⟨rfl, rfl, rfl⟩ | before := Hierarchy.ownMethod?_defineMethod own
    · exact .inr ⟨.new made code general, rfl, rfl⟩
    · exact .inl before
  | retag owner wanted visibility source found =>
    obtain ⟨rfl, rfl, rfl⟩ | before := Hierarchy.ownMethod?_defineMethod own
    · exact .inr ⟨.copy id wanted visibility source found, rfl, rfl⟩
    · exact .inl before
  | defineClassMethod => exact .inl ((Hierarchy.ownMethod?_defineClassMethod ..).symm.trans own)
  | remove => exact .inl (Hierarchy.ownMethod?_removeMethod own)
  | includeModule target other after present done =>
    exact .inl ((Hierarchy.ownMethod?_includeModule done id name).symm.trans own)
  | create => exact .inl (Hierarchy.ownMethod?_create rfl own)

theorem Change.ownClassMethod?_cases (change : Change P m m')
    (own : m'.hierarchy.ownClassMethod? id name = some method) :
    m.hierarchy.ownClassMethod? id name = some method ∨
      ∃ made : Method, made.Satisfies P ∧ made.operator = none ∧ made.owner = id ∧
        made.name = name ∧ method = m.stamped made ∧ m' = { m with
          methodsMade := m.methodsMade + 1
          hierarchy := m.hierarchy.defineClassMethod id method } := by
  cases change with
  | make | edit | singleton | frame | observe => exact .inl own
  | define | retag => exact .inl ((Hierarchy.ownClassMethod?_defineMethod ..).symm.trans own)
  | defineClassMethod made code general =>
    obtain ⟨rfl, rfl, rfl⟩ | before := Hierarchy.ownClassMethod?_defineClassMethod own
    · exact .inr ⟨made, code, general, rfl, rfl, rfl, rfl⟩
    · exact .inl before
  | remove => exact .inl ((Hierarchy.ownClassMethod?_removeMethod ..).symm.trans own)
  | includeModule target other after present done =>
    exact .inl ((Hierarchy.ownClassMethod?_includeModule done id name).symm.trans own)
  | create => exact .inl (Hierarchy.ownClassMethod?_create rfl own)

end Entries

/-! ### What changes keep -/

/-- All code in the machine satisfies the predicate, and its module objects stand for modules. -/
structure Machine.Valid (P : Expr → Prop) (m : Machine) : Prop where
  methods : ∀ id name method, m.hierarchy.ownMethod? id name = some method → method.Satisfies P
  classMethods : ∀ id name method, m.hierarchy.ownClassMethod? id name = some method →
    method.Satisfies P
  singletons : ∀ id name method, m.singletonMethod? id name = some method → method.Satisfies P
  payloads : ∀ id o, m.heap.get? id = some o → o.payload.Satisfies P
  frames : ∀ id f, m.frames.get? id = some f → f.Satisfies P
  modules : ∀ id cls, m.module? (.object id) = some cls → cls.index < m.hierarchy.size

variable {P : Expr → Prop} {m m' : Machine}

theorem Machine.Valid.findMethod (valid : m.Valid P) {cls : ModuleId} {name : String}
    {method : Method} (found : m.hierarchy.findMethod cls name = some method) :
    method.Satisfies P := by
  rw [Hierarchy.findMethod_eq] at found
  obtain ⟨id, -, own⟩ := List.exists_of_findSome?_eq_some found
  exact valid.methods id name method own

theorem Machine.Valid.findMethodAfter (valid : m.Valid P) {cls owner : ModuleId} {name : String}
    {recorded : Option Nat} {place : Nat} {method : Method}
    (found : m.hierarchy.findMethodAfter cls owner name recorded = some (place, method)) :
    method.Satisfies P := by
  obtain ⟨start, -, entry⟩ := Option.bind_eq_some_iff.1 found
  have spec := (m.hierarchy.firstEntry_drop_eq_some cls name (start + 1) place method).1 entry
  obtain ⟨id, -, own⟩ := Option.bind_eq_some_iff.1 spec.2.1
  exact valid.methods id name method own

theorem Machine.Valid.findClassMethod (valid : m.Valid P) {cls : ModuleId} {name : String}
    {method : Method} (found : m.hierarchy.findClassMethod cls name = some method) :
    method.Satisfies P := by
  obtain ⟨id, -, own⟩ := List.exists_of_findSome?_eq_some found
  exact valid.classMethods id name method own

theorem Machine.Valid.findClassMethodAfter (valid : m.Valid P) {cls owner : ModuleId}
    {name : String} {method : Method}
    (found : m.hierarchy.findClassMethodAfter cls owner name = some method) :
    method.Satisfies P := by
  obtain ⟨id, -, own⟩ := List.exists_of_findSome?_eq_some found
  exact valid.classMethods id name method own

theorem Machine.Valid.resolve (valid : m.Valid P) {id : ObjectId} {name : String}
    {method : Method} (found : m.resolve id name = some method) : method.Satisfies P := by
  unfold Machine.resolve at found
  split at found
  next own => exact valid.singletons id name method (own.trans found)
  next =>
    split at found
    next at_class =>
      obtain ⟨cls, -, entry⟩ := Option.bind_eq_some_iff.1 (at_class.trans found)
      exact valid.findClassMethod entry
    next => exact valid.findMethod found

theorem Machine.Valid.module (valid : m.Valid P) {v : Value} {cls : ModuleId}
    (is_module : m.module? v = some cls) : cls.index < m.hierarchy.size := by
  cases v with
  | object id => exact valid.modules id cls is_module
  | int _ => cases is_module
  | float _ => cases is_module

/-- Validity when neither the code in tables nor the code in frames has changed, and every object is
like one that was there or holds valid code itself. -/
theorem Machine.Valid.of_heap (valid : m.Valid P) (hierarchy : m'.hierarchy = m.hierarchy)
    (frames : m'.frames = m.frames)
    (objects : ∀ id o', m'.heap.get? id = some o' →
      (∃ o, m.heap.get? id = some o ∧ o.Alike o') ∨
        (∃ cls payload, o' = .ofPayload cls payload ∧ payload.Satisfies P ∧
          ∀ id, payload ≠ .module id)) : m'.Valid P := by
  refine ⟨?_, ?_, ?_, ?_, ?_, ?_⟩
  · rw [hierarchy]
    exact valid.methods
  · rw [hierarchy]
    exact valid.classMethods
  · intro id name method own
    obtain ⟨o', at_id, own⟩ := Option.bind_eq_some_iff.1 own
    obtain ⟨o, before, alike⟩ | ⟨cls, payload, rfl, -, -⟩ := objects id o' at_id
    · rw [alike.singletonMethods] at own
      exact valid.singletons id name method (Option.bind_eq_some_iff.2 ⟨o, before, own⟩)
    · cases own
  · intro id o' at_id
    obtain ⟨o, before, alike⟩ | ⟨cls, payload, rfl, code, -⟩ := objects id o' at_id
    · obtain same | ⟨data, data', -, after⟩ := alike.payload
      · rw [same]
        exact valid.payloads id o before
      · rw [after]
        trivial
    · exact code
  · rw [frames]
    exact valid.frames
  · intro id cls is_module
    rw [hierarchy]
    obtain ⟨o', at_id, is_module⟩ := Option.bind_eq_some_iff.1 is_module
    obtain ⟨o, before, alike⟩ | ⟨_, payload, rfl, -, other⟩ := objects id o' at_id
    · rw [alike.module?] at is_module
      exact valid.modules id cls (Option.bind_eq_some_iff.2 ⟨o, before, is_module⟩)
    · cases payload with
      | module id => exact absurd rfl (other id)
      | _ => cases is_module

theorem Machine.Valid.of_tables (valid : m.Valid P) (heap : m'.heap = m.heap)
    (frames : m'.frames = m.frames) (size : m'.hierarchy.size = m.hierarchy.size)
    (methods : ∀ id name method, m'.hierarchy.ownMethod? id name = some method →
      method.Satisfies P)
    (classMethods : ∀ id name method, m'.hierarchy.ownClassMethod? id name = some method →
      method.Satisfies P) : m'.Valid P := by
  refine ⟨methods, classMethods, ?_, ?_, ?_, ?_⟩
  · unfold singletonMethod?
    rw [heap]
    exact valid.singletons
  · rw [heap]
    exact valid.payloads
  · rw [frames]
    exact valid.frames
  · unfold module? object?
    rw [heap, size]
    exact valid.modules

theorem Machine.Valid.of_frames (valid : m.Valid P) (frames : Frames)
    (code : ∀ id f, frames.get? id = some f → f.Satisfies P) :
    ({ m with frames } : Machine).Valid P :=
  ⟨valid.methods, valid.classMethods, valid.singletons, valid.payloads, code, valid.modules⟩

theorem Frame.Satisfies.of_none {f : Frame} (method : f.method = none) (block : f.block = none) :
    f.Satisfies P := by
  refine ⟨?_, ?_⟩
  · intro _ is_method
    rw [method] at is_method
    cases is_method
  · intro _ is_block
    rw [block] at is_block
    cases is_block

theorem Frame.Satisfies.alike {f f' : Frame} (alike : f.Alike f') (ok : f.Satisfies P) :
    f'.Satisfies P := by
  refine ⟨?_, ?_⟩
  · rw [alike.method]
    exact ok.1
  · rw [alike.block]
    exact ok.2

theorem Machine.Valid.withModule (valid : m.Valid P) (name : String) (kind : ModuleKind)
    (superclass : Option ModuleId) (outer : Option FrameId) (metaclass : ModuleId) :
    (m.withModule name kind superclass outer metaclass).Valid P := by
  have size : (m.withModule name kind superclass outer metaclass).hierarchy.size =
      m.hierarchy.size + 1 := Hierarchy.size_create ..
  refine ⟨?_, ?_, ?_, ?_, ?_, ?_⟩
  · intro id name method own
    exact valid.methods id name method (Hierarchy.ownMethod?_create rfl own)
  · intro id name method own
    exact valid.classMethods id name method (Hierarchy.ownClassMethod?_create rfl own)
  · intro id name method own
    obtain ⟨o, at_id, own⟩ := Option.bind_eq_some_iff.1 own
    obtain rfl | before := Heap.get?_push_cases at_id
    · cases own
    · exact valid.singletons id name method (Option.bind_eq_some_iff.2 ⟨o, before, own⟩)
  · intro id o at_id
    obtain rfl | before := Heap.get?_push_cases at_id
    · trivial
    · exact valid.payloads id o before
  · intro id f at_id
    obtain rfl | before := Frames.get?_push_cases at_id
    · exact .of_none rfl rfl
    · exact valid.frames id f before
  · intro id cls is_module
    obtain ⟨o, at_id, is_module⟩ := Option.bind_eq_some_iff.1 is_module
    rw [size]
    obtain rfl | before := Heap.get?_push_cases at_id
    · obtain rfl := Option.some.inj is_module
      exact Nat.lt_succ_self _
    · have lower := valid.modules id cls (Option.bind_eq_some_iff.2 ⟨o, before, is_module⟩)
      omega

theorem Machine.Valid.withSingleton (valid : m.Valid P) (id : ObjectId) {method : Method}
    (code : method.Satisfies P) :
    ({ m with
      methodsMade := m.methodsMade + 1
      heap := m.heap.modify id fun o =>
        { o with singletonMethods := o.singletonMethods.insert method.name (m.stamped method) } } :
      Machine).Valid P := by
  have edited : ∀ other o', ((m.heap.modify id fun o =>
      { o with singletonMethods := o.singletonMethods.insert method.name (m.stamped method) }).get?
        other) = some o' → ∃ o, m.heap.get? other = some o ∧ o'.payload = o.payload ∧
      ∀ name found, o'.singletonMethods.get? name = some found →
        found.Satisfies P ∨ o.singletonMethods.get? name = some found := by
    intro other o' at_other
    obtain ⟨o, -, before, rfl⟩ | before := Heap.get?_modify_cases at_other
    · refine ⟨o, before, rfl, ?_⟩
      intro name found own
      rw [Bindings.get?_insert] at own
      split at own
      next =>
        obtain rfl := Option.some.inj own
        exact .inl code
      next => exact .inr own
    · exact ⟨o', before, rfl, fun name found own => .inr own⟩
  refine ⟨valid.methods, valid.classMethods, ?_, ?_, valid.frames, ?_⟩
  · intro other name found own
    obtain ⟨o', at_id, own⟩ := Option.bind_eq_some_iff.1 own
    obtain ⟨o, before, -, entries⟩ := edited other o' at_id
    obtain new | old := entries name found own
    · exact new
    · exact valid.singletons other name found (Option.bind_eq_some_iff.2 ⟨o, before, old⟩)
  · intro other o' at_id
    obtain ⟨o, before, same, -⟩ := edited other o' at_id
    rw [same]
    exact valid.payloads other o before
  · intro other cls is_module
    obtain ⟨o', at_id, is_module⟩ := Option.bind_eq_some_iff.1 is_module
    obtain ⟨o, before, same, -⟩ := edited other o' at_id
    rw [Object.module?, same] at is_module
    exact valid.modules other cls (Option.bind_eq_some_iff.2 ⟨o, before, is_module⟩)

theorem Change.valid_methods (change : Change P m m') (valid : m.Valid P) (id : ModuleId)
    (name : String) (method : Method) (own : m'.hierarchy.ownMethod? id name = some method) :
    method.Satisfies P := by
  obtain before | ⟨enters, -, -⟩ := change.ownMethod?_cases own
  · exact valid.methods id name method before
  · cases enters with
    | new made code => exact code
    | copy owner wanted visibility source found =>
      have code : source.Satisfies P := valid.findMethod found
      exact code

theorem Change.valid_classMethods (change : Change P m m') (valid : m.Valid P) (id : ModuleId)
    (name : String) (method : Method) (own : m'.hierarchy.ownClassMethod? id name = some method) :
    method.Satisfies P := by
  obtain before | ⟨made, code, -, -, -, rfl, -⟩ := change.ownClassMethod?_cases own
  · exact valid.classMethods id name method before
  · exact code

theorem Change.valid (change : Change P m m') (valid : m.Valid P) : m'.Valid P := by
  have methods := change.valid_methods valid
  have classMethods := change.valid_classMethods valid
  cases change with
  | make cls payload code other =>
    refine valid.of_heap rfl rfl ?_
    intro id o' at_id
    obtain rfl | before := Heap.get?_push_cases at_id
    · exact .inr ⟨cls, payload, rfl, code, other⟩
    · exact .inl ⟨o', before, rfl, rfl, .inl rfl⟩
  | edit id f alike =>
    refine valid.of_heap rfl rfl ?_
    intro other o' at_other
    obtain ⟨o, -, before, rfl⟩ | before := Heap.get?_modify_cases at_other
    · exact .inl ⟨o, before, alike o⟩
    · exact .inl ⟨o', before, rfl, rfl, .inl rfl⟩
  | singleton id method code => exact valid.withSingleton id code
  | define | retag =>
    exact valid.of_tables rfl rfl (Hierarchy.size_defineMethod ..) methods classMethods
  | defineClassMethod =>
    exact valid.of_tables rfl rfl (Hierarchy.size_defineClassMethod ..) methods classMethods
  | remove =>
    exact valid.of_tables rfl rfl (Hierarchy.size_removeMethod ..) methods classMethods
  | includeModule target id after present done =>
    exact valid.of_tables rfl rfl (Hierarchy.size_includeModule done) methods classMethods
  | create name kind superclass outer metaclass root =>
    exact valid.withModule name kind superclass outer metaclass
  | frame id f alike =>
    refine valid.of_frames _ ?_
    intro other edited at_other
    obtain ⟨before, -, was, rfl⟩ | was := Frames.get?_modify_cases at_other
    · exact (valid.frames other before was).alike (alike before)
    · exact valid.frames other edited was
  | observe globals symbols missReason counters desk gate =>
    exact ⟨valid.methods, valid.classMethods, valid.singletons, valid.payloads, valid.frames,
      valid.modules⟩

theorem Changes.valid (changes : Changes P m m') (valid : m.Valid P) : m'.Valid P := by
  induction changes with
  | refl => exact valid
  | tail _ last ih => exact last.valid ih

theorem Changes.calls (changes : Changes P m m') :
    m'.current = m.current ∧ m'.depth = m.depth ∧ m'.tokens = m.tokens := by
  induction changes with
  | refl => exact ⟨rfl, rfl, rfl⟩
  | tail _ last ih => cases last <;> exact ih

theorem Change.settings (change : Change P m m') : m'.settings = m.settings := by
  cases change <;> rfl

/-! ### A predicate that holds of all code -/

section All

variable (all : ∀ e, P e)

include all

theorem Entry.Satisfies.of_all (entry : Entry) : entry.Satisfies P := by
  cases entry with
  | builtin method => exact True.intro
  | code body => exact all body

theorem Payload.Satisfies.of_all (payload : Payload) : payload.Satisfies P := by
  cases payload with
  | proc block => exact Entry.Satisfies.of_all all block.entry
  | _ => exact True.intro

theorem Method.Satisfies.of_all (method : Method) : method.Satisfies P := by
  unfold Satisfies
  cases method.body with
  | native entry => exact Entry.Satisfies.of_all all entry
  | closure entry frame => exact Entry.Satisfies.of_all all entry
  | undefined => exact True.intro

theorem Frame.Satisfies.of_all (f : Frame) : f.Satisfies P :=
  ⟨fun method _ => .of_all all method, fun block _ => Entry.Satisfies.of_all all block.entry⟩

theorem Machine.Valid.of_all {Q : Expr → Prop} (valid : m.Valid Q) : m.Valid P :=
  ⟨fun _ _ method _ => .of_all all method, fun _ _ method _ => .of_all all method,
    fun _ _ method _ => .of_all all method, fun _ o _ => .of_all all o.payload,
    fun _ f _ => .of_all all f, valid.modules⟩

end All

/-! ### A weaker predicate -/

section Weaker

variable {Q : Expr → Prop} (weaker : ∀ e, P e → Q e)

include weaker

theorem Entry.Satisfies.imp {entry : Entry} (code : entry.Satisfies P) : entry.Satisfies Q := by
  cases entry with
  | builtin method => exact True.intro
  | code body => exact weaker body code

theorem Payload.Satisfies.imp {payload : Payload} (code : payload.Satisfies P) :
    payload.Satisfies Q := by
  cases payload with
  | proc block => exact Entry.Satisfies.imp weaker code
  | _ => exact True.intro

theorem Method.Satisfies.imp {method : Method} (code : method.Satisfies P) :
    method.Satisfies Q := by
  unfold Satisfies at code ⊢
  cases body : method.body with
  | native entry => rw [body] at code; exact Entry.Satisfies.imp weaker code
  | closure entry frame => rw [body] at code; exact Entry.Satisfies.imp weaker code
  | undefined => exact True.intro

theorem Frame.Satisfies.imp {f : Frame} (code : f.Satisfies P) : f.Satisfies Q :=
  ⟨fun method is => .imp weaker (code.1 method is), fun block is => .imp weaker (code.2 block is)⟩

theorem Change.imp (change : Change P m m') : Change Q m m' := by
  cases change with
  | make cls payload code other => exact .make cls payload (code.imp weaker) other
  | edit id f alike => exact .edit id f alike
  | singleton id method code general other owner =>
    exact .singleton id method (code.imp weaker) general other owner
  | define method code general => exact .define method (code.imp weaker) general
  | retag owner name visibility method found => exact .retag owner name visibility method found
  | defineClassMethod method code general =>
    exact .defineClassMethod method (code.imp weaker) general
  | remove owner name => exact .remove owner name
  | includeModule target id after present done => exact .includeModule target id after present done
  | create name kind superclass outer metaclass root =>
    exact .create name kind superclass outer metaclass root
  | frame id f alike => exact .frame id f alike
  | observe globals symbols missReason counters desk gate =>
    exact .observe globals symbols missReason counters desk gate

end Weaker

theorem Change.forget (change : Change P m m') : Change (fun _ => True) m m' :=
  change.imp fun _ _ => True.intro

/-! ### Reachable machines -/

/-- A change, or the entering or leaving of a call or of a handler, which concerns the frames. -/
inductive Step (m : Machine) : Machine → Prop where
  | change {m' : Machine} (change : Change (fun _ => True) m m') : Step m m'
  | call (frames : Frames) (current : Option FrameId) (depth tokens : Nat) :
      Step m { m with frames, current, depth, tokens }

abbrev Steps : Machine → Machine → Prop := Relation.ReflTransGen Step

theorem Changes.steps (changes : Changes P m m') : Steps m m' := by
  induction changes with
  | refl => exact .refl
  | tail _ last ih => exact ih.tail (.change last.forget)

def Machine.Reachable (m : Machine) : Prop := ∃ settings, Steps (.boot settings) m

theorem Machine.Reachable.steps (reachable : m.Reachable) (steps : Steps m m') : m'.Reachable := by
  obtain ⟨settings, before⟩ := reachable
  exact ⟨settings, before.trans steps⟩

theorem Machine.Reachable.induction (I : Machine → Prop) (boot : ∀ settings, I (.boot settings))
    (step : ∀ m m', I m → Step m m' → I m') (reachable : m.Reachable) : I m := by
  obtain ⟨settings, steps⟩ := reachable
  induction steps with
  | refl => exact boot settings
  | tail _ last ih => exact step _ _ ih last

/-- An invariant of the tables need not be looked at along calls, which leave the tables alone. -/
theorem Machine.Reachable.hierarchy_induction (I : Hierarchy → Prop) (start : I startHierarchy)
    (change : ∀ m m', Change (fun _ => True) m m' → I m.hierarchy → I m'.hierarchy)
    (reachable : m.Reachable) : I m.hierarchy := by
  refine reachable.induction (fun m => I m.hierarchy) (fun _ => start) ?_
  intro m m' before step
  cases step with
  | change changed => exact change m m' changed before
  | call => exact before

end ObjectRuntime
