import ObjectRuntime.Builtins
import ObjectRuntime.Proofs.Machine.Course

/-!
# Deeds

A change says which part of the machine an operation touches; a deed says with what. It tells the
payloads that new objects get, the objects that get variables and methods of their own, the code
that comes into tables, and when a backtrace is written.

Ordinary code has four primitives less: those that make an object or an exception of any class, that
raise an exception of any class, and that put the body of one method into another table.
-/

set_option autoImplicit false

namespace ObjectRuntime

/-! ### Ordinary code -/

def Prim.isOrdinary : Prim → Bool
  | .newObject | .newException _ | .raiseNew _ | .alias _ _ _ => false
  | _ => true

/-- The class is one that the runtime chooses. -/
def Fault.isOrdinary : Fault → Bool
  | .raised _ _ => false
  | _ => true

mutual

def Expr.isOrdinary : Expr → Bool
  | .literal _ | .constant _ | .register _ => true
  | .prim step operands => step.isOrdinary && operands.isOrdinary
  | .seq first second => first.isOrdinary && second.isOrdinary
  | .cond test yes no => test.isOrdinary && yes.isOrdinary && no.isOrdinary
  | .times _ body => body.isOrdinary
  | .send _ receiver _ args block => receiver.isOrdinary && args.isOrdinary && block.isOrdinary
  | .identifier receiver _ args => receiver.isOrdinary && args.isOrdinary
  | .callSuper args block => args.isOrdinary && block.isOrdinary
  | .invoke owner _ receiver args block =>
    owner.isOrdinary && receiver.isOrdinary && args.isOrdinary && block.isOrdinary
  | .yield args => args.isOrdinary
  | .call block args => block.isOrdinary && args.isOrdinary
  | .makeProc _ body => body.isOrdinary
  | .defineMethod owner _ _ _ body _ => owner.isOrdinary && body.isOrdinary
  | .defineFromBlock owner _ block => owner.isOrdinary && block.isOrdinary
  | .defineSingleton target _ _ _ body => target.isOrdinary && body.isOrdinary
  | .within owner body => owner.isOrdinary && body.isOrdinary
  | .inFrame _ _ body => body.isOrdinary
  | .rescue body handler => body.isOrdinary && handler.isOrdinary
  | .catching tag body => tag.isOrdinary && body.isOrdinary
  | .ensure body cleanup => body.isOrdinary && cleanup.isOrdinary
  | .stash _ body => body.isOrdinary
  | .runMain body => body.isOrdinary

def Args.isOrdinary : Args → Bool
  | .nil => true
  | .cons first rest => first.isOrdinary && rest.isOrdinary
  | .splice _ rest => rest.isOrdinary

def BlockArg.isOrdinary : BlockArg → Bool
  | .none | .passed | .current => true
  | .literal _ body => body.isOrdinary
  | .ofProc value => value.isOrdinary

end

abbrev Ordinary (free : Bool) (e : Expr) : Prop := Permits free e.isOrdinary

def Entry.builtin? : Entry → Option Builtin
  | .builtin method => some method
  | .code _ => none

def Body.builtin? : Body → Option Builtin
  | .native entry | .closure entry _ => entry.builtin?
  | .undefined => none

structure Block.Coded (free : Bool) (b : Block) : Prop where
  code : b.Satisfies (Ordinary free)
  written : b.entry.builtin? = none

structure Frame.Coded (free : Bool) (f : Frame) : Prop where
  method : ∀ method, f.method = some method → method.Satisfies (Ordinary free)
  block : ∀ b, f.block = some b → b.Coded free

structure Machine.Coded (free : Bool) (m : Machine) : Prop where
  valid : m.Valid (Ordinary free)
  blocks : ∀ id f b, m.frames.get? id = some f → f.block = some b → b.entry.builtin? = none
  procs : ∀ id o b, m.heap.get? id = some o → o.payload = .proc b → b.entry.builtin? = none

/-! ### New objects -/

/-- What an object of the class is made as when a program allocates one. -/
def Machine.allocation (m : Machine) (cls : ModuleId) : Payload :=
  if m.hierarchy.inherits cls Core.exception.id then .exception (.ofMessage (m.className cls))
  else if m.hierarchy.inherits cls Core.string.id then .text ""
  else .plain

def Core.families : List Core := Run.withoutAllocator ++ [.string, .exception]

/-- The class and the payload of an object that an operation can make. Symbols and the objects of
modules are made together with their entries. An exception of a class that was asked for is of one
below `Exception`, and a plain object of one in no family, unless the code is free. -/
inductive Machine.Makes (free : Bool) (m : Machine) : ModuleId → Payload → Prop where
  | int (value : Int64) : Makes free m Core.integer.id (.int value)
  | float (value : Binary64) : Makes free m Core.float.id (.float value)
  | text (content : String) : Makes free m Core.string.id (.text content)
  | fault (fault : Fault) (ordinary : Permits free fault.isOrdinary) :
      Makes free m fault.cls (.exception fault.data)
  | proc (block : Block) (coded : block.Coded free) : Makes free m Core.proc.id (.proc block)
  | tag : Makes free m Core.object.id .plain
  | allocated (cls : ModuleId) (present : cls.index < m.hierarchy.size)
      (allows : Run.withoutAllocator.any (fun special => m.hierarchy.inherits cls special.id) =
        false) : Makes free m cls (m.allocation cls)
  | plain (cls : ModuleId) (present : cls.index < m.hierarchy.size)
      (fits : Permits free !Core.families.any fun F => m.hierarchy.inherits cls F.id) :
      Makes free m cls .plain
  | exception (cls : ModuleId) (message : String) (present : cls.index < m.hierarchy.size)
      (fits : Permits free (m.hierarchy.inherits cls Core.exception.id)) :
      Makes free m cls (.exception (.ofMessage message))

def ModuleKind.metaclass : ModuleKind → Core
  | classKind => .classClass
  | moduleKind => .moduleClass

inductive Machine.Brings (free : Bool) (m : Machine) : ModuleId → Payload → Prop where
  | made {cls : ModuleId} {payload : Payload} (makes : m.Makes free cls payload) :
      Brings free m cls payload
  | symbol (name : String) : Brings free m Core.symbol.id (.symbol name)
  | module (kind : ModuleKind) : Brings free m kind.metaclass.id (.module m.hierarchy.next)

/-! ### Deeds -/

inductive Deed (free : Bool) (m : Machine) : Machine → Prop where
  | make (cls : ModuleId) (payload : Payload) (makes : m.Makes free cls payload) :
      Deed free m { m with heap := m.heap.push (.ofPayload cls payload) }
  | symbol (name : String) (unknown : m.symbols.get? name = none) :
      Deed free m { m with
        heap := m.heap.push (.ofPayload Core.symbol.id (.symbol name))
        symbols := m.symbols.insert name m.heap.next }
  | setVariable (id : ObjectId) (name : String) (value : Value)
      (unboxed : m.unboxed? (.object id) = some id) :
      Deed free m { m with
        heap := m.heap.modify id fun o => { o with ivars := o.ivars.insert name value } }
  | backtrace (env : FrameId) (id : ObjectId) (data : ExceptionData)
      (is_exception : m.exception? (.object id) = some data) (unraised : data.backtrace = []) :
      Deed free m { m with
        heap := m.heap.modify id fun o =>
          o.mapException fun d => { d with backtrace := m.backtrace env } }
  | message (id : ObjectId) (message : String) :
      Deed free m { m with
        heap := m.heap.modify id fun o => o.mapException fun d => { d with message } }
  | singleton (id : ObjectId) (method : Method) (code : method.Satisfies (Ordinary free))
      (written : method.body.builtin? = none) (general : method.operator = none)
      (unboxed : m.unboxed? (.object id) = some id) (other : m.module? (.object id) = none)
      (owner : ∀ o, m.heap.get? id = some o → method.owner = o.cls) :
      Deed free m { m with
        methodsMade := m.methodsMade + 1
        heap := m.heap.modify id fun o =>
          { o with singletonMethods := o.singletonMethods.insert method.name (m.stamped method) } }
  | define (method : Method) (code : method.Satisfies (Ordinary free))
      (written : Permits free method.body.builtin?.isNone) (general : method.operator = none) :
      Deed free m { m with
        methodsMade := m.methodsMade + 1
        hierarchy := m.hierarchy.defineMethod method.owner (m.stamped method) }
  | retag (owner : ModuleId) (name : String) (visibility : Visibility) (method : Method)
      (found : m.hierarchy.findMethod owner name = some method) :
      Deed free m { m with
        methodsMade := m.methodsMade + 1
        hierarchy := m.hierarchy.defineMethod owner (m.stamped { method with visibility }) }
  | defineClassMethod (method : Method) (code : method.Satisfies (Ordinary free))
      (written : method.body.builtin? = none) (general : method.operator = none) :
      Deed free m { m with
        methodsMade := m.methodsMade + 1
        hierarchy := m.hierarchy.defineClassMethod method.owner (m.stamped method) }
  | remove (owner : ModuleId) (name : String) :
      Deed free m { m with hierarchy := m.hierarchy.removeMethod owner name }
  | includeModule (target id : ModuleId) (after : Hierarchy) (present : id.index < m.hierarchy.size)
      (done : m.hierarchy.includeModule target id = .ok after) :
      Deed free m { m with hierarchy := after }
  | create (name : String) (kind : ModuleKind) (superclass : Option ModuleId)
      (outer : Option FrameId) (root : kind = .moduleKind → superclass = none) :
      Deed free m (m.withModule name kind superclass outer kind.metaclass.id)
  | call (frames : Frames) (current : Option FrameId) (depth tokens : Nat)
      (coded : ∀ id f, frames.get? id = some f → f.Coded free) :
      Deed free m { m with frames, current, depth, tokens }
  | observe (globals : Bindings Value) (missReason : MissReason) (counters : Option Counters)
      (desk : Desk) (gate : Gate) :
      Deed free m { m with globals, missReason, counters, desk, heap.gate := gate }

abbrev Deeds (free : Bool) : Machine → Machine → Prop := Relation.ReflTransGen (Deed free)

variable {free : Bool} {m m' : Machine}

theorem Block.Coded.of_code {free : Bool} {body : Expr} (ordinary : Ordinary free body)
    (frame : FrameId) (arity : Arity) (receiver : Value) :
    Block.Coded free ⟨.code body, frame, arity, receiver⟩ := ⟨ordinary, rfl⟩

theorem Machine.Makes.code {cls : ModuleId} {payload : Payload}
    (makes : m.Makes free cls payload) :
    payload.Satisfies (Ordinary free) ∧ ∀ id, payload ≠ .module id := by
  cases makes with
  | proc block coded => exact ⟨coded.code, nofun⟩
  | allocated =>
    unfold Machine.allocation
    split
    next => exact ⟨trivial, nofun⟩
    next =>
      split
      next => exact ⟨trivial, nofun⟩
      next => exact ⟨trivial, nofun⟩
  | _ => exact ⟨trivial, nofun⟩

theorem Machine.Brings.proc {cls : ModuleId} {payload : Payload} {b : Block}
    (brings : m.Brings free cls payload) (is_proc : payload = .proc b) : b.Coded free := by
  cases brings with
  | made makes =>
    cases makes with
    | proc block coded =>
      obtain rfl := Payload.proc.inj is_proc
      exact coded
    | allocated =>
      unfold Machine.allocation at is_proc
      split at is_proc
      next => cases is_proc
      next => split at is_proc <;> cases is_proc
    | _ => cases is_proc
  | _ => cases is_proc

/-- A deed is a change or two, or it concerns the frames. -/
theorem Deed.changes (deed : Deed free m m') :
    Changes (Ordinary free) m m' ∨
      ∃ frames current depth tokens, m' = { m with frames, current, depth, tokens } ∧
        ∀ id f, frames.get? id = some f → f.Coded free := by
  cases deed with
  | make cls payload makes =>
    obtain ⟨code, other⟩ := makes.code
    exact .inl (.single (.make cls payload code other))
  | symbol name unknown =>
    have made : Change (Ordinary free) m
        { m with heap := m.heap.push (.ofPayload Core.symbol.id (.symbol name)) } :=
      .make _ _ trivial nofun
    exact .inl ((Relation.ReflTransGen.single made).tail
      (.observe m.globals (m.symbols.insert name m.heap.next) m.missReason m.counters m.desk
        m.heap.gate))
  | setVariable id name value unboxed =>
    exact .inl (.single (.edit id _ fun _ => ⟨rfl, rfl, .inl rfl⟩))
  | backtrace env id data is_exception unraised =>
    exact .inl (.single (.edit id _ fun o => o.mapException_alike _))
  | message id message => exact .inl (.single (.edit id _ fun o => o.mapException_alike _))
  | singleton id method code written general unboxed other owner =>
    exact .inl (.single (.singleton id method code general other owner))
  | define method code written general => exact .inl (.single (.define method code general))
  | retag owner name visibility method found =>
    exact .inl (.single (.retag owner name visibility method found))
  | defineClassMethod method code written general =>
    exact .inl (.single (.defineClassMethod method code general))
  | remove owner name => exact .inl (.single (.remove owner name))
  | includeModule target id after present done =>
    exact .inl (.single (.includeModule target id after present done))
  | create name kind superclass outer root =>
    exact .inl (.single (.create name kind superclass outer _ root))
  | call frames current depth tokens coded =>
    exact .inr ⟨frames, current, depth, tokens, rfl, coded⟩
  | observe globals missReason counters desk gate =>
    exact .inl (.single (.observe globals m.symbols missReason counters desk gate))

theorem Deeds.steps (deeds : Deeds free m m') : Steps m m' := by
  induction deeds with
  | refl => exact .refl
  | tail _ last ih =>
    obtain changes | ⟨frames, current, depth, tokens, rfl, -⟩ := last.changes
    · exact ih.trans changes.steps
    · exact ih.tail (.call frames current depth tokens)

/-! ### Objects after a deed -/

def Payload.Becomes (p p' : Payload) : Prop :=
  p' = p ∨ ∃ data data', p = .exception data ∧ p' = .exception data'

/-- An object after a deed was there with the same class and kind of payload, or it is a new one. -/
theorem Deed.object_origin (deed : Deed free m m') {id : ObjectId} {o' : Object}
    (at_id : m'.heap.get? id = some o') :
    (∃ o, m.heap.get? id = some o ∧ o'.cls = o.cls ∧ o.payload.Becomes o'.payload) ∨
      m.Brings free o'.cls o'.payload := by
  have kept {o : Object} (before : m.heap.get? id = some o) :
      (∃ o', m.heap.get? id = some o' ∧ o.cls = o'.cls ∧ o'.payload.Becomes o.payload) ∨
        m.Brings free o.cls o.payload := .inl ⟨o, before, rfl, .inl rfl⟩
  cases deed with
  | make cls payload makes =>
    obtain rfl | before := Heap.get?_push_cases at_id
    · exact .inr (.made makes)
    · exact kept before
  | symbol name =>
    obtain rfl | before := Heap.get?_push_cases at_id
    · exact .inr (.symbol name)
    · exact kept before
  | create name kind =>
    obtain rfl | before := Heap.get?_push_cases at_id
    · exact .inr (.module kind)
    · exact kept before
  | setVariable | singleton =>
    obtain ⟨o, -, before, rfl⟩ | before := Heap.get?_modify_cases at_id
    · exact .inl ⟨o, before, rfl, .inl rfl⟩
    · exact kept before
  | backtrace | message =>
    obtain ⟨o, -, before, rfl⟩ | before := Heap.get?_modify_cases at_id
    · exact .inl ⟨o, before, (o.mapException_alike _).cls, (o.mapException_alike _).payload⟩
    · exact kept before
  | define | retag | defineClassMethod | remove | includeModule | call | observe =>
    exact kept at_id

theorem Payload.Becomes.trans {p p' p'' : Payload} (first : p.Becomes p')
    (second : p'.Becomes p'') : p.Becomes p'' := by
  obtain rfl | ⟨data, data', rfl, rfl⟩ := first
  · exact second
  · obtain rfl | ⟨_, data'', -, rfl⟩ := second
    · exact .inr ⟨data, data', rfl, rfl⟩
    · exact .inr ⟨data, data'', rfl, rfl⟩

theorem Heap.get?_push_of_some {h : Heap} {id : ObjectId} {o new : Object}
    (at_id : h.get? id = some o) : (h.push new).get? id = some o := by
  obtain ⟨present, -⟩ := Array.getElem?_eq_some_iff.1 at_id
  rw [get?_push, if_neg]
  · exact at_id
  · rintro rfl
    exact Nat.lt_irrefl _ present

theorem Heap.get?_modify_of_some {h : Heap} {id other : ObjectId} {o : Object} (f : Object → Object)
    (at_other : h.get? other = some o) :
    (h.modify id f).get? other = some (if id = other then f o else o) := by
  rw [get?_modify, at_other]
  split <;> rfl

theorem Deed.object_kept (deed : Deed free m m') {id : ObjectId} {o : Object}
    (at_id : m.heap.get? id = some o) :
    ∃ o', m'.heap.get? id = some o' ∧ o'.cls = o.cls ∧ o.payload.Becomes o'.payload := by
  have edited {other : ObjectId} {f : Object → Object}
      (cls : (f o).cls = o.cls) (becomes : o.payload.Becomes (f o).payload) :
      ∃ o', (m.heap.modify other f).get? id = some o' ∧ o'.cls = o.cls ∧
        o.payload.Becomes o'.payload := by
    refine ⟨_, Heap.get?_modify_of_some f at_id, ?_⟩
    split
    next => exact ⟨cls, becomes⟩
    next => exact ⟨rfl, .inl rfl⟩
  cases deed with
  | make | symbol | create => exact ⟨o, Heap.get?_push_of_some at_id, rfl, .inl rfl⟩
  | setVariable | singleton => exact edited rfl (.inl rfl)
  | backtrace | message =>
    exact edited (o.mapException_alike _).cls (o.mapException_alike _).payload
  | define | retag | defineClassMethod | remove | includeModule | call | observe =>
    exact ⟨o, at_id, rfl, .inl rfl⟩

theorem Deeds.object_kept (deeds : Deeds free m m') {id : ObjectId} {o : Object}
    (at_id : m.heap.get? id = some o) :
    ∃ o', m'.heap.get? id = some o' ∧ o'.cls = o.cls ∧ o.payload.Becomes o'.payload := by
  induction deeds with
  | refl => exact ⟨o, at_id, rfl, .inl rfl⟩
  | tail _ last ih =>
    obtain ⟨o', at_id', cls, becomes⟩ := ih
    obtain ⟨o'', at_id'', cls', becomes'⟩ := last.object_kept at_id'
    exact ⟨o'', at_id'', cls'.trans cls, becomes.trans becomes'⟩

/-! ### The code stays in order -/

theorem Machine.Coded.frame (coded : m.Coded free) {id : FrameId} {f : Frame}
    (at_id : m.frames.get? id = some f) : f.Coded free where
  method := (coded.valid.frames id f at_id).1
  block b passed := ⟨(coded.valid.frames id f at_id).2 b passed, coded.blocks id f b at_id passed⟩

theorem Deed.coded (deed : Deed free m m') (coded : m.Coded free) : m'.Coded free := by
  have procs : ∀ id o' b, m'.heap.get? id = some o' → o'.payload = .proc b →
      b.entry.builtin? = none := by
    intro id o' b at_id is_proc
    obtain ⟨o, before, -, same | ⟨data, data', -, after⟩⟩ | brings := deed.object_origin at_id
    · rw [same] at is_proc
      exact coded.procs id o b before is_proc
    · rw [after] at is_proc
      cases is_proc
    · exact (brings.proc is_proc).written
  obtain changes | ⟨frames, current, depth, tokens, rfl, framed⟩ := deed.changes
  · refine ⟨changes.valid coded.valid, ?_, procs⟩
    cases deed with
    | create =>
      intro id f b at_id passed
      obtain rfl | before := Frames.get?_push_cases at_id
      · cases passed
      · exact coded.blocks id f b before passed
    | call frames current depth tokens framed =>
      intro id f b at_id passed
      exact ((framed id f at_id).block b passed).written
    | _ => exact coded.blocks
  · have valid := coded.valid
    exact ⟨⟨valid.methods, valid.classMethods, valid.singletons, valid.payloads,
      fun id f at_id => ⟨(framed id f at_id).method, fun b passed =>
        ((framed id f at_id).block b passed).code⟩, valid.modules⟩,
      fun id f b at_id passed => ((framed id f at_id).block b passed).written, coded.procs⟩

theorem Deeds.coded (deeds : Deeds free m m') (coded : m.Coded free) : m'.Coded free := by
  induction deeds with
  | refl => exact coded
  | tail _ last ih => exact last.coded ih

end ObjectRuntime
