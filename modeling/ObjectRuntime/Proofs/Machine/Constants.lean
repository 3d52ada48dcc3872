import ObjectRuntime.Proofs.Frame.Assignment
import ObjectRuntime.Proofs.Machine.Kinds
import ObjectRuntime.Proofs.Unwind.Openings

/-!
# Constants, modules and their objects

A module is an entry of the table, an object that stands for it, and a constant that holds the
object. Entries and objects are one to one in every machine that is reached, whatever the constants
hold. Opening a name makes all three at once, or it hands out the module that is bound already, or
it fails and leaves everything as it was; opened again, the name gives the same module.
-/

set_option autoImplicit false

namespace ObjectRuntime

open Run

/-! ### Entries and objects -/

namespace Hierarchy

def objectOf? (h : Hierarchy) (id : ModuleId) : Option ObjectId := (h.get? id).map (·.object)

variable (h : Hierarchy) (owner id : ModuleId)

theorem objectOf?_modify (f : Module → Module) (same : ∀ m, (f m).object = m.object) :
    (h.modify owner f).objectOf? id = h.objectOf? id :=
  map_get?_modify h owner id f (·.object) same

theorem objectOf?_defineMethod (method : Method) :
    (h.defineMethod owner method).objectOf? id = h.objectOf? id :=
  objectOf?_modify h owner id _ fun _ => rfl

theorem objectOf?_create (m : Module) :
    (h.create m).objectOf? id = if id = h.next then some m.object else h.objectOf? id := by
  rw [objectOf?, get?_create]
  split
  next => rfl
  next => rfl

theorem objectOf?_next : h.objectOf? h.next = none := by
  rw [objectOf?, get?_next, Option.map_none]

end Hierarchy

theorem Installation.objectOf?_install (h : Hierarchy) (serial : Nat) (list : List Installation)
    (id : ModuleId) : (install h serial list).objectOf? id = h.objectOf? id := by
  induction list generalizing h serial with
  | nil => rfl
  | cons i rest ih => rw [install, ih, Hierarchy.objectOf?_defineMethod]

namespace Machine

variable {m m' : Machine}

/-- Each module has an object that stands for it, and each object that stands for a module is that
of the module. -/
def Matched (m : Machine) : Prop :=
  ∀ id object, m.hierarchy.objectOf? id = some object ↔ m.module? (.object object) = some id

theorem Matched.of_same (matched : m.Matched)
    (entries : ∀ id, m'.hierarchy.objectOf? id = m.hierarchy.objectOf? id)
    (objects : ∀ object, m'.module? (.object object) = m.module? (.object object)) :
    m'.Matched := by
  intro id object
  rw [entries, objects]
  exact matched id object

theorem Matched.eq_of_module? (matched : m.Matched) {id : ModuleId} {object object' : ObjectId}
    (stands : m.module? (.object object) = some id)
    (stands' : m.module? (.object object') = some id) : object = object' :=
  Option.some.inj (((matched id object).2 stands).symm.trans ((matched id object').2 stands'))

theorem module?_push (o : Object) (object : ObjectId) :
    { m with heap := m.heap.push o }.module? (.object object) =
      if object = m.heap.next then o.module? else m.module? (.object object) := by
  change ((m.heap.push o).get? object).bind Object.module? = _
  rw [Heap.get?_push]
  split
  next => rfl
  next => rfl

theorem module?_next : m.module? (.object m.heap.next) = none := by
  change (m.heap.get? m.heap.next).bind Object.module? = none
  rw [Heap.get?_next, Option.bind_none]

theorem module?_modify (id object : ObjectId) {f : Object → Object}
    (same : ∀ o, (f o).module? = o.module?) :
    { m with heap := m.heap.modify id f }.module? (.object object) =
      m.module? (.object object) :=
  m.heap.bind_get?_modify id object Object.module? same

theorem Matched.withModule (matched : m.Matched) (name : String) (kind : ModuleKind)
    (superclass : Option ModuleId) (outer : Option FrameId) (metaclass : ModuleId) :
    (m.withModule name kind superclass outer metaclass).Matched := by
  intro id object
  have entries : (m.withModule name kind superclass outer metaclass).hierarchy.objectOf? id =
      if id = m.hierarchy.next then some m.heap.next else m.hierarchy.objectOf? id :=
    Hierarchy.objectOf?_create ..
  have objects : (m.withModule name kind superclass outer metaclass).module? (.object object) =
      if object = m.heap.next then some m.hierarchy.next else m.module? (.object object) :=
    module?_push ..
  have old_entry : m.hierarchy.objectOf? id = some object → object ≠ m.heap.next := by
    rintro entry rfl
    cases module?_next.symm.trans ((matched id _).1 entry)
  have old_object : m.module? (.object object) = some id → id ≠ m.hierarchy.next := by
    rintro stands rfl
    cases m.hierarchy.objectOf?_next.symm.trans ((matched _ object).2 stands)
  rw [entries, objects]
  by_cases new_entry : id = m.hierarchy.next
  · by_cases new_object : object = m.heap.next
    · simp [new_entry, new_object]
    · rw [if_pos new_entry, if_neg new_object]
      refine iff_of_false ?_ fun stands => old_object stands new_entry
      exact fun is => new_object (Option.some.inj is).symm
  · by_cases new_object : object = m.heap.next
    · rw [if_neg new_entry, if_pos new_object]
      refine iff_of_false (fun entry => old_entry entry new_object) ?_
      exact fun is => new_entry (Option.some.inj is).symm
    · rw [if_neg new_entry, if_neg new_object]
      exact matched id object

theorem matched_boot (settings : Settings) : (boot settings).Matched := by
  have all_entries : (Core.all.map Core.entry).map (·.object) = (List.range 36).map .mk := by decide
  have all_objects : startObjects.map Object.module? =
      (List.range 36).map (fun i => some (.mk i)) ++ List.replicate 4 none := by decide
  rintro ⟨i⟩ ⟨j⟩
  have entry : (boot settings).hierarchy.objectOf? ⟨i⟩ = some ⟨j⟩ ↔ i < 36 ∧ i = j := by
    have listed : startHierarchy.objectOf? ⟨i⟩ =
        ((Core.all.map Core.entry).map (·.object))[i]? := by
      rw [startHierarchy_eq, Installation.objectOf?_install, List.getElem?_map]
      exact congrArg (Option.map _) List.getElem?_toArray
    change startHierarchy.objectOf? ⟨i⟩ = some ⟨j⟩ ↔ _
    rw [listed, all_entries]
    simp [List.getElem?_eq_some_iff]
  have object : (boot settings).module? (.object ⟨j⟩) = some ⟨i⟩ ↔ i < 36 ∧ i = j := by
    have listed : (boot settings).module? (.object ⟨j⟩) =
        (startObjects.map Object.module?)[j]?.join := by
      rw [List.getElem?_map, ← Option.bind_id_eq_join, Option.bind_map]
      exact congrArg (Option.bind · Object.module?) List.getElem?_toArray
    rw [listed, all_objects, Option.join_eq_some_iff, List.getElem?_append]
    rw [List.length_map, List.length_range]
    split
    next =>
      simp only [List.getElem?_eq_some_iff, List.length_map, List.length_range, List.getElem_map,
        List.getElem_range, Option.some.injEq, ModuleId.mk.injEq, exists_prop]
      omega
    next beyond =>
      have not_module : (List.replicate 4 (none : Option ModuleId))[j - 36]? ≠ some (some ⟨i⟩) := by
        rw [List.getElem?_replicate]
        split <;> exact nofun
      exact iff_of_false not_module (by omega)
  exact entry.trans object.symm

end Machine

open Machine

theorem Change.matched {P : Expr → Prop} {m m' : Machine} (change : Change P m m')
    (matched : m.Matched) : m'.Matched := by
  cases change with
  | make cls payload code other =>
    refine matched.of_same (fun _ => rfl) fun object => ?_
    rw [module?_push]
    split
    next same =>
      subst same
      rw [module?_next]
      cases payload with
      | module id => exact absurd rfl (other id)
      | _ => rfl
    next => rfl
  | edit id f alike =>
    exact matched.of_same (fun _ => rfl) fun object => module?_modify id object fun o =>
      (alike o).module?
  | singleton id method =>
    exact matched.of_same (fun _ => rfl) fun object => module?_modify id object fun _ => rfl
  | define | retag =>
    exact matched.of_same (Hierarchy.objectOf?_defineMethod _ _ · _) fun _ => rfl
  | defineClassMethod | remove =>
    exact matched.of_same (Hierarchy.objectOf?_modify _ _ · _ fun _ => rfl) fun _ => rfl
  | includeModule target id after present done =>
    obtain ⟨-, rfl⟩ := Hierarchy.includeModule_eq_ok done
    exact matched.of_same (Hierarchy.objectOf?_modify _ _ · _ fun _ => rfl) fun _ => rfl
  | create name kind superclass outer metaclass =>
    exact matched.withModule name kind superclass outer metaclass
  | frame | observe => exact matched

theorem Machine.Reachable.matched {m : Machine} (reachable : m.Reachable) : m.Matched := by
  refine reachable.induction Matched matched_boot ?_
  intro m m' matched step
  cases step with
  | change change => exact change.matched matched
  | call => exact matched

/-! ### How an opening ends -/

namespace Opening

def name : Opening → String
  | ofClass name _ => name
  | ofModule name => name

def kind : Opening → ModuleKind
  | ofClass _ _ => .classKind
  | ofModule _ => .moduleKind

def asked? : Opening → Option ModuleId
  | ofClass _ superclass => superclass
  | ofModule _ => none

def superclass? : Opening → Option ModuleId
  | ofClass _ superclass => some (superclass.getD Core.object.id)
  | ofModule _ => none

def outer? (o : Opening) (lexical : FrameId) (m : Machine) : Option FrameId :=
  match o with
  | ofClass _ superclass => Run.superclassFrame m (superclass.getD Core.object.id)
  | ofModule _ => some lexical

end Opening

namespace Machine

variable {m m' : Machine} {lexical : FrameId} {o : Opening} {id : ModuleId}

def withConstant (m : Machine) (lexical : FrameId) (o : Opening) : Machine :=
  let made := m.withModule o.name o.kind o.superclass? (o.outer? lexical m) o.kind.metaclass.id
  { made with frames := made.frames.define lexical o.name (.object m.heap.next) }

/-- The name is bound to the module, and the module is what the opening asks for. -/
structure Offers (m : Machine) (lexical : FrameId) (o : Opening) (id : ModuleId) : Prop where
  bound : (m.frames.lookupLocal lexical o.name).bind m.module? = some id
  kind : (m.hierarchy.get? id).map (·.kind) = some o.kind
  superclass : ∀ asked, o.asked? = some asked → m.hierarchy.superclass? id = some asked

theorem isClass_of_kind {kind : ModuleKind}
    (at_id : (m.hierarchy.get? id).map (·.kind) = some kind) :
    m.hierarchy.isClass id = (kind == .classKind) := by
  obtain ⟨entry, entered, rfl⟩ := Option.map_eq_some_iff.1 at_id
  rw [Hierarchy.isClass, entered]
  rfl

theorem Matched.kind_of_module? (matched : m.Matched) {v : Value} (is : m.module? v = some id)
    {kind : ModuleKind} (is_class : m.hierarchy.isClass id = (kind == .classKind)) :
    (m.hierarchy.get? id).map (·.kind) = some kind := by
  have entered : ∃ entry, m.hierarchy.get? id = some entry := by
    cases v with
    | object object =>
      obtain ⟨entry, at_id, -⟩ := Option.map_eq_some_iff.1 ((matched id object).2 is)
      exact ⟨entry, at_id⟩
    | int _ => cases is
    | float _ => cases is
  obtain ⟨entry, at_id⟩ := entered
  rw [at_id, Option.map_some]
  rw [Hierarchy.isClass, at_id] at is_class
  change (entry.kind == .classKind) = (kind == .classKind) at is_class
  revert is_class
  cases entry.kind <;> cases kind <;> simp

theorem run_of_unbound (unbound : m.frames.lookupLocal lexical o.name = none) :
    o.run lexical m = (.ok m.hierarchy.next, m.withConstant lexical o) := by
  cases o with
  | ofClass name superclass =>
    change openClass lexical name superclass m = _
    unfold openClass
    rw [run_bind, run_read]
    change m.frames.lookupLocal lexical name = none at unbound
    rw [unbound]
    rfl
  | ofModule name =>
    change openModule lexical name m = _
    unfold openModule
    rw [run_bind, run_read]
    change m.frames.lookupLocal lexical name = none at unbound
    rw [unbound]
    rfl

theorem Offers.run (offers : m.Offers lexical o id) : o.run lexical m = (.ok id, m) := by
  obtain ⟨v, bound, is⟩ := Option.bind_eq_some_iff.1 offers.bound
  have is_class := isClass_of_kind offers.kind
  cases o with
  | ofClass name superclass =>
    have left : (m.module? v).filter m.hierarchy.isClass = some id := by
      rw [is, Option.filter_some, is_class]
      rfl
    have agrees : (superclass.isNone || superclass == m.hierarchy.superclass? id) = true := by
      cases superclass with
      | none => rfl
      | some asked => exact beq_iff_eq.2 (offers.superclass asked rfl).symm
    change openClass lexical name superclass m = _
    unfold openClass
    change m.frames.lookupLocal lexical name = some v at bound
    simp only [run_bind, run_read, bound, Option.map_some, left, agrees, if_true]
    rfl
  | ofModule name =>
    have left : (m.module? v).filter (fun id => !m.hierarchy.isClass id) = some id := by
      rw [is, Option.filter_some, is_class]
      rfl
    change openModule lexical name m = _
    unfold openModule
    change m.frames.lookupLocal lexical name = some v at bound
    simp only [run_bind, run_read, bound, Option.map_some, left]
    rfl

theorem Matched.offers_or_refuses (matched : m.Matched) {v : Value}
    (bound : m.frames.lookupLocal lexical o.name = some v) :
    (∃ id, m.Offers lexical o id) ∨ ∃ fault, m.Refuses lexical o fault := by
  have offered {id : ModuleId} (is : m.module? v = some id) :
      (m.frames.lookupLocal lexical o.name).bind m.module? = some id := by
    rw [bound]
    exact is
  by_cases there : ∃ id, m.module? v = some id ∧ m.hierarchy.isClass id = (o.kind == .classKind)
  · obtain ⟨id, is, is_class⟩ := there
    have kind := matched.kind_of_module? is is_class
    by_cases agrees : ∀ asked, o.asked? = some asked → m.hierarchy.superclass? id = some asked
    · exact .inl ⟨id, offered is, kind, agrees⟩
    · right
      cases o with
      | ofClass name superclass =>
        cases superclass with
        | none => exact absurd nofun agrees
        | some asked =>
          refine ⟨_, .superclassMismatch bound is is_class ?_⟩
          intro same
          refine agrees fun other is_asked => ?_
          rw [same, Option.some.inj is_asked]
      | ofModule name => exact absurd nofun agrees
  · right
    rw [not_exists] at there
    cases o with
    | ofClass name superclass =>
      refine ⟨_, .notAClass bound fun id is => ?_⟩
      exact Bool.eq_false_iff.2 fun is_class => there id ⟨is, is_class⟩
    | ofModule name =>
      refine ⟨_, .notAModule bound fun id is => ?_⟩
      exact Bool.not_eq_false _ ▸ fun not_class => there id ⟨is, not_class⟩

/-! ### What an opening leaves -/

/-- Exactly one module, its object and the constant are new. -/
structure Adds (m m' : Machine) (lexical : FrameId) (o : Opening) (id : ModuleId) : Prop where
  unbound : m.frames.lookupLocal lexical o.name = none
  new : id = m.hierarchy.next
  hierarchy : ∃ frame, m'.hierarchy = m.hierarchy.create
    { name := some o.name, kind := o.kind, superclass := o.superclass?, includes := []
      methods := .empty, classMethods := .empty, frame, object := m.heap.next }
  heap : m'.heap = m.heap.push (.ofPayload o.kind.metaclass.id (.module id))
  constants : ∀ frame name, m'.frames.lookupLocal frame name =
    if frame = lexical ∧ name = o.name then some (.object m.heap.next)
    else m.frames.lookupLocal frame name
  rest : m' = { m with heap := m'.heap, frames := m'.frames, hierarchy := m'.hierarchy }

theorem lookupLocal_push (fs : Frames) (kind : FrameKind) (outer : Option FrameId) (frame : FrameId)
    (name : String) :
    (fs.push (.fresh kind outer)).lookupLocal frame name = fs.lookupLocal frame name := by
  rw [Frames.lookupLocal, Frames.lookupLocal, Frames.get?_push]
  split
  next same =>
    rw [same, Frames.get?_next]
    rfl
  next => rfl

theorem adds_withConstant (present : lexical.index < m.frames.size)
    (unbound : m.frames.lookupLocal lexical o.name = none) :
    m.Adds (m.withConstant lexical o) lexical o m.hierarchy.next := by
  refine ⟨unbound, rfl, ⟨m.frames.next, rfl⟩, rfl, ?_, rfl⟩
  intro frame name
  have present' : lexical.index <
      (m.frames.push (.fresh .moduleBody (o.outer? lexical m))).size := by
    rw [Frames.size_push]
    omega
  change ((m.frames.push _).define lexical o.name _).lookupLocal frame name = _
  rw [Frames.lookupLocal_define present', lookupLocal_push]

theorem offers_withConstant (present : lexical.index < m.frames.size)
    (unbound : m.frames.lookupLocal lexical o.name = none) :
    (m.withConstant lexical o).Offers lexical o m.hierarchy.next := by
  have adds := adds_withConstant present unbound
  obtain ⟨frame, hierarchy⟩ := adds.hierarchy
  refine ⟨?_, ?_, ?_⟩
  · rw [adds.constants, if_pos ⟨rfl, rfl⟩]
    exact (module?_push (.ofPayload _ (.module m.hierarchy.next)) m.heap.next).trans (if_pos rfl)
  · rw [hierarchy, Hierarchy.get?_create, if_pos rfl]
    rfl
  · intro asked is_asked
    rw [Hierarchy.superclass?, hierarchy, Hierarchy.get?_create, if_pos rfl]
    cases o with
    | ofClass name superclass =>
      change superclass = some asked at is_asked
      rw [is_asked]
      rfl
    | ofModule name => cases is_asked

theorem Matched.withConstant (matched : m.Matched) (lexical : FrameId) (o : Opening) :
    (m.withConstant lexical o).Matched :=
  matched.withModule o.name o.kind o.superclass? (o.outer? lexical m) o.kind.metaclass.id

theorem Offers.stands (offers : m.Offers lexical o id) (matched : m.Matched) :
    ∃ object, m.frames.lookupLocal lexical o.name = some (.object object) ∧
      m.hierarchy.objectOf? id = some object ∧
      ∀ other, m.module? (.object other) = some id ↔ other = object := by
  obtain ⟨v, bound, is⟩ := Option.bind_eq_some_iff.1 offers.bound
  cases v with
  | object object =>
    refine ⟨object, bound, (matched id object).2 is, ?_⟩
    intro other
    constructor
    · exact fun stands => matched.eq_of_module? stands is
    · rintro rfl
      exact is
  | int _ => cases is
  | float _ => cases is

/-- Nothing is changed that a name or a module could be found by. -/
structure SameNames (m m' : Machine) : Prop where
  hierarchy : m'.hierarchy = m.hierarchy
  frames : m'.frames = m.frames
  globals : m'.globals = m.globals
  objects : ∀ id o, m.heap.get? id = some o → m'.heap.get? id = some o

theorem fail_sameNames {α : Type} (env : FrameId) (fault : Fault) (m : Machine) :
    ∃ s m', (fail env fault : Run α) m = (.error (.signal s), m') ∧ m.SameNames m' := by
  let exception := Object.ofPayload fault.cls (.exception fault.data)
  refine ⟨_, _, rfl, ?_⟩
  change m.SameNames (count .raised
    (recordBacktrace env m.heap.next { m with heap := m.heap.push exception }).2).2
  obtain recorded | recorded :=
    recordBacktrace_cases env m.heap.next { m with heap := m.heap.push exception }
  · rw [recorded]
    exact ⟨rfl, rfl, rfl, fun id o at_id => Heap.get?_push_of_some at_id⟩
  · rw [recorded]
    refine ⟨rfl, rfl, rfl, fun id o at_id => ?_⟩
    have differs : m.heap.next ≠ id := by
      rintro rfl
      rw [Heap.get?_next] at at_id
      cases at_id
    change ((m.heap.push exception).modify m.heap.next _).get? id = some o
    rw [Heap.get?_modify, if_neg differs]
    exact Heap.get?_push_of_some at_id

end Machine

open Machine

/-- In every machine that is reached, an opening that succeeds hands out the module that the name is
bound to and changes nothing, or it makes exactly one module and binds exactly this name to the one
object that stands for it. Either way modules and their objects are one to one afterwards, the
module is of the kind that was asked for, and the same opening again hands it out and changes
nothing. An opening that fails leaves all modules, constants, globals and objects as they were. -/
theorem opening_idempotent_atomic {m : Machine} (reachable : m.Reachable) (o : Opening)
    {lexical : FrameId} (present : lexical.index < m.frames.size) :
    (∀ id m', o.run lexical m = (.ok id, m') →
      (m.Offers lexical o id ∧ m' = m ∨ m.Adds m' lexical o id) ∧
      (∃ object, m'.frames.lookupLocal lexical o.name = some (.object object) ∧
        m'.hierarchy.objectOf? id = some object ∧
        ∀ other, m'.module? (.object other) = some id ↔ other = object) ∧
      m'.Matched ∧
      (m'.hierarchy.get? id).map (·.kind) = some o.kind ∧
      o.run lexical m' = (.ok id, m')) ∧
    ∀ e m', o.run lexical m = (.error e, m') → m.SameNames m' := by
  have matched := reachable.matched
  cases bound : m.frames.lookupLocal lexical o.name with
  | none =>
    have made := run_of_unbound bound
    constructor
    · intro id m' ends
      obtain ⟨same, rfl⟩ := Prod.mk.inj (made.symm.trans ends)
      obtain rfl := Except.ok.inj same
      have offers := offers_withConstant present bound
      have matched := matched.withConstant lexical o
      exact ⟨.inr (adds_withConstant present bound), offers.stands matched, matched, offers.kind,
        offers.run⟩
    · intro e m' ends
      cases made.symm.trans ends
  | some v =>
    obtain ⟨id, offers⟩ | ⟨fault, refuses⟩ := matched.offers_or_refuses bound
    · constructor
      · intro id' m' ends
        obtain ⟨same, rfl⟩ := Prod.mk.inj (offers.run.symm.trans ends)
        obtain rfl := Except.ok.inj same
        exact ⟨.inl ⟨offers, rfl⟩, offers.stands matched, matched, offers.kind, offers.run⟩
      · intro e m' ends
        cases offers.run.symm.trans ends
    · obtain ⟨s, failed, fails, same⟩ := fail_sameNames (α := ModuleId) lexical fault m
      have ended := refuses.run.trans fails
      constructor
      · intro id m' ends
        cases ended.symm.trans ends
      · intro e m' ends
        obtain ⟨-, rfl⟩ := Prod.mk.inj (ended.symm.trans ends)
        exact same

/-- In a new machine a class is made once, and a class is no module. -/
theorem opening_idempotent_atomic_new :
    (boot .standard).Reachable ∧ FrameId.main.index < (boot .standard).frames.size ∧
    (∃ m', (Opening.ofClass "Widget" none).run .main (boot .standard) = (.ok ⟨36⟩, m') ∧
      (boot .standard).Adds m' .main (.ofClass "Widget" none) ⟨36⟩ ∧
      (Opening.ofClass "Widget" none).run .main m' = (.ok ⟨36⟩, m')) ∧
    ∃ e m', (Opening.ofModule "Object").run .main (boot .standard) = (.error e, m') ∧
      (boot .standard).SameNames m' := by
  have reachable : (boot .standard).Reachable := ⟨_, .refl⟩
  have present : FrameId.main.index < (boot .standard).frames.size := by decide
  refine ⟨reachable, present, ?_, ?_⟩
  · have unbound : (boot .standard).frames.lookupLocal .main "Widget" = none := by decide +kernel
    have next : (boot .standard).hierarchy.next = ⟨36⟩ := by decide +kernel
    have made := run_of_unbound (o := .ofClass "Widget" none) unbound
    rw [next] at made
    obtain ⟨succeeds, -⟩ := opening_idempotent_atomic reachable (.ofClass "Widget" none) present
    obtain ⟨⟨offers, -⟩ | adds, -, -, -, again⟩ := succeeds _ _ made
    · cases offers.bound.symm.trans (congrArg (Option.bind · _) unbound)
    · exact ⟨_, made, adds, again⟩
  · have bound : (boot .standard).frames.lookupLocal .main "Object" =
        some (.object Core.object.objectId) := by decide +kernel
    have is : (boot .standard).module? (.object Core.object.objectId) = some Core.object.id := by
      decide +kernel
    have refuses : (boot .standard).Refuses .main (.ofModule "Object") (.notAModule "Object") := by
      refine .notAModule bound fun id is' => ?_
      obtain rfl := Option.some.inj (is.symm.trans is')
      decide +kernel
    obtain ⟨-, fails⟩ := opening_idempotent_atomic reachable (.ofModule "Object") present
    obtain ⟨_, failed, ended, -⟩ := refuses.raises
    exact ⟨_, failed, ended, fails _ _ ended⟩

end ObjectRuntime
