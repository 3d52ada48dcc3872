import ObjectRuntime.Proofs.Machine.Kinds

/-!
# Where built-in methods are found

The built-in methods of numbers, exceptions and modules are written for objects of these classes.
Ordinary code puts no built-in method into a table but by copying one that was found from the same
class, to change its visibility. So dispatch finds such a method only from classes below the one it
was written for.
-/

set_option autoImplicit false

namespace ObjectRuntime

/-- The classes for whose objects the method is written; none if any receiver will do. -/
def Builtin.homes : Builtin → List Core
  | .operator _ => [.integer, .float]
  | .exceptionSetup | .exceptionMessage | .exceptionBacktrace => [.exception]
  | .moduleName | .includeModule | .methodDefined | .defineMethod | .undefMethod | .removeMethod
  | .setVisibility _ | .new | .allocate | .superclass => [.moduleClass]
  | .accept | .same | .negate | .send | .publicSend | .classOf | .respondTo | .objectId | .isA
  | .inspect | .ivarGet | .ivarSet | .raise | .catching | .throw => []

theorem Builtin.homes_subset (b : Builtin) :
    ∀ home ∈ b.homes, home ∈ Core.moduleClass :: Core.families := by
  cases b with
  | operator op => cases op <;> decide
  | setVisibility visibility => cases visibility <;> decide
  | _ => decide

/-- The class is below one for which the method is written, if it is written for any. -/
def Hierarchy.Houses (h : Hierarchy) (cls : ModuleId) (b : Builtin) : Prop :=
  b.homes ≠ [] → ∃ home ∈ b.homes, home.id ∈ h.superclasses cls

variable {free : Bool} {m m' : Machine} {id : ModuleId} {name : String} {method : Method}
  {b : Builtin}

theorem Hierarchy.Houses.grows {h h' : Hierarchy} (houses : h.Houses id b) (rooted : h.Rooted)
    (grows : h.Grows h') : h'.Houses id b := by
  intro some_home
  obtain ⟨home, in_homes, above⟩ := houses some_home
  have present : id.index < h.size := by
    obtain same | ⟨-, has_superclass⟩ := Hierarchy.mem_superclasses above
    · rw [← same]
      exact rooted.core_present home
    · obtain ⟨parent, links⟩ := Option.isSome_iff_exists.1 has_superclass
      obtain ⟨entry, at_id, -⟩ := Option.bind_eq_some_iff.1 links
      exact Hierarchy.index_lt_of_get? at_id
  rw [← grows.superclasses present] at above
  exact ⟨home, in_homes, above⟩

/-! ### Where entries come from -/

/-- An entry after a deed was there, or is code, or is the copy of a method that was found. -/
theorem Deed.ownMethod?_origin (deed : Deed free m m')
    (own : m'.hierarchy.ownMethod? id name = some method) :
    m.hierarchy.ownMethod? id name = some method ∨ Permits free method.body.builtin?.isNone ∨
      ∃ wanted source, m.hierarchy.findMethod id wanted = some source ∧
        method.body = source.body := by
  cases deed with
  | make | symbol | setVariable | backtrace | message | singleton | call | observe => exact .inl own
  | define made code written =>
    obtain ⟨-, -, rfl⟩ | before := Hierarchy.ownMethod?_defineMethod own
    · exact .inr (.inl written)
    · exact .inl before
  | retag owner wanted visibility source found =>
    obtain ⟨rfl, -, rfl⟩ | before := Hierarchy.ownMethod?_defineMethod own
    · exact .inr (.inr ⟨wanted, source, found, rfl⟩)
    · exact .inl before
  | defineClassMethod => exact .inl ((Hierarchy.ownMethod?_defineClassMethod ..).symm.trans own)
  | remove => exact .inl (Hierarchy.ownMethod?_removeMethod own)
  | includeModule target other after present done =>
    exact .inl ((Hierarchy.ownMethod?_includeModule done id name).symm.trans own)
  | create => exact .inl (Hierarchy.ownMethod?_create rfl own)

theorem Deed.ownClassMethod?_origin (deed : Deed free m m')
    (own : m'.hierarchy.ownClassMethod? id name = some method) :
    m.hierarchy.ownClassMethod? id name = some method ∨ method.body.builtin? = none := by
  cases deed with
  | make | symbol | setVariable | backtrace | message | singleton | call | observe => exact .inl own
  | define | retag => exact .inl ((Hierarchy.ownClassMethod?_defineMethod ..).symm.trans own)
  | defineClassMethod made code written =>
    obtain ⟨-, -, rfl⟩ | before := Hierarchy.ownClassMethod?_defineClassMethod own
    · exact .inr written
    · exact .inl before
  | remove => exact .inl ((Hierarchy.ownClassMethod?_removeMethod ..).symm.trans own)
  | includeModule target other after present done =>
    exact .inl ((Hierarchy.ownClassMethod?_includeModule done id name).symm.trans own)
  | create => exact .inl (Hierarchy.ownClassMethod?_create rfl own)

theorem Deed.singletonMethod?_origin (deed : Deed free m m') {object : ObjectId}
    (own : m'.singletonMethod? object name = some method) :
    m.singletonMethod? object name = some method ∨ method.body.builtin? = none := by
  obtain ⟨o', at_object, own⟩ := Option.bind_eq_some_iff.1 own
  have kept {o : Object} (before : m.heap.get? object = some o)
      (same : o'.singletonMethods = o.singletonMethods) :
      m.singletonMethod? object name = some method := by
    rw [same] at own
    exact Option.bind_eq_some_iff.2 ⟨o, before, own⟩
  cases deed with
  | make | symbol | create =>
    obtain rfl | before := Heap.get?_push_cases at_object
    · cases own
    · exact .inl (kept before rfl)
  | setVariable =>
    obtain ⟨o, -, before, rfl⟩ | before := Heap.get?_modify_cases at_object
    · exact .inl (kept before rfl)
    · exact .inl (kept before rfl)
  | backtrace | message =>
    obtain ⟨o, -, before, rfl⟩ | before := Heap.get?_modify_cases at_object
    · exact .inl (kept before (o.mapException_alike _).singletonMethods)
    · exact .inl (kept before rfl)
  | singleton other made code written =>
    obtain ⟨o, -, before, rfl⟩ | before := Heap.get?_modify_cases at_object
    · rw [Bindings.get?_insert] at own
      split at own
      next =>
        obtain rfl := Option.some.inj own
        exact .inr written
      next => exact .inl (Option.bind_eq_some_iff.2 ⟨o, before, own⟩)
    · exact .inl (kept before rfl)
  | define | retag | defineClassMethod | remove | includeModule | call | observe =>
    exact .inl (kept at_object rfl)

/-! ### The invariant -/

/-- Built-in methods are in the tables of classes that house them, and nowhere else. -/
structure Machine.Homed (m : Machine) : Prop where
  methods : ∀ id name method b, m.hierarchy.ownMethod? id name = some method →
    method.body.builtin? = some b → m.hierarchy.Houses id b
  classMethods : ∀ id name method, m.hierarchy.ownClassMethod? id name = some method →
    method.body.builtin? = none
  singletons : ∀ id name method, m.singletonMethod? id name = some method →
    method.body.builtin? = none

theorem Machine.Homed.of_ancestor (homed : m.Homed) (shaped : m.hierarchy.Shaped)
    (rooted : m.hierarchy.Rooted) {cls : ModuleId} (mem : id ∈ m.hierarchy.ancestors cls)
    (own : m.hierarchy.ownMethod? id name = some method)
    (native : method.body.builtin? = some b) : m.hierarchy.Houses cls b := by
  intro some_home
  obtain ⟨home, in_homes, above⟩ := homed.methods id name method b own native some_home
  have is_class := rooted.core_isClass (Core.kind_of_mem home (b.homes_subset home in_homes))
  exact ⟨home, in_homes, shaped.mem_superclasses_of_ancestor mem above is_class⟩

theorem Machine.Homed.findMethod (homed : m.Homed) (shaped : m.hierarchy.Shaped)
    (rooted : m.hierarchy.Rooted) (found : m.hierarchy.findMethod id name = some method)
    (native : method.body.builtin? = some b) : m.hierarchy.Houses id b := by
  rw [Hierarchy.findMethod_eq] at found
  obtain ⟨holder, mem, own⟩ := List.exists_of_findSome?_eq_some found
  exact homed.of_ancestor shaped rooted mem own native

theorem Deed.homed (deed : Deed false m m') (shaped : m.hierarchy.Shaped)
    (rooted : m.hierarchy.Rooted) (homed : m.Homed) : m'.Homed := by
  refine ⟨?_, ?_, ?_⟩
  · intro id name method b own native
    refine Hierarchy.Houses.grows ?_ rooted deed.grows
    obtain before | written | ⟨wanted, source, found, same⟩ := deed.ownMethod?_origin own
    · exact homed.methods id name method b before native
    · rw [native] at written
      exact absurd written.free_of_false Bool.false_ne_true
    · rw [same] at native
      exact homed.findMethod shaped rooted found native
  · intro id name method own
    obtain before | written := deed.ownClassMethod?_origin own
    · exact homed.classMethods id name method before
    · exact written
  · intro id name method own
    obtain before | written := deed.singletonMethod?_origin own
    · exact homed.singletons id name method before
    · exact written

theorem Installation.housed_start : ∀ i ∈ Installation.all,
    i.builtin.homes = [] ∨ ∃ home ∈ i.builtin.homes,
      home.id ∈ Machine.bareHierarchy.superclasses i.owner.id := by
  decide +kernel

namespace Machine

theorem homed_boot (settings : Settings) : (boot settings).Homed := by
  refine ⟨?_, ?_, ?_⟩
  · intro id name method b own native some_home
    obtain ⟨i, mem, number, -, rfl, -, rfl⟩ := ownMethod?_startHierarchy own
    obtain rfl := Option.some.inj native
    obtain no_home | ⟨home, in_homes, above⟩ := i.housed_start mem
    · exact absurd no_home some_home
    · rw [← rooted_start.core_superclasses] at above
      exact ⟨home, in_homes, above⟩
  · intro id name method own
    change startHierarchy.ownClassMethod? id name = some method at own
    rw [ownClassMethod?_startHierarchy] at own
    cases own
  · intro id name method own
    obtain ⟨o, at_id, own⟩ := Option.bind_eq_some_iff.1 own
    rw [startObjects_bare at_id] at own
    cases own

theorem Formed.homed (formed : m.Formed) : m.Homed := by
  refine formed.induction Homed homed_boot ?_
  intro m m' formed homed deed
  exact deed.homed formed.reachable.shaped formed.reachable.rooted homed

/-! ### Dispatch -/

inductive Finds (m : Machine) (id : ObjectId) (method : Method) : Prop where
  | send (name : String) (found : m.resolve id name = some method) : Finds m id method
  | callSuper (current : Method) (recorded place : Option Nat)
      (next : Run.nextDefinition m id current recorded = some (place, method)) : Finds m id method

theorem Formed.houses (formed : m.Formed) {id : ObjectId} (finds : m.Finds id method)
    (native : method.body.builtin? = some b) :
    m.hierarchy.Houses (m.classOf (.object id)) b := by
  have shaped := formed.reachable.shaped
  have rooted := formed.reachable.rooted
  have homed := formed.homed
  have not_code {found : Method} (written : found.body.builtin? = none)
      (same : found = method) : m.hierarchy.Houses (m.classOf (.object id)) b := by
    rw [← same, written] at native
    cases native
  cases finds with
  | send name found =>
    unfold resolve at found
    split at found
    next own => exact not_code (homed.singletons id name _ own) (Option.some.inj found)
    next =>
      split at found
      next at_class =>
        obtain ⟨cls, -, entry⟩ := Option.bind_eq_some_iff.1 at_class
        obtain ⟨holder, -, own⟩ := List.exists_of_findSome?_eq_some entry
        exact not_code (homed.classMethods holder name _ own) (Option.some.inj found)
      next => exact homed.findMethod shaped rooted found native
  | callSuper current recorded place next =>
    unfold Run.nextDefinition at next
    obtain ⟨found, -⟩ := Option.filter_eq_some_iff.1 next
    split at found
    next =>
      obtain ⟨_, entry, ⟨⟩⟩ := Option.map_eq_some_iff.1 found
      obtain ⟨holder, -, own⟩ := List.exists_of_findSome?_eq_some entry
      exact not_code (homed.classMethods holder _ _ own) rfl
    next =>
      obtain ⟨_, entry, ⟨⟩⟩ := Option.map_eq_some_iff.1 found
      obtain ⟨start, -, entry⟩ := Option.bind_eq_some_iff.1 entry
      have spec := (m.hierarchy.firstEntry_drop_eq_some _ _ _ _ _).1 entry
      obtain ⟨holder, at_place, own⟩ := Option.bind_eq_some_iff.1 spec.2.1
      exact homed.of_ancestor shaped rooted (List.mem_of_getElem? at_place) own native

end Machine

end ObjectRuntime
