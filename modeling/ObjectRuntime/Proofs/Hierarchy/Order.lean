import ObjectRuntime.Proofs.Machine.Change

/-!
# Classes among the ancestors

Only modules are included, and only classes have a superclass. So the classes among the ancestors of
a class are its superclasses, and each of them but the class itself was made before it.
-/

set_option autoImplicit false

namespace ObjectRuntime

namespace Hierarchy

variable {h : Hierarchy}

theorem mem_superclasses {id other : ModuleId} (mem : other ∈ h.superclasses id) :
    other = id ∨ other.index < id.index ∧ (h.superclass? id).isSome := mem_chain mem

theorem nodup_superclasses (h : Hierarchy) (id : ModuleId) : (h.superclasses id).Nodup :=
  nodup_chain ModuleId.index h.superclass? id

theorem idxOf?_ancestors (present : 0 < h.size) (id : ModuleId) :
    (h.ancestors id).idxOf? id = some 0 := by
  obtain ⟨depth, size⟩ := Nat.exists_eq_succ_of_ne_zero (Nat.ne_of_gt present)
  rw [ancestors, superclasses, chain_eq, List.flatMap_cons, expand, size, expandTo,
    List.cons_append, List.idxOf?_cons, if_pos (beq_self_eq_true id)]

/-- What every table of classes and modules is like: modules are included and have no superclass. -/
structure Shaped (h : Hierarchy) : Prop where
  included : ∀ id other, other ∈ h.includesOf id → h.isClass other = false ∧ other.index < h.size
  roots : ∀ id, (h.superclass? id).isSome → h.isClass id = true

theorem mem_expandTo {depth : Nat} {id other : ModuleId} (mem : other ∈ h.expandTo depth id) :
    other = id ∨ ∃ user, other ∈ h.includesOf user := by
  induction depth generalizing id with
  | zero => cases mem
  | succ depth ih =>
    obtain rfl | below := List.mem_cons.1 mem
    · exact .inl rfl
    · obtain ⟨included, in_includes, below⟩ := List.mem_flatMap.1 below
      obtain rfl | user := ih below
      · exact .inr ⟨id, in_includes⟩
      · exact .inr user

theorem Shaped.mem_superclasses (shaped : h.Shaped) {cls id : ModuleId}
    (mem : id ∈ h.ancestors cls) (is_class : h.isClass id = true) : id ∈ h.superclasses cls := by
  obtain ⟨above, in_chain, in_expansion⟩ := List.mem_flatMap.1 mem
  obtain rfl | ⟨user, included⟩ := mem_expandTo in_expansion
  · exact in_chain
  · have not_class := (shaped.included user id included).1
    rw [is_class] at not_class
    cases not_class

theorem Shaped.of_links {after : Hierarchy} (shaped : h.Shaped) (size : after.size = h.size)
    (includesOf : ∀ id, after.includesOf id = h.includesOf id)
    (isClass : ∀ id, after.isClass id = h.isClass id)
    (superclass? : ∀ id, after.superclass? id = h.superclass? id) : after.Shaped := by
  refine ⟨?_, ?_⟩
  · intro id other mem
    rw [includesOf] at mem
    rw [isClass, size]
    exact shaped.included id other mem
  · intro id has_superclass
    rw [superclass?] at has_superclass
    rw [isClass]
    exact shaped.roots id has_superclass

theorem Shaped.includeModule {after : Hierarchy} {target id : ModuleId} (shaped : h.Shaped)
    (present : id.index < h.size) (done : h.includeModule target id = .ok after) :
    after.Shaped := by
  refine ⟨?_, ?_⟩
  · intro user other mem
    rw [isClass_includeModule done, size_includeModule done]
    obtain ⟨not_class, rfl⟩ | before := mem_includesOf_includeModule done mem
    · exact ⟨not_class, present⟩
    · exact shaped.included user other before
  · intro user has_superclass
    rw [superclass?_includeModule done] at has_superclass
    rw [isClass_includeModule done]
    exact shaped.roots user has_superclass

theorem Shaped.create (shaped : h.Shaped) {m : Module} (no_includes : m.includes = [])
    (root : m.kind = .moduleKind → m.superclass = none) : (h.create m).Shaped := by
  refine ⟨?_, ?_⟩
  · intro id other mem
    rw [includesOf_create no_includes] at mem
    obtain ⟨not_class, present⟩ := shaped.included id other mem
    have old : other ≠ h.next := by
      rintro rfl
      exact Nat.lt_irrefl _ present
    rw [isClass_create_of_ne m old, size_create]
    exact ⟨not_class, by omega⟩
  · intro id has_superclass
    rw [superclass?, get?_create] at has_superclass
    rw [isClass, get?_create]
    split at has_superclass
    next =>
      rw [if_pos ‹_›]
      change m.isClass = true
      rw [Module.isClass]
      cases kind : m.kind with
      | classKind => rfl
      | moduleKind =>
        rw [Option.bind_some, root kind] at has_superclass
        cases has_superclass
    next =>
      rw [if_neg ‹_›]
      exact shaped.roots id has_superclass

end Hierarchy

theorem Change.shaped {P : Expr → Prop} {m m' : Machine} (change : Change P m m')
    (shaped : m.hierarchy.Shaped) : m'.hierarchy.Shaped := by
  cases change with
  | make | edit | singleton | frame | observe => exact shaped
  | define | retag =>
    exact shaped.of_links (Hierarchy.size_defineMethod ..)
      (Hierarchy.includesOf_defineMethod _ _ · _) (Hierarchy.isClass_defineMethod _ _ · _)
      (Hierarchy.superclass?_defineMethod _ _ · _)
  | defineClassMethod =>
    exact shaped.of_links (Hierarchy.size_defineClassMethod ..)
      (Hierarchy.includesOf_defineClassMethod _ _ · _) (Hierarchy.isClass_defineClassMethod _ _ · _)
      (Hierarchy.superclass?_defineClassMethod _ _ · _)
  | remove =>
    exact shaped.of_links (Hierarchy.size_removeMethod ..)
      (Hierarchy.includesOf_removeMethod _ _ · _) (Hierarchy.isClass_removeMethod _ _ · _)
      (Hierarchy.superclass?_removeMethod _ _ · _)
  | includeModule target id after present done => exact shaped.includeModule present done
  | create name kind superclass outer metaclass root => exact shaped.create rfl root

/-! ### The hierarchy at the start -/

namespace Installation

theorem superclass?_install (h : Hierarchy) (serial : Nat) (list : List Installation)
    (id : ModuleId) : (install h serial list).superclass? id = h.superclass? id := by
  induction list generalizing h serial with
  | nil => rfl
  | cons i rest ih => rw [install, ih, Hierarchy.superclass?_defineMethod]

theorem isClass_install (h : Hierarchy) (serial : Nat) (list : List Installation) (id : ModuleId) :
    (install h serial list).isClass id = h.isClass id := by
  induction list generalizing h serial with
  | nil => rfl
  | cons i rest ih => rw [install, ih, Hierarchy.isClass_defineMethod]

theorem includesOf_install (h : Hierarchy) (serial : Nat) (list : List Installation)
    (id : ModuleId) : (install h serial list).includesOf id = h.includesOf id := by
  induction list generalizing h serial with
  | nil => rfl
  | cons i rest ih => rw [install, ih, Hierarchy.includesOf_defineMethod]

theorem size_install (h : Hierarchy) (serial : Nat) (list : List Installation) :
    (install h serial list).size = h.size := by
  induction list generalizing h serial with
  | nil => rfl
  | cons i rest ih => rw [install, ih, Hierarchy.size_defineMethod]

/-- An installed method comes from the list, under a serial number of its own. -/
theorem ownMethod?_install {h : Hierarchy} {serial : Nat} {list : List Installation} {id : ModuleId}
    {name : String} {method : Method}
    (own : (install h serial list).ownMethod? id name = some method) :
    (∃ i ∈ list, ∃ number, number < serial + list.length ∧ id = i.owner.id ∧ name = i.name ∧
      method = i.method number) ∨ h.ownMethod? id name = some method := by
  induction list generalizing h serial with
  | nil => exact .inr own
  | cons i rest ih =>
    obtain ⟨j, mem, number, lt, at_owner⟩ | before := ih own
    · refine .inl ⟨j, List.mem_cons_of_mem i mem, number, ?_, at_owner⟩
      rw [List.length_cons]
      omega
    · obtain ⟨same, named, rfl⟩ | before := Hierarchy.ownMethod?_defineMethod before
      · refine .inl ⟨i, List.mem_cons_self, serial, ?_, same, named, rfl⟩
        rw [List.length_cons]
        omega
      · exact .inr before

theorem ownClassMethod?_install (h : Hierarchy) (serial : Nat) (list : List Installation)
    (id : ModuleId) (name : String) :
    (install h serial list).ownClassMethod? id name = h.ownClassMethod? id name := by
  induction list generalizing h serial with
  | nil => rfl
  | cons i rest ih => rw [install, ih, Hierarchy.ownClassMethod?_defineMethod]

end Installation

namespace Machine

def bareHierarchy : Hierarchy := ⟨(Core.all.map Core.entry).toArray⟩

theorem startHierarchy_eq :
    startHierarchy = Installation.install bareHierarchy 1 Installation.all :=
  rfl

theorem get?_bareHierarchy {id : ModuleId} {m : Module} (entry : bareHierarchy.get? id = some m) :
    ∃ c : Core, m = c.entry := by
  change (Core.all.map Core.entry).toArray[id.index]? = some m at entry
  rw [List.getElem?_toArray] at entry
  obtain ⟨c, -, rfl⟩ := List.mem_map.1 (List.mem_of_getElem? entry)
  exact ⟨c, rfl⟩

theorem startObjects_bare {settings : Settings} {id : ObjectId} {o : Object}
    (at_id : (boot settings).heap.get? id = some o) : o.singletonMethods = .empty := by
  have all_bare : ∀ o ∈ startObjects, o.singletonMethods.entries = [] := by decide
  change startObjects.toArray[id.index]? = some o at at_id
  rw [List.getElem?_toArray] at at_id
  exact congrArg Bindings.mk (all_bare o (List.mem_of_getElem? at_id))

theorem ownMethod?_startHierarchy {id : ModuleId} {name : String} {method : Method}
    (own : startHierarchy.ownMethod? id name = some method) :
    ∃ i ∈ Installation.all, ∃ number ≤ Installation.all.length, id = i.owner.id ∧ name = i.name ∧
      method = i.method number := by
  obtain ⟨i, mem, number, lt, at_owner⟩ | before := Installation.ownMethod?_install own
  · exact ⟨i, mem, number, by omega, at_owner⟩
  · obtain ⟨m, entry, own⟩ := Option.bind_eq_some_iff.1 before
    obtain ⟨c, rfl⟩ := get?_bareHierarchy entry
    cases own

theorem ownClassMethod?_startHierarchy (id : ModuleId) (name : String) :
    startHierarchy.ownClassMethod? id name = none := by
  rw [startHierarchy_eq, Installation.ownClassMethod?_install, Hierarchy.ownClassMethod?]
  cases entry : bareHierarchy.get? id with
  | none => rfl
  | some m =>
    obtain ⟨c, rfl⟩ := get?_bareHierarchy entry
    rfl

theorem bareHierarchy_shaped : bareHierarchy.Shaped := by
  refine ⟨?_, ?_⟩
  · intro id other mem
    cases entry : bareHierarchy.get? id with
    | none =>
      rw [Hierarchy.includesOf, entry] at mem
      cases mem
    | some m =>
      obtain ⟨c, rfl⟩ := get?_bareHierarchy entry
      rw [Hierarchy.includesOf, entry] at mem
      obtain ⟨included, in_list, rfl⟩ := List.mem_map.1 mem
      revert included
      cases c <;> decide
  · intro id has_superclass
    cases entry : bareHierarchy.get? id with
    | none =>
      rw [Hierarchy.superclass?, entry] at has_superclass
      cases has_superclass
    | some m =>
      obtain ⟨c, rfl⟩ := get?_bareHierarchy entry
      rw [Hierarchy.superclass?, entry] at has_superclass
      rw [Hierarchy.isClass, entry]
      revert has_superclass
      cases c <;> decide

theorem startHierarchy_shaped : startHierarchy.Shaped := by
  rw [startHierarchy_eq]
  exact bareHierarchy_shaped.of_links (Installation.size_install ..)
    (Installation.includesOf_install _ _ _) (Installation.isClass_install _ _ _)
    (Installation.superclass?_install _ _ _)

theorem Reachable.shaped {m : Machine} (reachable : m.Reachable) : m.hierarchy.Shaped :=
  reachable.hierarchy_induction Hierarchy.Shaped startHierarchy_shaped fun _ _ => Change.shaped

end Machine

end ObjectRuntime
