import ObjectRuntime.Proofs.Hierarchy.Order

/-!
# What a growing hierarchy keeps

The superclass of a class is settled when the class is made, and so is what is a class, and the
name. New classes come after the old ones, so the superclasses of a class stay the same list for
ever.

The core classes come first. What is above a core class can be read off the table at the start.
-/

set_option autoImplicit false

namespace ObjectRuntime

namespace Hierarchy

variable {h h' h'' : Hierarchy} {id : ModuleId}

/-- Nothing has changed below the classes and modules that were there. -/
structure Grows (h h' : Hierarchy) : Prop where
  size : h.size ≤ h'.size
  superclass? : ∀ id : ModuleId, id.index < h.size → h'.superclass? id = h.superclass? id
  isClass : ∀ id : ModuleId, id.index < h.size → h'.isClass id = h.isClass id

theorem Grows.refl (h : Hierarchy) : h.Grows h := ⟨Nat.le_refl _, fun _ _ => rfl, fun _ _ => rfl⟩

theorem Grows.trans (first : h.Grows h') (second : h'.Grows h'') : h.Grows h'' where
  size := Nat.le_trans first.size second.size
  superclass? id present :=
    (second.superclass? id (Nat.lt_of_lt_of_le present first.size)).trans
      (first.superclass? id present)
  isClass id present :=
    (second.isClass id (Nat.lt_of_lt_of_le present first.size)).trans (first.isClass id present)

theorem Grows.superclasses (grows : h.Grows h') (present : id.index < h.size) :
    h'.superclasses id = h.superclasses id :=
  chain_congr fun j le => grows.superclass? j (Nat.lt_of_le_of_lt le present)

theorem Grows.of_links (size : h'.size = h.size)
    (superclass? : ∀ id, h'.superclass? id = h.superclass? id)
    (isClass : ∀ id, h'.isClass id = h.isClass id) : h.Grows h' :=
  ⟨Nat.le_of_eq size.symm, fun id _ => superclass? id, fun id _ => isClass id⟩

theorem grows_create (h : Hierarchy) (m : Module) : h.Grows (h.create m) := by
  have old : ∀ id : ModuleId, id.index < h.size → id ≠ h.next := by
    rintro id present rfl
    exact Nat.lt_irrefl _ present
  refine ⟨?_, ?_, ?_⟩
  · rw [size_create]
    exact Nat.le_succ _
  · intro id present
    rw [Hierarchy.superclass?, get?_create, if_neg (old id present), Hierarchy.superclass?]
  · exact fun id present => isClass_create_of_ne m (old id present)

/-! ### Superclasses and ancestors -/

theorem self_mem_superclasses (h : Hierarchy) (id : ModuleId) : id ∈ h.superclasses id :=
  self_mem_chain

theorem mem_superclasses_trans {above top : ModuleId} (mem : above ∈ h.superclasses id)
    (higher : top ∈ h.superclasses above) : top ∈ h.superclasses id := mem_chain_trans mem higher

theorem mem_ancestors_of_superclass (present : 0 < h.size) {above : ModuleId}
    (mem : above ∈ h.superclasses id) : above ∈ h.ancestors id := by
  obtain ⟨depth, size⟩ := Nat.exists_eq_succ_of_ne_zero (Nat.ne_of_gt present)
  refine List.mem_flatMap.2 ⟨above, mem, ?_⟩
  rw [expand, size, expandTo]
  exact List.mem_cons_self

theorem Shaped.mem_ancestors_iff (shaped : h.Shaped) (present : 0 < h.size) {cls : ModuleId}
    (is_class : h.isClass cls = true) : cls ∈ h.ancestors id ↔ cls ∈ h.superclasses id :=
  ⟨fun mem => shaped.mem_superclasses mem is_class, mem_ancestors_of_superclass present⟩

theorem Shaped.inherits_iff (shaped : h.Shaped) (present : 0 < h.size) {cls : ModuleId}
    (is_class : h.isClass cls = true) : h.inherits id cls = true ↔ cls ∈ h.superclasses id := by
  rw [inherits, Bool.or_eq_true, beq_iff_eq, List.contains_iff_mem,
    shaped.mem_ancestors_iff present is_class]
  refine ⟨?_, .inr⟩
  rintro (rfl | mem)
  · exact h.self_mem_superclasses _
  · exact mem

theorem Shaped.mem_superclasses_of_ancestor (shaped : h.Shaped) {above top : ModuleId}
    (mem : above ∈ h.ancestors id) (higher : top ∈ h.superclasses above)
    (is_class : h.isClass top = true) : top ∈ h.superclasses id := by
  cases above_class : h.isClass above with
  | true => exact mem_superclasses_trans (shaped.mem_superclasses mem above_class) higher
  | false =>
    obtain rfl | ⟨-, has_superclass⟩ := Hierarchy.mem_superclasses higher
    · rw [is_class] at above_class
      cases above_class
    · rw [shaped.roots above has_superclass] at above_class
      cases above_class

end Hierarchy

/-! ### Changes let the hierarchy grow -/

theorem Change.grows {P : Expr → Prop} {m m' : Machine} (change : Change P m m') :
    m.hierarchy.Grows m'.hierarchy := by
  cases change with
  | make | edit | singleton | frame | observe => exact .refl _
  | define | retag =>
    exact .of_links (Hierarchy.size_defineMethod ..) (Hierarchy.superclass?_defineMethod _ _ · _)
      (Hierarchy.isClass_defineMethod _ _ · _)
  | defineClassMethod =>
    exact .of_links (Hierarchy.size_defineClassMethod ..)
      (Hierarchy.superclass?_defineClassMethod _ _ · _)
      (Hierarchy.isClass_defineClassMethod _ _ · _)
  | remove =>
    exact .of_links (Hierarchy.size_removeMethod ..) (Hierarchy.superclass?_removeMethod _ _ · _)
      (Hierarchy.isClass_removeMethod _ _ · _)
  | includeModule target id after present done =>
    exact .of_links (Hierarchy.size_includeModule done) (Hierarchy.superclass?_includeModule done)
      (Hierarchy.isClass_includeModule done)
  | create => exact Hierarchy.grows_create _ _

theorem Steps.grows {m m' : Machine} (steps : Steps m m') : m.hierarchy.Grows m'.hierarchy := by
  induction steps with
  | refl => exact .refl _
  | tail _ last ih =>
    cases last with
    | change change => exact ih.trans change.grows
    | call => exact ih

/-! ### Names stay -/

namespace Hierarchy

def nameOf? (h : Hierarchy) (id : ModuleId) : Option String := (h.get? id).bind (·.name)

variable {h : Hierarchy} {id : ModuleId}

theorem nameOf?_modify (owner : ModuleId) (f : Module → Module) (same : ∀ m, (f m).name = m.name) :
    (h.modify owner f).nameOf? id = h.nameOf? id :=
  bind_get?_modify h owner id f (·.name) same

theorem nameOf?_create (m : Module) (present : id.index < h.size) :
    (h.create m).nameOf? id = h.nameOf? id := by
  rw [nameOf?, get?_create, if_neg]
  · rfl
  · rintro rfl
    exact Nat.lt_irrefl _ present

end Hierarchy

theorem Installation.nameOf?_install (h : Hierarchy) (serial : Nat) (list : List Installation)
    (id : ModuleId) : (install h serial list).nameOf? id = h.nameOf? id := by
  induction list generalizing h serial with
  | nil => rfl
  | cons i rest ih =>
    rw [install, ih]
    exact Hierarchy.nameOf?_modify _ _ fun _ => rfl

theorem Change.nameOf? {P : Expr → Prop} {m m' : Machine} (change : Change P m m') {id : ModuleId}
    (present : id.index < m.hierarchy.size) : m'.hierarchy.nameOf? id = m.hierarchy.nameOf? id := by
  cases change with
  | make | edit | singleton | frame | observe => rfl
  | define | retag | defineClassMethod | remove =>
    exact Hierarchy.nameOf?_modify _ _ fun _ => rfl
  | includeModule target other after inside done =>
    obtain ⟨-, rfl⟩ := Hierarchy.includeModule_eq_ok done
    exact Hierarchy.nameOf?_modify _ _ fun _ => rfl
  | create => exact Hierarchy.nameOf?_create _ present

theorem Steps.nameOf? {m m' : Machine} (steps : Steps m m') {id : ModuleId}
    (present : id.index < m.hierarchy.size) : m'.hierarchy.nameOf? id = m.hierarchy.nameOf? id := by
  induction steps with
  | refl => rfl
  | tail before last ih =>
    have still := Nat.lt_of_lt_of_le present (Steps.grows before).size
    cases last with
    | change change => exact (change.nameOf? still).trans ih
    | call => exact ih

/-! ### The core classes -/

namespace Hierarchy

/-- The core classes are as they were made. -/
abbrev Rooted (h : Hierarchy) : Prop := Machine.bareHierarchy.Grows h

variable {h : Hierarchy} {id : ModuleId}

theorem Rooted.present (rooted : h.Rooted) : 0 < h.size :=
  Nat.lt_of_lt_of_le (by decide) rooted.size

theorem core_in_bareHierarchy (c : Core) : c.id.index < Machine.bareHierarchy.size := by
  cases c <;> decide

theorem Rooted.core_present (rooted : h.Rooted) (c : Core) : c.id.index < h.size :=
  Nat.lt_of_lt_of_le (core_in_bareHierarchy c) rooted.size

theorem Rooted.core_superclasses (rooted : h.Rooted) (c : Core) :
    h.superclasses c.id = Machine.bareHierarchy.superclasses c.id :=
  rooted.superclasses (core_in_bareHierarchy c)

theorem Rooted.core_isClass (rooted : h.Rooted) {c : Core} (is_class : c.kind = .classKind) :
    h.isClass c.id = true := by
  rw [rooted.isClass c.id (core_in_bareHierarchy c)]
  revert is_class
  cases c <;> decide

end Hierarchy

namespace Machine

theorem rooted_start : startHierarchy.Rooted := by
  rw [startHierarchy_eq]
  exact .of_links (Installation.size_install ..) (Installation.superclass?_install _ _ _)
    (Installation.isClass_install _ _ _)

theorem Reachable.rooted {m : Machine} (reachable : m.Reachable) : m.hierarchy.Rooted := by
  obtain ⟨settings, steps⟩ := reachable
  exact rooted_start.trans steps.grows

theorem Reachable.className_core {m : Machine} (reachable : m.Reachable) (c : Core) :
    m.className c.id = c.name := by
  obtain ⟨settings, steps⟩ := reachable
  have bare : bareHierarchy.nameOf? c.id = some c.name := by
    cases c <;> decide
  have start : startHierarchy.nameOf? c.id = some c.name := by
    rw [startHierarchy_eq, Installation.nameOf?_install, bare]
  have named : m.moduleName? c.id = some c.name :=
    (steps.nameOf? (rooted_start.core_present c)).trans start
  rw [className, named]

end Machine

end ObjectRuntime
