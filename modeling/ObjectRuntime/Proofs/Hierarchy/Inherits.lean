import ObjectRuntime.Proofs.Hierarchy.Growth
import ObjectRuntime.Proofs.Hierarchy.Searches
import ObjectRuntime.Proofs.Machine.Programs

/-!
# What is above a class or a module

The parents of a class or a module are its superclass and the modules it includes. `inherits` reads
them off the list of ancestors, which expands includes only along the superclasses; it is the way
along the parents all the same, since a module has no superclass and no class is included.

Parents are never lost and never come in a circle. So what inherits is an order on every machine,
and no step takes a pair out of it.
-/

set_option autoImplicit false

namespace ObjectRuntime

open Relation

namespace Hierarchy

variable {h after : Hierarchy} {id other target : ModuleId}

/-- The other one is the superclass, or a module that is included. -/
def HasParent (h : Hierarchy) (id other : ModuleId) : Prop :=
  lower? ModuleId.index h.superclass? id = some other ∨ h.Includes id other

theorem in_range_of_mem_superclasses (present : id.index < h.size)
    (mem : other ∈ h.superclasses id) : other.index < h.size := by
  obtain rfl | ⟨lower, -⟩ := mem_superclasses mem
  · exact present
  · omega

theorem reaches_superclass (mem : other ∈ h.superclasses id) :
    ReflTransGen h.HasParent id other := by
  induction id using chain_induction ModuleId.index h.superclass? with
  | step id ih =>
    obtain rfl | ⟨lower, links, below⟩ := mem_chain_iff.1 mem
    · exact .refl
    · exact .head (.inl links) (ih lower links below)

theorem Shaped.isClass_of_lower? (shaped : h.Shaped)
    (links : lower? ModuleId.index h.superclass? id = some other) : h.isClass id = true := by
  obtain ⟨superclass, -⟩ := Option.filter_eq_some_iff.1 links
  exact shaped.roots id (by rw [superclass]; rfl)

/-! ### The ancestors are the ways along the parents -/

theorem Layered.reaches_of_inherits (layered : h.Layered) (present : id.index < h.size)
    (inherits : h.inherits id other = true) : ReflTransGen h.HasParent id other := by
  rw [Hierarchy.inherits, Bool.or_eq_true, beq_iff_eq, List.contains_iff_mem] at inherits
  obtain rfl | mem := inherits
  · exact .refl
  · obtain ⟨cls, in_chain, in_expansion⟩ := List.mem_flatMap.1 mem
    have cls_present := in_range_of_mem_superclasses present in_chain
    have along := (layered.nested.mem_expand_iff cls_present).1 in_expansion
    exact (reaches_superclass in_chain).trans (ReflTransGen.mono (fun _ _ => .inr) _ _ along)

theorem Layered.mem_ancestors_tail (layered : h.Layered) (present : id.index < h.size)
    {top : ModuleId} (mem : other ∈ h.ancestors id) (parent : h.HasParent other top) :
    top ∈ h.ancestors id := by
  obtain superclass | included := parent
  · -- The superclass is read off the chain of superclasses, where the class itself must stand.
    have is_class := layered.toShaped.isClass_of_lower? superclass
    have in_chain := layered.toShaped.mem_superclasses mem is_class
    have next : top ∈ h.superclasses other :=
      mem_chain_iff.2 (.inr ⟨top, superclass, self_mem_chain⟩)
    exact mem_ancestors_of_superclass (by omega) (mem_superclasses_trans in_chain next)
  · obtain ⟨cls, in_chain, in_expansion⟩ := List.mem_flatMap.1 mem
    have cls_present := in_range_of_mem_superclasses present in_chain
    have along := (layered.nested.mem_expand_iff cls_present).1 in_expansion
    refine List.mem_flatMap.2 ⟨cls, in_chain, ?_⟩
    exact (layered.nested.mem_expand_iff cls_present).2 (along.tail included)

theorem Layered.inherits_iff (layered : h.Layered) (present : id.index < h.size) :
    h.inherits id other = true ↔ ReflTransGen h.HasParent id other := by
  refine ⟨layered.reaches_of_inherits present, ?_⟩
  intro way
  rw [Hierarchy.inherits, Bool.or_eq_true, beq_iff_eq, List.contains_iff_mem]
  right
  induction way with
  | refl => exact mem_ancestors_of_superclass (by omega) (h.self_mem_superclasses id)
  | tail _ last ih => exact layered.mem_ancestors_tail present ih last

/-! ### No way along the parents leads back -/

theorem Layered.includes_of_module (layered : h.Layered) (not_class : h.isClass id = false)
    (way : ReflTransGen h.HasParent id other) :
    h.isClass other = false ∧ ReflTransGen h.Includes id other := by
  induction way with
  | refl => exact ⟨not_class, .refl⟩
  | tail _ last ih =>
    obtain ⟨user_not_class, along⟩ := ih
    obtain superclass | included := last
    · rw [layered.toShaped.isClass_of_lower? superclass] at user_not_class
      cases user_not_class
    · exact ⟨(layered.included _ _ included).1, along.tail included⟩

theorem Layered.antisymm (layered : h.Layered) (present : id.index < h.size)
    (other_present : other.index < h.size) (above : h.inherits id other = true)
    (below : h.inherits other id = true) : id = other := by
  cases id_class : h.isClass id with
  | true =>
    have back := (layered.toShaped.inherits_iff (by omega) id_class).1 below
    cases other_class : h.isClass other with
    | true =>
      -- Of two classes each was made no later than the other.
      have forth := (layered.toShaped.inherits_iff (by omega) other_class).1 above
      obtain same | ⟨lt, -⟩ := mem_superclasses forth
      · exact same.symm
      · obtain same | ⟨gt, -⟩ := mem_superclasses back
        · exact same
        · omega
    | false =>
      have way := (layered.inherits_iff other_present).1 below
      have not_class := (layered.includes_of_module other_class way).1
      rw [id_class] at not_class
      cases not_class
  | false =>
    have forth := layered.includes_of_module id_class ((layered.inherits_iff present).1 above)
    have back := layered.includes_of_module forth.1 ((layered.inherits_iff other_present).1 below)
    obtain same | ahead := reflTransGen_iff_eq_or_transGen.1 forth.2
    · exact same.symm
    · exact (layered.acyclic id (ahead.trans_left back.2)).elim

/-- Each class stands at the head of its own expansion. -/
theorem Layered.superclasses_sublist (layered : h.Layered) (present : id.index < h.size) :
    (h.superclasses id).Sublist (h.ancestors id) := by
  have headed : ∀ cls ∈ h.superclasses id, [cls].Sublist (h.expand cls) := by
    intro cls mem
    rw [layered.nested.expand_eq (in_range_of_mem_superclasses present mem)]
    exact List.singleton_sublist.2 List.mem_cons_self
  rw [ancestors]
  revert headed
  generalize h.superclasses id = chain
  intro headed
  induction chain with
  | nil => exact .slnil
  | cons cls rest ih =>
    rw [List.flatMap_cons]
    refine List.Sublist.append (headed cls List.mem_cons_self) (ih ?_)
    exact fun other mem => headed other (List.mem_cons_of_mem cls mem)

/-! ### Edits keep the parents -/

/-- Parents are settled once and for good, but for the includes that come in addition. -/
structure Widens (h after : Hierarchy) : Prop where
  grows : h.Grows after
  includes : ∀ id other, h.Includes id other → after.Includes id other

theorem Widens.parents (widens : h.Widens after) (present : id.index < h.size)
    (parent : h.HasParent id other) : after.HasParent id other := by
  obtain superclass | included := parent
  · left
    rw [lower?, widens.grows.superclass? id present]
    exact superclass
  · exact .inr (widens.includes id other included)

theorem Layered.parent_in_range (layered : h.Layered) (present : id.index < h.size)
    (parent : h.HasParent id other) : other.index < h.size := by
  obtain superclass | included := parent
  · have lower := index_lt_of_lower? superclass
    omega
  · exact (layered.included id other included).2

theorem Layered.inherits_widens (layered : h.Layered) (after_layered : after.Layered)
    (widens : h.Widens after) (present : id.index < h.size) (above : h.inherits id other = true) :
    after.inherits id other = true := by
  rw [layered.inherits_iff present] at above
  rw [after_layered.inherits_iff (Nat.lt_of_lt_of_le present widens.grows.size)]
  have kept : other.index < h.size ∧ ReflTransGen after.HasParent id other := by
    induction above with
    | refl => exact ⟨present, .refl⟩
    | tail _ last ih =>
      obtain ⟨user_present, way⟩ := ih
      exact ⟨layered.parent_in_range user_present last,
        way.tail (widens.parents user_present last)⟩
  exact kept.2

structure SameLinks (h after : Hierarchy) : Prop where
  size : after.size = h.size
  superclass? : ∀ id, after.superclass? id = h.superclass? id
  isClass : ∀ id, after.isClass id = h.isClass id
  includesOf : ∀ id, after.includesOf id = h.includesOf id

theorem sameLinks_defineMethod (h : Hierarchy) (owner : ModuleId) (method : Method) :
    h.SameLinks (h.defineMethod owner method) :=
  ⟨size_defineMethod .., fun _ => superclass?_defineMethod .., fun _ => isClass_defineMethod ..,
    fun _ => includesOf_defineMethod ..⟩

theorem sameLinks_defineClassMethod (h : Hierarchy) (owner : ModuleId) (method : Method) :
    h.SameLinks (h.defineClassMethod owner method) :=
  ⟨size_defineClassMethod .., fun _ => superclass?_defineClassMethod ..,
    fun _ => isClass_defineClassMethod .., fun _ => includesOf_defineClassMethod ..⟩

theorem sameLinks_removeMethod (h : Hierarchy) (owner : ModuleId) (name : String) :
    h.SameLinks (h.removeMethod owner name) :=
  ⟨size_removeMethod .., fun _ => superclass?_removeMethod .., fun _ => isClass_removeMethod ..,
    fun _ => includesOf_removeMethod ..⟩

theorem SameLinks.layered (same : h.SameLinks after) (layered : h.Layered) : after.Layered :=
  layered.of_links same.size same.includesOf same.isClass same.superclass?

theorem SameLinks.widens (same : h.SameLinks after) : h.Widens after := by
  refine ⟨.of_links same.size same.superclass? same.isClass, ?_⟩
  intro id other included
  rwa [Includes, same.includesOf]

theorem Widens.refl (h : Hierarchy) : h.Widens h := ⟨.refl h, fun _ _ => id⟩

theorem Widens.trans {later : Hierarchy} (first : h.Widens after) (second : after.Widens later) :
    h.Widens later :=
  ⟨first.grows.trans second.grows, fun id other included =>
    second.includes id other (first.includes id other included)⟩

theorem widens_includeModule (done : h.includeModule target id = .ok after) : h.Widens after := by
  refine ⟨.of_links (size_includeModule done) (superclass?_includeModule done)
    (isClass_includeModule done), ?_⟩
  obtain ⟨-, rfl⟩ := includeModule_eq_ok done
  intro user used included
  rw [Includes, includesOf_cons]
  split
  next => exact List.mem_cons_of_mem id included
  next => exact included

theorem widens_create (h : Hierarchy) (m : Module) : h.Widens (h.create m) := by
  refine ⟨grows_create h m, ?_⟩
  intro user used included
  rw [Includes, includesOf, get?_create]
  split
  next new =>
    subst new
    rw [Includes, includesOf, get?_next] at included
    cases included
  next => exact included

theorem sameLinks_define (h : Hierarchy) (placement : Placement) (method : Method) :
    h.SameLinks (HierarchyState.define h placement method) := by
  cases placement with
  | ordinary => exact sameLinks_defineMethod h method.owner method
  | closure => exact sameLinks_defineMethod h method.owner method
  | classLevel => exact sameLinks_defineClassMethod h method.owner method

theorem Layered.performOn (layered : h.Layered) {step : HierarchyStep} (fit : h.fits step = true)
    (interner : Interner) : (HierarchyState.performOn h interner step).2.Layered := by
  cases step with
  | create name kind superclass =>
    obtain ⟨-, root⟩ := Bool.and_eq_true_iff.1 fit
    refine layered.create rfl ?_
    rintro rfl
    have none_above : superclass = none := by simpa using root
    exact none_above
  | define placement => exact (sameLinks_define h placement _).layered layered
  | retag id =>
    rw [HierarchyState.performOn]
    split
    next => exact (sameLinks_defineMethod h id _).layered layered
    next => exact layered
  | remove owner name => exact (sameLinks_removeMethod h owner name).layered layered
  | undefine owner => exact (sameLinks_defineMethod h owner _).layered layered
  | includeModule target id =>
    obtain ⟨-, present⟩ := Bool.and_eq_true_iff.1 fit
    rw [HierarchyState.performOn]
    split
    next after done => exact layered.includeModule (of_decide_eq_true present) done
    next => exact layered
  | info id =>
    rw [HierarchyState.performOn]
    split
    next => exact layered
    next => exact layered
  | _ => exact layered

theorem widens_performOn (h : Hierarchy) (interner : Interner) (step : HierarchyStep) :
    h.Widens (HierarchyState.performOn h interner step).2 := by
  cases step with
  | create => exact widens_create h _
  | define placement => exact (sameLinks_define h placement _).widens
  | retag id =>
    rw [HierarchyState.performOn]
    split
    next => exact (sameLinks_defineMethod h id _).widens
    next => exact .refl h
  | remove owner name => exact (sameLinks_removeMethod h owner name).widens
  | undefine owner => exact (sameLinks_defineMethod h owner _).widens
  | includeModule target id =>
    rw [HierarchyState.performOn]
    split
    next after done => exact widens_includeModule done
    next => exact .refl h
  | info id =>
    rw [HierarchyState.performOn]
    split
    next => exact .refl h
    next => exact .refl h
  | _ => exact .refl h

/-- Among the classes and modules of the table, what inherits is an order, and each class comes
before the classes above it in the list of its ancestors. -/
structure Ordered (h : Hierarchy) : Prop where
  refl : ∀ id, id.index < h.size → h.inherits id id = true
  trans : ∀ id other top, id.index < h.size → other.index < h.size → h.inherits id other = true →
    h.inherits other top = true → h.inherits id top = true
  antisymm : ∀ id other, id.index < h.size → other.index < h.size → h.inherits id other = true →
    h.inherits other id = true → id = other
  sublist : ∀ id, id.index < h.size → h.isClass id = true →
    (h.superclasses id).Sublist (h.ancestors id)

def Preserves (h after : Hierarchy) : Prop :=
  ∀ id other, id.index < h.size → h.inherits id other = true → after.inherits id other = true

theorem Layered.ordered (layered : h.Layered) : h.Ordered where
  refl _ present := (layered.inherits_iff present).2 .refl
  trans _ _ _ present other_present above further :=
    (layered.inherits_iff present).2
      (((layered.inherits_iff present).1 above).trans
        ((layered.inherits_iff other_present).1 further))
  antisymm _ _ present other_present := layered.antisymm present other_present
  sublist _ present _ := layered.superclasses_sublist present

theorem Layered.preserves (layered : h.Layered) (after_layered : after.Layered)
    (widens : h.Widens after) : h.Preserves after :=
  fun _ _ present above => layered.inherits_widens after_layered widens present above

end Hierarchy

/-! ### Every machine -/

theorem Change.layered {P : Expr → Prop} {m m' : Machine} (change : Change P m m')
    (layered : m.hierarchy.Layered) : m'.hierarchy.Layered := by
  cases change with
  | make | edit | singleton | frame | observe => exact layered
  | define | retag => exact (Hierarchy.sameLinks_defineMethod ..).layered layered
  | defineClassMethod => exact (Hierarchy.sameLinks_defineClassMethod ..).layered layered
  | remove => exact (Hierarchy.sameLinks_removeMethod ..).layered layered
  | includeModule target id after present done => exact layered.includeModule present done
  | create name kind superclass outer metaclass root => exact layered.create rfl root

theorem Change.widens {P : Expr → Prop} {m m' : Machine} (change : Change P m m') :
    m.hierarchy.Widens m'.hierarchy := by
  cases change with
  | make | edit | singleton | frame | observe => exact .refl _
  | define | retag => exact (Hierarchy.sameLinks_defineMethod ..).widens
  | defineClassMethod => exact (Hierarchy.sameLinks_defineClassMethod ..).widens
  | remove => exact (Hierarchy.sameLinks_removeMethod ..).widens
  | includeModule target id after present done => exact Hierarchy.widens_includeModule done
  | create => exact Hierarchy.widens_create _ _

theorem Steps.widens {m m' : Machine} (steps : Steps m m') :
    m.hierarchy.Widens m'.hierarchy := by
  induction steps with
  | refl => exact .refl _
  | tail _ last ih =>
    cases last with
    | change change => exact ih.trans change.widens
    | call => exact ih

namespace Machine

theorem bareHierarchy_layered : bareHierarchy.Layered := by
  refine ⟨bareHierarchy_shaped, ?_⟩
  -- No core module that is included includes anything itself.
  have ends : ∀ id other,
      bareHierarchy.Includes id other → bareHierarchy.includesOf other = [] := by
    intro id other included
    cases entry : bareHierarchy.get? id with
    | none =>
      rw [Hierarchy.Includes, Hierarchy.includesOf, entry] at included
      cases included
    | some m =>
      obtain ⟨c, rfl⟩ := get?_bareHierarchy entry
      rw [Hierarchy.Includes, Hierarchy.includesOf, entry] at included
      obtain ⟨used, in_list, rfl⟩ := List.mem_map.1 included
      revert used
      cases c <;> decide
  intro id circle
  obtain ⟨user, -, last⟩ := TransGen.tail'_iff.1 circle
  obtain ⟨used, first, -⟩ := TransGen.head'_iff.1 circle
  rw [Hierarchy.Includes, ends user id last] at first
  cases first

theorem startHierarchy_layered : startHierarchy.Layered := by
  rw [startHierarchy_eq]
  exact bareHierarchy_layered.of_links (Installation.size_install ..)
    (Installation.includesOf_install _ _ _) (Installation.isClass_install _ _ _)
    (Installation.superclass?_install _ _ _)

theorem Reachable.layered {m : Machine} (reachable : m.Reachable) : m.hierarchy.Layered :=
  reachable.hierarchy_induction Hierarchy.Layered startHierarchy_layered fun _ _ => Change.layered

/-- In every reachable machine what inherits is an order. No operation on its table takes a pair out
of it, nor does any step of the machine, nor any program. -/
theorem Reachable.inherits_order_grows {m : Machine} (reachable : m.Reachable) :
    m.hierarchy.Ordered ∧
    (∀ step interner, m.hierarchy.fits step = true →
      m.hierarchy.Preserves (HierarchyState.performOn m.hierarchy interner step).2) ∧
    (∀ m', Steps m m' → m'.hierarchy.Ordered ∧ m.hierarchy.Preserves m'.hierarchy) ∧
    ∀ program, (m.runProgram program).2.Reachable ∧
      m.hierarchy.Preserves (m.runProgram program).2.hierarchy := by
  have layered := reachable.layered
  have further : ∀ m', Steps m m' → m'.hierarchy.Ordered ∧ m.hierarchy.Preserves m'.hierarchy := by
    intro m' steps
    have later := (reachable.steps steps).layered
    exact ⟨later.ordered, layered.preserves later steps.widens⟩
  refine ⟨layered.ordered, ?_, further, ?_⟩
  · intro step interner fit
    exact layered.preserves (layered.performOn fit interner)
      (Hierarchy.widens_performOn m.hierarchy interner step)
  · intro program
    exact ⟨reachable.runProgram program, (further _ (reachable.steps_runProgram program)).2⟩

/-- `M` includes `Kernel`, and `D` below `C` includes `M`. -/
def mixing : Expr :=
  .seq (.prim (.openModule "M" .here) .nil)
    (.seq (.prim .includeModule (.cons (.constant "M") (.cons (.constant "Kernel") .nil)))
      (.seq (.prim (.openClass "C" false .here) .nil)
        (.seq (.prim (.openClass "D" true .here) (.cons (.constant "C") .nil))
          (.prim .includeModule (.cons (.constant "D") (.cons (.constant "M") .nil))))))

def mixed : Machine :=
  ((boot { Settings.standard with callDepthLimit := some 2 }).runProgram mixing).2

/-- The new module includes another one and is included, and opening it once more loses nothing. -/
theorem Reachable.inherits_order_grows_mixed :
    mixed.Reachable ∧ mixed.hierarchy.ancestors ⟨38⟩ =
      [⟨38⟩, ⟨36⟩, Core.kernel.id, ⟨37⟩, Core.object.id, Core.kernel.id, Core.basicObject.id] ∧
    mixed.hierarchy.inherits ⟨38⟩ Core.kernel.id = true ∧
    (mixed.runProgram mixing).2.hierarchy.inherits ⟨38⟩ Core.kernel.id = true := by
  have reachable : mixed.Reachable := .runProgram ⟨_, .refl⟩ mixing
  obtain ⟨ordered, -, -, programs⟩ := inherits_order_grows reachable
  -- One evaluation of the program for all that is read off the machine.
  have ⟨ancestors, present, present', first, second⟩ :
      mixed.hierarchy.ancestors ⟨38⟩ =
        [⟨38⟩, ⟨36⟩, Core.kernel.id, ⟨37⟩, Core.object.id, Core.kernel.id, Core.basicObject.id] ∧
      38 < mixed.hierarchy.size ∧ 36 < mixed.hierarchy.size ∧
      mixed.hierarchy.inherits ⟨38⟩ ⟨36⟩ = true ∧
      mixed.hierarchy.inherits ⟨36⟩ Core.kernel.id = true := by decide +kernel
  have above : mixed.hierarchy.inherits ⟨38⟩ Core.kernel.id = true :=
    ordered.trans ⟨38⟩ ⟨36⟩ _ present present' first second
  exact ⟨reachable, ancestors, above, (programs mixing).2 ⟨38⟩ _ present above⟩

end Machine

end ObjectRuntime
