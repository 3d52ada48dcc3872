import ObjectRuntime.Proofs.Hierarchy.Growth
import ObjectRuntime.Proofs.Hierarchy.Searches

/-!
# Ancestors after an include

An include adds one link to one module, and every class and module that reaches it has more
ancestors then. Wherever the target stands in a list of ancestors, what the new module expands to
comes in directly behind it, and nothing else changes. The expansion of the new module itself stays
as it was, because the target is not in it: such an include would close a cycle.
-/

set_option autoImplicit false

namespace ObjectRuntime.Hierarchy

/-- The path with a list put in directly behind each occurrence of the target. -/
def insertBehind (target : ModuleId) (added path : List ModuleId) : List ModuleId :=
  path.flatMap fun place => if place = target then place :: added else [place]

/-! ### Inserting -/

section Insert

variable {target place : ModuleId} {added more path : List ModuleId}

theorem insertBehind_append (first second : List ModuleId) :
    insertBehind target added (first ++ second) =
      insertBehind target added first ++ insertBehind target added second :=
  List.flatMap_append

theorem insertBehind_flatMap (expand : ModuleId → List ModuleId) :
    insertBehind target added (path.flatMap expand) =
      path.flatMap fun place => insertBehind target added (expand place) :=
  List.flatMap_assoc

theorem insertBehind_cons_self (path : List ModuleId) :
    insertBehind target added (target :: path) =
      target :: added ++ insertBehind target added path := by
  rw [insertBehind, List.flatMap_cons, if_pos rfl]
  rfl

theorem insertBehind_cons_of_ne (other : place ≠ target) (path : List ModuleId) :
    insertBehind target added (place :: path) = place :: insertBehind target added path := by
  rw [insertBehind, List.flatMap_cons, if_neg other]
  rfl

theorem insertBehind_of_not_mem (absent : target ∉ path) :
    insertBehind target added path = path := by
  induction path with
  | nil => rfl
  | cons place rest ih =>
    obtain ⟨other, absent⟩ := not_or.1 (List.mem_cons.not.1 absent)
    rw [insertBehind_cons_of_ne (Ne.symm other), ih absent]

theorem insertBehind_nil (path : List ModuleId) : insertBehind target [] path = path := by
  induction path with
  | nil => rfl
  | cons place rest ih =>
    by_cases same : place = target
    · subst same
      rw [insertBehind_cons_self, ih]
      rfl
    · rw [insertBehind_cons_of_ne same, ih]

theorem mem_insertBehind (mem : place ∈ path) : place ∈ insertBehind target added path := by
  refine List.mem_flatMap.2 ⟨place, mem, ?_⟩
  split
  next => exact List.mem_cons_self
  next => exact List.mem_singleton_self place

theorem insertBehind_insertBehind (absent : target ∉ added) :
    insertBehind target more (insertBehind target added path) =
      insertBehind target (more ++ added) path := by
  induction path with
  | nil => rfl
  | cons place rest ih =>
    by_cases same : place = target
    · subst same
      rw [insertBehind_cons_self, List.cons_append, insertBehind_cons_self, insertBehind_append,
        insertBehind_of_not_mem absent, ih, insertBehind_cons_self, List.cons_append,
        List.cons_append, List.append_assoc]
    · rw [insertBehind_cons_of_ne same, insertBehind_cons_of_ne same, insertBehind_cons_of_ne same,
        ih]

end Insert

/-! ### One include -/

variable {h after : Hierarchy} {target id x : ModuleId}

theorem not_mem_ancestors_of_includeModule (done : h.includeModule target id = .ok after) :
    target ∉ h.ancestors id := by
  unfold includeModule at done
  split at done
  next => cases done
  next =>
    split at done
    next => cases done
    next checked => exact fun mem => checked (.inr mem)

theorem mem_ancestors_of_mem_expand (mem : x ∈ h.expand id) : x ∈ h.ancestors id :=
  List.mem_flatMap.2 ⟨id, h.self_mem_superclasses id, mem⟩

/-- The new module does not lead to the module that includes it. -/
theorem not_mem_expand_of_includeModule (done : h.includeModule target id = .ok after) :
    target ∉ h.expand id :=
  fun mem => not_mem_ancestors_of_includeModule done (mem_ancestors_of_mem_expand mem)

theorem superclasses_includeModule (done : h.includeModule target id = .ok after) (x : ModuleId) :
    after.superclasses x = h.superclasses x := by
  have links : after.superclass? = h.superclass? := funext (superclass?_includeModule done)
  rw [superclasses, superclasses, links]

theorem includesOf_includeModule (done : h.includeModule target id = .ok after)
    (in_range : target.index < h.size) (user : ModuleId) :
    after.includesOf user =
      if target = user then id :: h.includesOf user else h.includesOf user := by
  obtain ⟨-, rfl⟩ := includeModule_eq_ok done
  exact includesOf_withInclude in_range id user

/-- The induction is along the includes of the new table, since the new one is among them. -/
theorem Layered.expand_includeModule (layered : h.Layered) (in_range : target.index < h.size)
    (present : id.index < h.size) (done : h.includeModule target id = .ok after)
    (x_present : x.index < h.size) :
    after.expand x = insertBehind target (h.expand id) (h.expand x) := by
  have after_nested := (layered.includeModule present done).nested
  have size := size_includeModule done
  refine after_nested.includes_induction (motive := fun x =>
    after.expand x = insertBehind target (h.expand id) (h.expand x)) ?_ (size.symm ▸ x_present)
  intro user user_present ih
  have below : (after.includesOf user).flatMap after.expand =
      (after.includesOf user).flatMap fun other =>
        insertBehind target (h.expand id) (h.expand other) :=
    List.flatMap_congr ih
  have before : h.expand user = user :: (h.includesOf user).flatMap h.expand :=
    layered.nested.expand_eq (size ▸ user_present)
  rw [after_nested.expand_eq user_present, before, below,
    includesOf_includeModule done in_range user]
  by_cases same : target = user
  · subst same
    rw [if_pos rfl, insertBehind_cons_self, insertBehind_flatMap, List.flatMap_cons,
      insertBehind_of_not_mem (not_mem_expand_of_includeModule done), List.cons_append]
  · rw [if_neg same, insertBehind_cons_of_ne (Ne.symm same), insertBehind_flatMap]

/-! ### One include after the other -/

/-- The modules of the list are included, the last one first, and none of them is refused. -/
def includeEach (h : Hierarchy) (target : ModuleId) (modules : List ModuleId) :
    Except IncludeError Hierarchy :=
  modules.foldrM (fun id h => h.includeModule target id) h

structure Inserted (h : Hierarchy) (target : ModuleId) (modules : List ModuleId)
    (after : Hierarchy) : Prop where
  layered : after.Layered
  size : after.size = h.size
  superclasses : ∀ x, after.superclasses x = h.superclasses x
  includesOf : ∀ x, after.includesOf x =
    if target = x then modules ++ h.includesOf x else h.includesOf x
  apart : ∀ id ∈ modules, target ∉ h.expand id
  expand : ∀ x, x.index < h.size →
    after.expand x = insertBehind target (modules.flatMap h.expand) (h.expand x)

theorem Layered.inserted_nil (layered : h.Layered) (target : ModuleId) :
    h.Inserted target [] h := by
  refine ⟨layered, rfl, fun _ => rfl, fun _ => (ite_self _).symm, nofun, ?_⟩
  exact fun x _ => (insertBehind_nil (h.expand x)).symm

theorem Inserted.cons {later : Hierarchy} {modules : List ModuleId}
    (inserted : h.Inserted target modules after) (in_range : target.index < h.size)
    (present : id.index < h.size) (done : after.includeModule target id = .ok later) :
    h.Inserted target (id :: modules) later := by
  have size := inserted.size
  -- The expansion of the new module does not depend on what the target already includes.
  have apart : target ∉ h.expand id := by
    intro mem
    refine not_mem_expand_of_includeModule done ?_
    rw [inserted.expand id present]
    exact mem_insertBehind mem
  have same : after.expand id = h.expand id := by
    rw [inserted.expand id present, insertBehind_of_not_mem apart]
  have all_apart : ∀ other ∈ id :: modules, target ∉ h.expand other :=
    List.forall_mem_cons.2 ⟨apart, inserted.apart⟩
  refine ⟨inserted.layered.includeModule (size ▸ present) done,
    (size_includeModule done).trans size, ?_, ?_, all_apart, ?_⟩
  · exact fun x => (superclasses_includeModule done x).trans (inserted.superclasses x)
  · intro x
    rw [includesOf_includeModule done (size ▸ in_range) x, inserted.includesOf x]
    split <;> rfl
  · intro x x_present
    have absent : target ∉ modules.flatMap h.expand := by
      intro mem
      obtain ⟨other, listed, below⟩ := List.mem_flatMap.1 mem
      exact inserted.apart other listed below
    rw [inserted.layered.expand_includeModule (size ▸ in_range) (size ▸ present) done
      (size ▸ x_present), inserted.expand x x_present, same, insertBehind_insertBehind absent]
    rfl

theorem Layered.includeEach (layered : h.Layered) (in_range : target.index < h.size)
    {modules : List ModuleId} (present : ∀ id ∈ modules, id.index < h.size)
    (done : h.includeEach target modules = .ok after) : h.Inserted target modules after := by
  induction modules generalizing after with
  | nil =>
    obtain rfl := Except.ok.inj done
    exact layered.inserted_nil target
  | cons id rest ih =>
    rw [Hierarchy.includeEach, List.foldrM_cons] at done
    cases earlier : rest.foldrM (fun id h => h.includeModule target id) h with
    | error e =>
      rw [earlier] at done
      cases done
    | ok middle =>
      rw [earlier] at done
      exact (ih (fun id mem => present id (List.mem_cons_of_mem _ mem)) earlier).cons in_range
        (present id List.mem_cons_self) done

theorem Inserted.ancestors {modules : List ModuleId} (inserted : h.Inserted target modules after)
    (x_present : x.index < h.size) :
    after.ancestors x = insertBehind target (modules.flatMap h.expand) (h.ancestors x) := by
  rw [Hierarchy.ancestors, Hierarchy.ancestors, inserted.superclasses, insertBehind_flatMap]
  refine List.flatMap_congr ?_
  intro cls mem
  refine inserted.expand cls ?_
  obtain rfl | ⟨lower, -⟩ := mem_superclasses mem
  · exact x_present
  · omega

end ObjectRuntime.Hierarchy
