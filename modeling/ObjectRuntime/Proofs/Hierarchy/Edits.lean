import ObjectRuntime.Hierarchy.Basic

/-!
# Edits of the hierarchy

What each edit does to the tables, to the includes and to the links upward. An entry of an edited
table is the new one or was there before.
-/

set_option autoImplicit false

namespace ObjectRuntime.Hierarchy

variable {h : Hierarchy} {id owner : ModuleId} {name : String} {method found : Method}

theorem get?_modify (h : Hierarchy) (id other : ModuleId) (f : Module → Module) :
    (h.modify id f).get? other = if id = other then (h.get? other).map f else h.get? other := by
  cases id with | mk i => cases other with | mk j =>
    simp [get?, modify, Array.getElem?_modify]

theorem get?_create (h : Hierarchy) (m : Module) (id : ModuleId) :
    (h.create m).get? id = if id = h.next then some m else h.get? id := by
  cases id with | mk i =>
    simp [get?, create, next, size, Array.getElem?_push]

theorem get?_next (h : Hierarchy) : h.get? h.next = none := Array.getElem?_eq_none (Nat.le_refl _)

theorem index_lt_of_get? {m : Module} (entry : h.get? id = some m) : id.index < h.size := by
  obtain ⟨lt, -⟩ := Array.getElem?_eq_some_iff.1 entry
  exact lt

theorem includesOf_of_get? {m : Module} (entry : h.get? id = some m) :
    h.includesOf id = m.includes := by
  rw [includesOf, entry]
  rfl

theorem superclass?_of_get? {m : Module} (entry : h.get? id = some m) :
    h.superclass? id = m.superclass := by
  rw [superclass?, entry]
  rfl

@[simp] theorem size_modify (h : Hierarchy) (id : ModuleId) (f : Module → Module) :
    (h.modify id f).size = h.size := Array.size_modify

@[simp] theorem size_create (h : Hierarchy) (m : Module) : (h.create m).size = h.size + 1 :=
  Array.size_push m

/-! ### A field that an edit of one module leaves alone -/

theorem bind_get?_modify {α : Type} (h : Hierarchy) (id other : ModuleId) (f : Module → Module)
    (field : Module → Option α) (same : ∀ m, field (f m) = field m) :
    ((h.modify id f).get? other).bind field = (h.get? other).bind field := by
  rw [get?_modify]
  split
  · cases h.get? other with
    | none => rfl
    | some m => exact same m
  · rfl

theorem map_get?_modify {α : Type} (h : Hierarchy) (id other : ModuleId) (f : Module → Module)
    (field : Module → α) (same : ∀ m, field (f m) = field m) :
    ((h.modify id f).get? other).map field = (h.get? other).map field := by
  rw [get?_modify]
  split
  · cases h.get? other with
    | none => rfl
    | some m => exact congrArg some (same m)
  · rfl

theorem superclass?_modify (h : Hierarchy) (id other : ModuleId) (f : Module → Module)
    (same : ∀ m, (f m).superclass = m.superclass) :
    (h.modify id f).superclass? other = h.superclass? other :=
  bind_get?_modify h id other f (·.superclass) same

theorem isClass_modify (h : Hierarchy) (id other : ModuleId) (f : Module → Module)
    (same : ∀ m, (f m).kind = m.kind) : (h.modify id f).isClass other = h.isClass other := by
  have kinds := map_get?_modify h id other f Module.isClass fun m => by
    rw [Module.isClass, Module.isClass, same]
  rw [isClass, isClass, kinds]

theorem includesOf_modify (h : Hierarchy) (id other : ModuleId) (f : Module → Module)
    (same : ∀ m, (f m).includes = m.includes) :
    (h.modify id f).includesOf other = h.includesOf other := by
  have lists := map_get?_modify h id other f (·.includes) same
  rw [includesOf, includesOf, lists]

theorem ownMethod?_modify (h : Hierarchy) (id other : ModuleId) (f : Module → Module)
    (name : String) (same : ∀ m, (f m).methods = m.methods) :
    (h.modify id f).ownMethod? other name = h.ownMethod? other name :=
  bind_get?_modify h id other f (·.methods.get? name) fun m => by rw [same]

theorem ownClassMethod?_modify (h : Hierarchy) (id other : ModuleId) (f : Module → Module)
    (name : String) (same : ∀ m, (f m).classMethods = m.classMethods) :
    (h.modify id f).ownClassMethod? other name = h.ownClassMethod? other name :=
  bind_get?_modify h id other f (·.classMethods.get? name) fun m => by rw [same]

/-! ### What an edit of a table leaves alone -/

section Tables

variable (h : Hierarchy) (owner id : ModuleId) (method : Method) (name other : String)

@[simp] theorem size_defineMethod : (h.defineMethod owner method).size = h.size := size_modify ..

@[simp] theorem size_defineClassMethod : (h.defineClassMethod owner method).size = h.size :=
  size_modify ..

@[simp] theorem size_removeMethod : (h.removeMethod owner name).size = h.size := size_modify ..

@[simp] theorem superclass?_defineMethod :
    (h.defineMethod owner method).superclass? id = h.superclass? id :=
  superclass?_modify _ _ _ _ fun _ => rfl

@[simp] theorem superclass?_defineClassMethod :
    (h.defineClassMethod owner method).superclass? id = h.superclass? id :=
  superclass?_modify _ _ _ _ fun _ => rfl

@[simp] theorem superclass?_removeMethod :
    (h.removeMethod owner name).superclass? id = h.superclass? id :=
  superclass?_modify _ _ _ _ fun _ => rfl

@[simp] theorem isClass_defineMethod : (h.defineMethod owner method).isClass id = h.isClass id :=
  isClass_modify _ _ _ _ fun _ => rfl

@[simp] theorem isClass_defineClassMethod :
    (h.defineClassMethod owner method).isClass id = h.isClass id :=
  isClass_modify _ _ _ _ fun _ => rfl

@[simp] theorem isClass_removeMethod : (h.removeMethod owner name).isClass id = h.isClass id :=
  isClass_modify _ _ _ _ fun _ => rfl

@[simp] theorem includesOf_defineMethod :
    (h.defineMethod owner method).includesOf id = h.includesOf id :=
  includesOf_modify _ _ _ _ fun _ => rfl

@[simp] theorem includesOf_defineClassMethod :
    (h.defineClassMethod owner method).includesOf id = h.includesOf id :=
  includesOf_modify _ _ _ _ fun _ => rfl

@[simp] theorem includesOf_removeMethod :
    (h.removeMethod owner name).includesOf id = h.includesOf id :=
  includesOf_modify _ _ _ _ fun _ => rfl

@[simp] theorem ownMethod?_defineClassMethod :
    (h.defineClassMethod owner method).ownMethod? id name = h.ownMethod? id name :=
  ownMethod?_modify _ _ _ _ _ fun _ => rfl

@[simp] theorem ownClassMethod?_defineMethod :
    (h.defineMethod owner method).ownClassMethod? id name = h.ownClassMethod? id name :=
  ownClassMethod?_modify _ _ _ _ _ fun _ => rfl

@[simp] theorem ownClassMethod?_removeMethod :
    (h.removeMethod owner other).ownClassMethod? id name = h.ownClassMethod? id name :=
  ownClassMethod?_modify _ _ _ _ _ fun _ => rfl

end Tables

/-! ### Entries after an edit -/

/-- Whichever table of its owner a method is entered in, an entry of that table is the new one or
was there before. -/
theorem entry_insert {table : Module → Bindings Method} {f : Module → Module}
    (inserts : ∀ m, table (f m) = (table m).insert method.name method)
    (own : (((h.modify owner f).get? id).bind fun m => (table m).get? name) = some found) :
    (id = owner ∧ name = method.name ∧ found = method) ∨
      ((h.get? id).bind fun m => (table m).get? name) = some found := by
  obtain ⟨m, entry, own⟩ := Option.bind_eq_some_iff.1 own
  rw [get?_modify] at entry
  split at entry
  next same =>
    obtain ⟨before, at_owner, rfl⟩ := Option.map_eq_some_iff.1 entry
    rw [inserts, Bindings.get?_insert] at own
    split at own
    next named => exact .inl ⟨same.symm, named.symm, (Option.some.inj own).symm⟩
    next => exact .inr (Option.bind_eq_some_iff.2 ⟨before, at_owner, own⟩)
  next => exact .inr (Option.bind_eq_some_iff.2 ⟨m, entry, own⟩)

theorem ownMethod?_defineMethod
    (own : (h.defineMethod owner method).ownMethod? id name = some found) :
    (id = owner ∧ name = method.name ∧ found = method) ∨ h.ownMethod? id name = some found :=
  entry_insert (fun _ => rfl) own

theorem ownClassMethod?_defineClassMethod
    (own : (h.defineClassMethod owner method).ownClassMethod? id name = some found) :
    (id = owner ∧ name = method.name ∧ found = method) ∨
      h.ownClassMethod? id name = some found :=
  entry_insert (fun _ => rfl) own

theorem ownMethod?_removeMethod {other : String}
    (own : (h.removeMethod owner other).ownMethod? id name = some found) :
    h.ownMethod? id name = some found := by
  obtain ⟨m, entry, own⟩ := Option.bind_eq_some_iff.1 own
  rw [removeMethod, get?_modify] at entry
  split at entry
  next =>
    obtain ⟨before, at_owner, rfl⟩ := Option.map_eq_some_iff.1 entry
    rw [Bindings.get?_erase] at own
    split at own
    next => cases own
    next => exact Option.bind_eq_some_iff.2 ⟨before, at_owner, own⟩
  next => exact Option.bind_eq_some_iff.2 ⟨m, entry, own⟩

theorem entry_create {table : Module → Bindings Method} {m : Module} (empty : table m = .empty)
    (own : (((h.create m).get? id).bind fun m => (table m).get? name) = some found) :
    ((h.get? id).bind fun m => (table m).get? name) = some found := by
  obtain ⟨entry, at_id, own⟩ := Option.bind_eq_some_iff.1 own
  rw [get?_create] at at_id
  split at at_id
  next =>
    obtain rfl := Option.some.inj at_id
    rw [empty, Bindings.get?_empty] at own
    cases own
  next => exact Option.bind_eq_some_iff.2 ⟨entry, at_id, own⟩

theorem ownMethod?_create {m : Module} (empty : m.methods = .empty)
    (own : (h.create m).ownMethod? id name = some found) : h.ownMethod? id name = some found :=
  entry_create empty own

theorem ownClassMethod?_create {m : Module} (empty : m.classMethods = .empty)
    (own : (h.create m).ownClassMethod? id name = some found) :
    h.ownClassMethod? id name = some found :=
  entry_create empty own

/-- An include that is not refused puts a module in front of the includes of its target. -/
theorem includeModule_eq_ok {target : ModuleId} {after : Hierarchy}
    (done : h.includeModule target id = .ok after) :
    h.isClass id = false ∧
      after = h.modify target fun m => { m with includes := id :: m.includes } := by
  rw [includeModule] at done
  split at done
  next => cases done
  next not_class =>
    split at done
    next => cases done
    next => exact ⟨by simpa using not_class, (Except.ok.inj done).symm⟩

section Include

variable {target : ModuleId} {after : Hierarchy}

theorem ownMethod?_includeModule (done : h.includeModule target id = .ok after) (other : ModuleId)
    (name : String) : after.ownMethod? other name = h.ownMethod? other name := by
  obtain ⟨-, rfl⟩ := includeModule_eq_ok done
  exact ownMethod?_modify h target other _ name fun _ => rfl

theorem ownClassMethod?_includeModule (done : h.includeModule target id = .ok after)
    (other : ModuleId) (name : String) :
    after.ownClassMethod? other name = h.ownClassMethod? other name := by
  obtain ⟨-, rfl⟩ := includeModule_eq_ok done
  exact ownClassMethod?_modify h target other _ name fun _ => rfl

theorem superclass?_includeModule (done : h.includeModule target id = .ok after)
    (other : ModuleId) : after.superclass? other = h.superclass? other := by
  obtain ⟨-, rfl⟩ := includeModule_eq_ok done
  exact superclass?_modify h target other _ fun _ => rfl

theorem isClass_includeModule (done : h.includeModule target id = .ok after) (other : ModuleId) :
    after.isClass other = h.isClass other := by
  obtain ⟨-, rfl⟩ := includeModule_eq_ok done
  exact isClass_modify h target other _ fun _ => rfl

theorem size_includeModule (done : h.includeModule target id = .ok after) :
    after.size = h.size := by
  obtain ⟨-, rfl⟩ := includeModule_eq_ok done
  exact size_modify ..

/-- Behind the end of the table there is no entry that could get an include. -/
theorem includesOf_cons (h : Hierarchy) (target id user : ModuleId) :
    (h.modify target fun m => { m with includes := id :: m.includes }).includesOf user =
      if target = user ∧ target.index < h.size then id :: h.includesOf user
      else h.includesOf user := by
  rw [includesOf, get?_modify]
  by_cases same : target = user
  · subst same
    by_cases in_range : target.index < h.size
    · have entry : h.get? target = some h.modules[target.index] :=
        Array.getElem?_eq_getElem in_range
      rw [if_pos rfl, if_pos ⟨rfl, in_range⟩, includesOf_of_get? entry, entry]
      rfl
    · have nothing : h.get? target = none := Array.getElem?_eq_none (Nat.le_of_not_lt in_range)
      rw [if_pos rfl, if_neg fun both => in_range both.2, includesOf, nothing]
      rfl
  · rw [if_neg same, if_neg fun both => same both.1, includesOf]

theorem mem_includesOf_includeModule (done : h.includeModule target id = .ok after)
    {other : ModuleId} (mem : other ∈ after.includesOf owner) :
    h.isClass other = false ∧ other = id ∨ other ∈ h.includesOf owner := by
  obtain ⟨not_class, rfl⟩ := includeModule_eq_ok done
  rw [includesOf_cons] at mem
  split at mem
  next =>
    obtain rfl | kept := List.mem_cons.1 mem
    · exact .inl ⟨not_class, rfl⟩
    · exact .inr kept
  next => exact .inr mem

end Include

theorem includesOf_create {m : Module} (no_includes : m.includes = []) :
    (h.create m).includesOf id = h.includesOf id := by
  rw [includesOf, get?_create]
  split
  next new =>
    subst new
    rw [Option.map_some, Option.getD_some, no_includes, includesOf, get?_next]
    rfl
  next => rfl

theorem isClass_create_of_ne (m : Module) (other : id ≠ h.next) :
    (h.create m).isClass id = h.isClass id := by
  rw [isClass, get?_create, if_neg other, isClass]

end ObjectRuntime.Hierarchy
