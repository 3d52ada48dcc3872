import ObjectRuntime.Proofs.Hierarchy.Inherits

/-!
# What an edit of a method table reaches

An edit of one table shows in the searches that come to that table: those of the same name from
where the module stands among the ancestors with no entry for the name before its first place. A
placeholder takes part in the search like any other entry. No other search ends differently, since
edits leave the ancestors as they are.
-/

set_option autoImplicit false

namespace ObjectRuntime

namespace Hierarchy

/-- A search along the path comes to the owner: nothing is found before its first place. -/
def Unhidden (entry : ModuleId → Option Method) (owner : ModuleId) (path : List ModuleId) : Prop :=
  ∃ before after, path = before ++ owner :: after ∧ owner ∉ before ∧ ∀ id ∈ before, entry id = none

def Reaches (h : Hierarchy) (cls owner : ModuleId) (name : String) : Prop :=
  Unhidden (h.ownMethod? · name) owner (h.ancestors cls)

def Keyed (h : Hierarchy) : Prop :=
  ∀ id name method, h.ownMethod? id name = some method → method.name = name

/-- Every way to look the name up ends alike in both tables. -/
structure SameLookups (h after : Hierarchy) (name : String) : Prop where
  search : ∀ table id, after.search table id name = h.search table id name
  findMethodAfter : ∀ cls owner recorded,
    after.findMethodAfter cls owner name recorded = h.findMethodAfter cls owner name recorded
  findClassMethodAfter : ∀ id owner,
    after.findClassMethodAfter id owner name = h.findClassMethodAfter id owner name

variable {h after : Hierarchy} {id cls owner : ModuleId} {name : String} {method : Method}

/-! ### Searches along a path -/

section Path

variable {entry entry' : ModuleId → Option Method} {path : List ModuleId}

theorem unhidden_self (entry : ModuleId → Option Method) (owner : ModuleId)
    (path : List ModuleId) : Unhidden entry owner (owner :: path) :=
  ⟨[], path, rfl, List.not_mem_nil, nofun⟩

theorem unhidden_cons_of_ne (other : id ≠ owner) :
    Unhidden entry owner (id :: path) ↔ entry id = none ∧ Unhidden entry owner path := by
  constructor
  · rintro ⟨before, after, split, absent, clear⟩
    cases before with
    | nil => exact (other (List.cons.inj split).1).elim
    | cons first before =>
      obtain ⟨rfl, rest⟩ := List.cons.inj split
      rw [List.mem_cons, not_or] at absent
      obtain ⟨first_clear, rest_clear⟩ := List.forall_mem_cons.1 clear
      exact ⟨first_clear, before, after, rest, absent.2, rest_clear⟩
  · rintro ⟨first_clear, before, after, rfl, absent, rest_clear⟩
    refine ⟨id :: before, after, rfl, ?_, List.forall_mem_cons.2 ⟨first_clear, rest_clear⟩⟩
    rw [List.mem_cons, not_or]
    exact ⟨Ne.symm other, absent⟩

theorem findSome?_of_unhidden (same : ∀ id, id ≠ owner → entry' id = entry id)
    (new : entry' owner = some method) (unhidden : Unhidden entry owner path) :
    path.findSome? entry' = some method := by
  induction path with
  | nil =>
    obtain ⟨before, after, split, -⟩ := unhidden
    exact (List.append_ne_nil_of_right_ne_nil before (List.cons_ne_nil _ _) split.symm).elim
  | cons id rest ih =>
    by_cases other : id = owner
    · rw [List.findSome?_cons, other, new]
    · obtain ⟨clear, below⟩ := (unhidden_cons_of_ne other).1 unhidden
      rw [List.findSome?_cons, same id other, clear]
      exact ih below

theorem findSome?_of_hidden (same : ∀ id, id ≠ owner → entry' id = entry id)
    (hidden : ¬ Unhidden entry owner path) : path.findSome? entry' = path.findSome? entry := by
  induction path with
  | nil => rfl
  | cons id rest ih =>
    by_cases other : id = owner
    · subst other
      exact (hidden (unhidden_self entry id rest)).elim
    · rw [unhidden_cons_of_ne other, not_and] at hidden
      rw [List.findSome?_cons, List.findSome?_cons, same id other]
      cases first : entry id with
      | some found => rfl
      | none => exact ih (hidden first)

end Path

/-! ### The tables after an edit -/

theorem ownMethod?_defineMethod_self (in_range : owner.index < h.size) (method : Method) :
    (h.defineMethod owner method).ownMethod? owner method.name = some method := by
  obtain ⟨m, entry⟩ := get?_isSome in_range
  rw [ownMethod?, defineMethod, get?_modify, if_pos rfl, entry, Option.map_some, Option.bind_some,
    Bindings.get?_insert_self]

theorem ownMethod?_defineMethod_of_ne (h : Hierarchy) (apart : id = owner → name ≠ method.name) :
    (h.defineMethod owner method).ownMethod? id name = h.ownMethod? id name := by
  rw [ownMethod?, defineMethod, get?_modify]
  split
  next same =>
    rw [ownMethod?]
    cases h.get? id with
    | none => rfl
    | some m => exact Bindings.get?_insert_of_ne _ _ (apart same.symm).symm
  next => rfl

theorem ownMethod?_removeMethod_self (h : Hierarchy) (owner : ModuleId) (name : String) :
    (h.removeMethod owner name).ownMethod? owner name = none := by
  rw [ownMethod?, removeMethod, get?_modify, if_pos rfl]
  cases h.get? owner with
  | none => rfl
  | some m => exact (Bindings.get?_erase m.methods name name).trans (if_pos rfl)

theorem ownMethod?_removeMethod_of_ne (h : Hierarchy) {removed : String}
    (apart : id = owner → name ≠ removed) :
    (h.removeMethod owner removed).ownMethod? id name = h.ownMethod? id name := by
  rw [ownMethod?, removeMethod, get?_modify]
  split
  next same =>
    rw [ownMethod?]
    cases h.get? id with
    | none => rfl
    | some m =>
      exact (Bindings.get?_erase m.methods removed name).trans (if_neg (apart same.symm).symm)
  next => rfl

/-- What is defined and removed again leaves the table as it was, if it had no entry before. -/
theorem ownMethod?_remove_define (absent : h.ownMethod? owner method.name = none) (id : ModuleId)
    (name : String) :
    ((h.defineMethod owner method).removeMethod owner method.name).ownMethod? id name =
      h.ownMethod? id name := by
  by_cases there : id = owner ∧ name = method.name
  · obtain ⟨rfl, rfl⟩ := there
    rw [ownMethod?_removeMethod_self, absent]
  · have apart : id = owner → name ≠ method.name := not_and.1 there
    rw [ownMethod?_removeMethod_of_ne _ apart, ownMethod?_defineMethod_of_ne h apart]

/-! ### Edits leave the ancestors alone -/

theorem SameLinks.trans {later : Hierarchy} (first : h.SameLinks after)
    (second : after.SameLinks later) : h.SameLinks later :=
  ⟨second.size.trans first.size, fun id => (second.superclass? id).trans (first.superclass? id),
    fun id => (second.isClass id).trans (first.isClass id),
    fun id => (second.includesOf id).trans (first.includesOf id)⟩

theorem SameLinks.superclasses (same : h.SameLinks after) (id : ModuleId) :
    after.superclasses id = h.superclasses id := by
  rw [Hierarchy.superclasses, Hierarchy.superclasses, funext same.superclass?]

theorem SameLinks.expandTo (same : h.SameLinks after) (depth : Nat) (id : ModuleId) :
    after.expandTo depth id = h.expandTo depth id := by
  induction depth generalizing id with
  | zero => rfl
  | succ depth ih =>
    rw [Hierarchy.expandTo, Hierarchy.expandTo, same.includesOf, funext ih]

theorem SameLinks.ancestors (same : h.SameLinks after) (id : ModuleId) :
    after.ancestors id = h.ancestors id := by
  have expansions : after.expand = h.expand := by
    funext id
    rw [Hierarchy.expand, Hierarchy.expand, same.size, same.expandTo]
  rw [Hierarchy.ancestors, Hierarchy.ancestors, same.superclasses, expansions]

theorem firstEntry_congr (same : ∀ id, after.ownMethod? id name = h.ownMethod? id name)
    (place : Nat) (path : List ModuleId) :
    after.firstEntry name place path = h.firstEntry name place path := by
  induction path generalizing place with
  | nil => rfl
  | cons id rest ih => rw [firstEntry, firstEntry, same, ih]

theorem SameLinks.sameLookups (links : h.SameLinks after)
    (own : ∀ id, after.ownMethod? id name = h.ownMethod? id name)
    (classLevel : ∀ id, after.ownClassMethod? id name = h.ownClassMethod? id name) :
    h.SameLookups after name := by
  have own_eq : (after.ownMethod? · name) = (h.ownMethod? · name) := funext own
  have class_eq : (after.ownClassMethod? · name) = (h.ownClassMethod? · name) := funext classLevel
  refine ⟨?_, ?_, ?_⟩
  · intro table id
    cases table with
    | instanceMethod =>
      change after.findMethod id name = h.findMethod id name
      rw [findMethod_eq, findMethod_eq, links.ancestors, own_eq]
    | ownInstanceMethod => exact own id
    | classMethod =>
      change after.findClassMethod id name = h.findClassMethod id name
      rw [findClassMethod, findClassMethod, links.superclasses, class_eq]
    | ownClassMethod => exact classLevel id
  · intro cls owner recorded
    simp only [findMethodAfter, links.ancestors, firstEntry_congr own]
  · intro id owner
    rw [findClassMethodAfter, findClassMethodAfter, links.superclasses, class_eq]

theorem sameLookups_defineMethod (h : Hierarchy) (owner : ModuleId) (other : name ≠ method.name) :
    h.SameLookups (h.defineMethod owner method) name :=
  (sameLinks_defineMethod h owner method).sameLookups
    (fun _ => ownMethod?_defineMethod_of_ne h fun _ => other)
    (fun _ => ownClassMethod?_defineMethod ..)

theorem sameLookups_removeMethod (h : Hierarchy) (owner : ModuleId) {removed : String}
    (other : name ≠ removed) : h.SameLookups (h.removeMethod owner removed) name :=
  (sameLinks_removeMethod h owner removed).sameLookups
    (fun _ => ownMethod?_removeMethod_of_ne h fun _ => other)
    (fun _ => ownClassMethod?_removeMethod ..)

theorem sameLookups_remove_define (method : Method)
    (absent : h.ownMethod? owner method.name = none) (name : String) :
    h.SameLookups ((h.defineMethod owner method).removeMethod owner method.name) name :=
  ((sameLinks_defineMethod h owner method).trans (sameLinks_removeMethod _ _ _)).sameLookups
    (fun id => ownMethod?_remove_define absent id name)
    (fun _ => (ownClassMethod?_removeMethod ..).trans (ownClassMethod?_defineMethod ..))

/-! ### Which searches see the edit -/

theorem findMethod_defineMethod_of_reaches (method : Method) (in_range : owner.index < h.size)
    (reaches : h.Reaches cls owner method.name) :
    (h.defineMethod owner method).findMethod cls method.name = some method := by
  rw [findMethod_eq, (sameLinks_defineMethod h owner method).ancestors]
  refine findSome?_of_unhidden ?_ (ownMethod?_defineMethod_self in_range method) reaches
  exact fun id other => ownMethod?_defineMethod_of_ne h fun same => (other same).elim

theorem findMethod_defineMethod_of_not_reaches (method : Method)
    (hidden : ¬ h.Reaches cls owner method.name) :
    (h.defineMethod owner method).findMethod cls method.name = h.findMethod cls method.name := by
  rw [findMethod_eq, findMethod_eq, (sameLinks_defineMethod h owner method).ancestors]
  refine findSome?_of_hidden ?_ hidden
  exact fun id other => ownMethod?_defineMethod_of_ne h fun same => (other same).elim

theorem Reaches.mem_ancestors (reaches : h.Reaches cls owner name) : owner ∈ h.ancestors cls := by
  obtain ⟨before, after, split, -⟩ := reaches
  rw [split]
  exact List.mem_append_right before List.mem_cons_self

theorem reaches_self (in_range : owner.index < h.size) (name : String) :
    h.Reaches owner owner name := by
  obtain ⟨rest, ancestors⟩ : ∃ rest, h.ancestors owner = owner :: rest := by
    obtain ⟨depth, size⟩ : ∃ depth, h.size = depth + 1 := ⟨h.size - 1, by omega⟩
    rw [Hierarchy.ancestors, Hierarchy.superclasses, chain_eq, List.flatMap_cons,
      Hierarchy.expand, size, Hierarchy.expandTo]
    exact ⟨_, rfl⟩
  rw [Reaches, ancestors]
  exact unhidden_self _ owner rest

/-! ### Entries stand under their names -/

theorem keyed_empty : empty.Keyed := by
  intro id name method own
  simp [ownMethod?, get?, empty] at own

theorem Keyed.defineMethod (keyed : h.Keyed) (owner : ModuleId) (method : Method) :
    (h.defineMethod owner method).Keyed := by
  intro id name found own
  obtain ⟨-, rfl, rfl⟩ | before := ownMethod?_defineMethod own
  · rfl
  · exact keyed id name found before

theorem Keyed.of_own (keyed : h.Keyed)
    (own : ∀ id name method, after.ownMethod? id name = some method →
      h.ownMethod? id name = some method) : after.Keyed :=
  fun id name method entry => keyed id name method (own id name method entry)

theorem Keyed.removeMethod (keyed : h.Keyed) (owner : ModuleId) (name : String) :
    (h.removeMethod owner name).Keyed :=
  keyed.of_own fun _ _ _ => ownMethod?_removeMethod

theorem Keyed.includeModule {target : ModuleId} (keyed : h.Keyed)
    (done : h.includeModule target id = .ok after) : after.Keyed :=
  keyed.of_own fun other name _ own => (ownMethod?_includeModule done other name).symm.trans own

theorem Keyed.defineClassMethod (keyed : h.Keyed) (owner : ModuleId) (method : Method) :
    (h.defineClassMethod owner method).Keyed :=
  keyed.of_own fun _ _ _ own => (ownMethod?_defineClassMethod ..).symm.trans own

theorem Keyed.create (keyed : h.Keyed) {m : Module} (no_methods : m.methods = .empty) :
    (h.create m).Keyed :=
  keyed.of_own fun _ _ _ => ownMethod?_create no_methods

theorem Made.keyed (made : h.Made) : h.Keyed := by
  induction made with
  | empty => exact keyed_empty
  | create _ m _ _ _ no_methods _ ih => exact ih.create no_methods
  | includeModule _ target id _ _ done ih => exact ih.includeModule done
  | defineMethod _ owner method _ ih => exact ih.defineMethod owner method
  | defineClassMethod _ owner method _ ih => exact ih.defineClassMethod owner method
  | removeMethod _ owner name ih => exact ih.removeMethod owner name

end Hierarchy

theorem Change.keyed {P : Expr → Prop} {m m' : Machine} (change : Change P m m')
    (keyed : m.hierarchy.Keyed) : m'.hierarchy.Keyed := by
  cases change with
  | make | edit | singleton | frame | observe => exact keyed
  | define method => exact keyed.defineMethod method.owner (m.stamped method)
  | retag owner name visibility method => exact keyed.defineMethod owner _
  | defineClassMethod method => exact keyed.defineClassMethod method.owner _
  | remove owner name => exact keyed.removeMethod owner name
  | includeModule target id after present done => exact keyed.includeModule done
  | create => exact keyed.create rfl

theorem Machine.Reachable.keyed {m : Machine} (reachable : m.Reachable) : m.hierarchy.Keyed := by
  refine reachable.hierarchy_induction Hierarchy.Keyed ?_ fun _ _ => Change.keyed
  intro id name method own
  obtain ⟨i, -, number, -, -, rfl, rfl⟩ := Machine.ownMethod?_startHierarchy own
  rfl

end ObjectRuntime
