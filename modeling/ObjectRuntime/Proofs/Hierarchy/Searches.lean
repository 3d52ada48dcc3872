import ObjectRuntime.Proofs.Hierarchy.Includes
import ObjectRuntime.Proofs.Hierarchy.SuperChain

/-!
# Searches with no memory of where they have been

The searches once more, reading the table at every module they come to. A search that is allowed a
depth has no result if it goes deeper or if it reads behind the end of the table; so it has none at
any depth if it goes on for ever. In the tables that edits make, each search has a result from every
module, the one of the bounded search, and the number of modules is depth enough.
-/

set_option autoImplicit false

namespace ObjectRuntime.Hierarchy

open Relation

def walkTo (h : Hierarchy) : Nat → ModuleId → Option (List ModuleId)
  | 0, _ => none
  | depth + 1, id => do
    let m ← h.get? id
    let below ← m.includes.mapM (walkTo h depth)
    return id :: below.flatten

def walkUpTo (h : Hierarchy) (depth : Nat) : Nat → ModuleId → Option (List ModuleId)
  | 0, _ => none
  | steps + 1, id => do
    let own ← h.walkTo depth id
    let m ← h.get? id
    match m.superclass with
    | some above =>
      let others ← walkUpTo h depth steps above
      return own ++ others
    | none => return own

def seekTo (h : Hierarchy) (name : String) : Nat → ModuleId → Option (Option Method)
  | 0, _ => none
  | depth + 1, id => do
    let m ← h.get? id
    match m.methods.get? name with
    | some found => return some found
    | none => m.includes.findSomeM? (seekTo h name depth)

def climbTo (h : Hierarchy) (ask : ModuleId → Option (Option Method)) :
    Nat → ModuleId → Option (Option Method)
  | 0, _ => none
  | steps + 1, id => do
    match ← ask id with
    | some found => return some found
    | none =>
      let m ← h.get? id
      match m.superclass with
      | some above => climbTo h ask steps above
      | none => return none

def readClassMethod (h : Hierarchy) (name : String) (id : ModuleId) : Option (Option Method) := do
  let m ← h.get? id
  return m.classMethods.get? name

def scan (h : Hierarchy) (name : String) : Nat → List ModuleId → Option (Option (Nat × Method))
  | _, [] => return none
  | place, id :: rest => do
    let m ← h.get? id
    match m.methods.get? name with
    | some found => return some (place, found)
    | none => scan h name (place + 1) rest

def seekAfterTo (h : Hierarchy) (depth : Nat) (cls owner : ModuleId) (name : String)
    (recorded : Option Nat) : Option (Option (Nat × Method)) := do
  let path ← h.walkUpTo depth depth cls
  match placeOf path owner recorded with
  | some place => h.scan name (place + 1) (path.drop (place + 1))
  | none => return none

def isAboveTo (h : Hierarchy) (depth : Nat) (id ancestor : ModuleId) : Option Bool :=
  if id = ancestor then some true else (h.walkUpTo depth depth id).map (·.contains ancestor)

/-- Every search that starts at the module has a result, at any depth from this one on. -/
structure SearchesEnd (h : Hierarchy) (depth : Nat) (id : ModuleId) : Prop where
  ancestors : ∀ more, depth ≤ more → h.walkUpTo more more id = some (h.ancestors id)
  findMethod : ∀ more name, depth ≤ more →
    h.climbTo (h.seekTo name more) more id = some (h.findMethod id name)
  findClassMethod : ∀ more name, depth ≤ more →
    h.climbTo (h.readClassMethod name) more id = some (h.findClassMethod id name)
  findMethodAfter : ∀ more owner name recorded, depth ≤ more →
    h.seekAfterTo more id owner name recorded = some (h.findMethodAfter id owner name recorded)
  inherits : ∀ more ancestor, depth ≤ more →
    h.isAboveTo more id ancestor = some (h.inherits id ancestor)

/-- The answer is the entry of the first module of the path that has one, and there is no answer if
none of them has. -/
def FirstAlong (path : List ModuleId) (entry : ModuleId → Option Method) : Option Method → Prop
  | some method => ∃ passed id rest, path = passed ++ id :: rest ∧ entry id = some method ∧
      ∀ earlier ∈ passed, entry earlier = none
  | none => ∀ id ∈ path, entry id = none

/-- An include is refused for a class and for a cycle that it would close, and the table is then as
it was. -/
structure IncludeChecked (h : Hierarchy) (target id : ModuleId) : Prop where
  notAModule : h.includeModule target id = .error .notAModule ↔ h.isClass id = true
  cyclic : h.includeModule target id = .error .cyclic ↔
    h.isClass id = false ∧ ¬ (h.withInclude target id).Acyclic
  done : ∀ after, h.includeModule target id = .ok after ↔
    h.isClass id = false ∧ (h.withInclude target id).Acyclic ∧ after = h.withInclude target id
  unchanged : ∀ error interner, h.includeModule target id = .error error →
    HierarchyState.performOn h interner (.includeModule target id) = (.included (.error error), h)

variable {h : Hierarchy} {id target : ModuleId}

theorem get?_isSome (present : id.index < h.size) : ∃ m, h.get? id = some m :=
  ⟨h.modules[id.index], Array.getElem?_eq_getElem present⟩

theorem mapM_eq_some {α β : Type} {f : α → Option β} {g : α → β} {list : List α}
    (each : ∀ a ∈ list, f a = some (g a)) : list.mapM f = some (list.map g) := by
  induction list with
  | nil => rfl
  | cons a rest ih =>
    have others := ih fun b mem => each b (List.mem_cons_of_mem a mem)
    rw [List.mapM_cons, each a List.mem_cons_self, others]
    rfl

theorem findSomeM?_eq_some {α β : Type} {f : α → Option (Option β)} {g : α → Option β}
    {list : List α} (each : ∀ a ∈ list, f a = some (g a)) :
    list.findSomeM? f = some (list.findSome? g) := by
  induction list with
  | nil => rfl
  | cons a rest ih =>
    have others := ih fun b mem => each b (List.mem_cons_of_mem a mem)
    rw [List.findSomeM?, each a List.mem_cons_self, List.findSome?_cons]
    cases g a with
    | some found => rfl
    | none => exact others

theorem scan_eq (name : String) (place : Nat) {path : List ModuleId}
    (present : ∀ id ∈ path, id.index < h.size) :
    h.scan name place path = some (h.firstEntry name place path) := by
  induction path generalizing place with
  | nil => rfl
  | cons id rest ih =>
    obtain ⟨m, entry⟩ := get?_isSome (present id List.mem_cons_self)
    have others := ih (place + 1) fun other mem => present other (List.mem_cons_of_mem id mem)
    rw [scan, firstEntry, ownMethod?, entry]
    simp only [Option.bind_eq_bind, Option.bind_some, Option.pure_def]
    cases m.methods.get? name with
    | some found => rfl
    | none => exact others

namespace Linked

variable (linked : h.Linked)

include linked

/-! ### Searches along the includes -/

theorem walkTo_eq {depth : Nat} {id : ModuleId} (present : id.index < h.size)
    (deep : (h.below id).ncard < depth) : h.walkTo depth id = some (h.expand id) := by
  induction depth generalizing id with
  | zero => exact absurd deep (Nat.not_lt_zero _)
  | succ depth ih =>
    obtain ⟨m, entry⟩ := get?_isSome present
    have includes := includesOf_of_get? entry
    have each : m.includes.mapM (h.walkTo depth) = some (m.includes.map h.expand) := by
      refine mapM_eq_some fun other mem => ?_
      have included : h.Includes id other := by rwa [Includes, includes]
      have fewer := linked.ncard_below_lt included
      exact ih (linked.included id other included).2 (by omega)
    rw [walkTo, entry, linked.expand_eq present, includes, List.flatMap_def]
    simp only [each, Option.bind_eq_bind, Option.bind_some, Option.pure_def]

theorem lookupIn_eq (present : id.index < h.size) (name : String) :
    h.lookupIn id name = match h.ownMethod? id name with
      | some found => some found
      | none => (h.includesOf id).findSome? fun other => h.lookupIn other name := by
  have below : (fun other => h.lookupIn other name) =
      fun other => (h.expand other).findSome? fun place => h.ownMethod? place name :=
    funext fun other => lookupTo_eq h name h.size other
  rw [below, lookupIn, lookupTo_eq]
  change (h.expand id).findSome? _ = _
  rw [linked.expand_eq present, List.findSome?_cons, findSome?_flatMap]
  cases h.ownMethod? id name <;> rfl

theorem seekTo_eq {depth : Nat} {id : ModuleId} (name : String) (present : id.index < h.size)
    (deep : (h.below id).ncard < depth) : h.seekTo name depth id = some (h.lookupIn id name) := by
  induction depth generalizing id with
  | zero => exact absurd deep (Nat.not_lt_zero _)
  | succ depth ih =>
    obtain ⟨m, entry⟩ := get?_isSome present
    have includes := includesOf_of_get? entry
    have own : h.ownMethod? id name = m.methods.get? name := by rw [ownMethod?, entry]; rfl
    have each : m.includes.findSomeM? (h.seekTo name depth) =
        some (m.includes.findSome? fun other => h.lookupIn other name) := by
      refine findSomeM?_eq_some fun other mem => ?_
      have included : h.Includes id other := by rwa [Includes, includes]
      have fewer := linked.ncard_below_lt included
      exact ih (linked.included id other included).2 (by omega)
    rw [seekTo, entry, linked.lookupIn_eq present, own, includes]
    simp only [each, Option.bind_eq_bind, Option.bind_some, Option.pure_def]
    cases m.methods.get? name <;> rfl

/-! ### Searches along the superclasses -/

theorem superclasses_eq (id : ModuleId) :
    h.superclasses id = id :: match h.superclass? id with
      | some above => h.superclasses above
      | none => [] := by
  have lower : lower? ModuleId.index h.superclass? id = h.superclass? id := by
    cases above : h.superclass? id with
    | none => rw [lower?, above, Option.filter_none]
    | some above_id =>
      have smaller := (linked.superclass_lt id above_id above).2
      rw [lower?, above, Option.filter_some, if_pos (decide_eq_true smaller)]
  rw [superclasses, chain_eq, lower]
  cases h.superclass? id <;> rfl

theorem walkUpTo_eq {depth steps : Nat} {id : ModuleId} (present : id.index < h.size)
    (deep : h.size ≤ depth) (far : id.index < steps) :
    h.walkUpTo depth steps id = some (h.ancestors id) := by
  induction steps generalizing id with
  | zero => exact absurd far (Nat.not_lt_zero _)
  | succ steps ih =>
    obtain ⟨m, entry⟩ := get?_isSome present
    have link := superclass?_of_get? entry
    have own := linked.walkTo_eq present ((linked.ncard_below_lt_size present).trans_le deep)
    rw [walkUpTo, own, entry, Hierarchy.ancestors, linked.superclasses_eq, link, List.flatMap_cons]
    cases above : m.superclass with
    | none => simp [above]
    | some above_id =>
      obtain ⟨in_range, smaller⟩ := linked.superclass_lt id above_id (link.trans above)
      have others := ih in_range (by omega)
      simp only [above, others, Option.bind_eq_bind, Option.bind_some, Option.pure_def]
      rfl

theorem climbTo_eq {ask : ModuleId → Option (Option Method)} {answer : ModuleId → Option Method}
    (answers : ∀ id, id.index < h.size → ask id = some (answer id)) {steps : Nat} {id : ModuleId}
    (present : id.index < h.size) (far : id.index < steps) :
    h.climbTo ask steps id = some ((h.superclasses id).findSome? answer) := by
  induction steps generalizing id with
  | zero => exact absurd far (Nat.not_lt_zero _)
  | succ steps ih =>
    obtain ⟨m, entry⟩ := get?_isSome present
    have link := superclass?_of_get? entry
    rw [climbTo, answers id present, linked.superclasses_eq, link, List.findSome?_cons]
    cases answer id with
    | some found => rfl
    | none =>
      cases above : m.superclass with
      | none => simp [entry, above]
      | some above_id =>
        obtain ⟨in_range, smaller⟩ := linked.superclass_lt id above_id (link.trans above)
        simp only [entry, above, Option.bind_eq_bind, Option.bind_some]
        exact ih in_range (by omega)

/-! ### All searches -/

theorem mem_ancestors_in_range (present : id.index < h.size) {above : ModuleId}
    (mem : above ∈ h.ancestors id) : above.index < h.size := by
  obtain ⟨cls, in_chain, in_expansion⟩ := List.mem_flatMap.1 mem
  have cls_in_range : cls.index < h.size := by
    obtain rfl | ⟨lower, -⟩ := mem_superclasses in_chain
    · exact present
    · omega
  obtain rfl | ⟨user, included⟩ := mem_expandTo in_expansion
  · exact cls_in_range
  · exact (linked.included user above included).2

theorem searches_end (present : id.index < h.size) : h.SearchesEnd h.size id := by
  have path : ∀ more, h.size ≤ more → h.walkUpTo more more id = some (h.ancestors id) :=
    fun more deep => linked.walkUpTo_eq present deep (by omega)
  refine ⟨path, ?_, ?_, ?_, ?_⟩
  · intro more name deep
    refine linked.climbTo_eq ?_ present (by omega)
    intro cls in_range
    exact linked.seekTo_eq name in_range ((linked.ncard_below_lt_size in_range).trans_le deep)
  · intro more name deep
    refine linked.climbTo_eq ?_ present (by omega)
    intro cls in_range
    obtain ⟨m, entry⟩ := get?_isSome in_range
    rw [readClassMethod, ownClassMethod?, entry]
    rfl
  · intro more owner name recorded deep
    rw [seekAfterTo, path more deep, Hierarchy.findMethodAfter]
    simp only [Option.bind_eq_bind, Option.bind_some]
    cases placeOf (h.ancestors id) owner recorded with
    | none => rfl
    | some place =>
      refine scan_eq name (place + 1) ?_
      intro above mem
      exact linked.mem_ancestors_in_range present (List.mem_of_mem_drop mem)
  · intro more ancestor deep
    rw [isAboveTo, path more deep, Hierarchy.inherits]
    by_cases same : id = ancestor
    · simp [same]
    · simp [same]

end Linked

namespace WellFormed

variable (formed : h.WellFormed)

include formed

theorem searches_end (present : id.index < h.size) : h.SearchesEnd h.size id :=
  formed.linked.searches_end present

theorem include_checked (in_range : target.index < h.size) (present : id.index < h.size) :
    h.IncludeChecked target id := by
  classical
  have decided := formed.layered.includeModule_eq in_range present
  refine ⟨?_, ?_, ?_, ?_⟩
  · rw [decided]
    cases h.isClass id <;> by_cases still : (h.withInclude target id).Acyclic <;> simp [still]
  · rw [decided]
    cases h.isClass id <;> by_cases still : (h.withInclude target id).Acyclic <;> simp [still]
  · intro after
    rw [decided]
    cases h.isClass id <;> by_cases still : (h.withInclude target id).Acyclic <;>
      simp [still, eq_comm]
  · intro error interner refused
    rw [HierarchyState.performOn, refused]

end WellFormed

/-! ### The search and the list -/

theorem firstAlong_findSome? (path : List ModuleId) (entry : ModuleId → Option Method) :
    FirstAlong path entry (path.findSome? entry) := by
  cases found : path.findSome? entry with
  | some method => exact List.findSome?_eq_some_iff.1 found
  | none => exact List.findSome?_eq_none_iff.1 found

/-- The search for a method asks the includes of each module before it turns to the superclass, and
the list of ancestors is made without any name in mind; the search finds the first entry of the
list, placeholders included. With class methods it is the chain of superclasses. -/
theorem search_follows_ancestors (linked : h.Linked) (present : id.index < h.size) (name : String) :
    (∀ depth, h.size ≤ depth →
      h.walkUpTo depth depth id = some (h.ancestors id) ∧
      h.climbTo (h.seekTo name depth) depth id = some (h.findMethod id name) ∧
      h.climbTo (h.readClassMethod name) depth id = some (h.findClassMethod id name)) ∧
    (∀ id, h.superclasses id = id :: match h.superclass? id with
      | some above => h.superclasses above
      | none => []) ∧
    FirstAlong (h.ancestors id) (h.ownMethod? · name) (h.findMethod id name) ∧
    FirstAlong (h.superclasses id) (h.ownClassMethod? · name) (h.findClassMethod id name) := by
  have ends := linked.searches_end present
  refine ⟨?_, linked.superclasses_eq, ?_, firstAlong_findSome? _ _⟩
  · intro depth deep
    exact ⟨ends.ancestors depth deep, ends.findMethod depth name deep,
      ends.findClassMethod depth name deep⟩
  · rw [findMethod_eq]
    exact firstAlong_findSome? _ _

/-! ### The tables that the driver makes -/

def fits (h : Hierarchy) : HierarchyStep → Bool
  | .create _ kind superclass =>
    superclass.all (fun above => above.index < h.size) && (kind == .classKind || superclass.isNone)
  | .define _ owner _ _ _ | .undefine owner _ => owner.index < h.size
  | .includeModule target id => target.index < h.size && id.index < h.size
  | _ => true

def fitting : Hierarchy → List HierarchyStep → Bool
  | _, [] => true
  | h, step :: rest =>
    h.fits step && fitting (HierarchyState.performOn h .withCore step).2 rest

theorem Made.owner_in_range (made : h.Made) {cls : ModuleId} {name : String} {method : Method}
    (found : h.findMethod cls name = some method) : method.owner.index < h.size := by
  rw [findMethod_eq] at found
  obtain ⟨id, -, own⟩ := List.exists_of_findSome?_eq_some found
  exact made.wellFormed.owners id name method (.inl own)

theorem Made.performOn (made : h.Made) {step : HierarchyStep} (fit : h.fits step = true)
    (interner : Interner) : (HierarchyState.performOn h interner step).2.Made := by
  cases step with
  | create name kind superclass =>
    obtain ⟨in_range, root⟩ := Bool.and_eq_true_iff.1 fit
    refine made.create _ ?_ ?_ rfl rfl rfl
    · rintro above rfl
      simpa using in_range
    · rintro rfl
      have none_above : superclass = none := by simpa using root
      exact none_above
  | define placement owner name arity visibility =>
    have present : owner.index < h.size := of_decide_eq_true fit
    cases placement with
    | ordinary => exact made.defineMethod owner _ present
    | closure => exact made.defineMethod owner _ present
    | classLevel => exact made.defineClassMethod owner _ present
  | retag id name visibility =>
    rw [HierarchyState.performOn]
    split
    next method found =>
      have present := made.owner_in_range found
      exact made.defineMethod id _ present
    next => exact made
  | remove owner name => exact made.removeMethod owner name
  | undefine owner name => exact made.defineMethod owner _ (of_decide_eq_true fit)
  | includeModule target id =>
    obtain ⟨in_range, present⟩ := Bool.and_eq_true_iff.1 fit
    rw [HierarchyState.performOn]
    split
    next after done =>
      exact made.includeModule target id (of_decide_eq_true in_range) (of_decide_eq_true present)
        done
    next => exact made
  | info id =>
    rw [HierarchyState.performOn]
    split
    next => exact made
    next => exact made
  | _ => exact made

theorem made_afterSteps {steps : List HierarchyStep} (fit : empty.fitting steps = true) :
    (afterSteps steps).Made := by
  have kept : ∀ (steps : List HierarchyStep) (h : Hierarchy), h.Made → h.fitting steps = true →
      (steps.foldl (fun h step => (HierarchyState.performOn h .withCore step).2) h).Made := by
    intro steps
    induction steps with
    | nil => exact fun h made _ => made
    | cons step rest ih =>
      intro h made fit
      obtain ⟨first, others⟩ := Bool.and_eq_true_iff.1 fit
      exact ih _ (made.performOn first .withCore) others
  exact kept steps .empty .empty fit

/-- Every table that edits make is well formed, all searches in it end without a read behind its
end, and an include is refused exactly for a class or a cycle. -/
theorem made_well_formed {h : Hierarchy} (made : h.Made) :
    h.WellFormed ∧ (∀ id, id.index < h.size → h.SearchesEnd h.size id) ∧
      ∀ target id, target.index < h.size → id.index < h.size → h.IncludeChecked target id := by
  have formed := made.wellFormed
  refine ⟨formed, ?_, ?_⟩
  · intro id present
    exact formed.searches_end present
  · intro target id in_range present
    exact formed.include_checked in_range present

theorem made_well_formed_copy :
    (afterSteps stepsToCopy).Made ∧ (afterSteps stepsToCopy).WellFormed ∧
      (afterSteps stepsToCopy).SearchesEnd 3 ⟨2⟩ ∧
      (afterSteps stepsToCopy).IncludeChecked ⟨0⟩ ⟨1⟩ := by
  have made : (afterSteps stepsToCopy).Made := made_afterSteps (by rfl)
  obtain ⟨formed, ends, checked⟩ := made_well_formed made
  exact ⟨made, formed, ends ⟨2⟩ (by decide), checked ⟨0⟩ ⟨1⟩ (by decide) (by decide)⟩

/-- The class has its method from a module that it includes, behind another one, and no class method
at all. -/
theorem search_follows_ancestors_copy :
    (afterSteps stepsToCopy).Linked ∧
      FirstAlong [⟨2⟩, ⟨0⟩, ⟨1⟩, ⟨0⟩] ((afterSteps stepsToCopy).ownMethod? · "n")
        ((afterSteps stepsToCopy).findMethod ⟨2⟩ "n") ∧
      ((afterSteps stepsToCopy).findMethod ⟨2⟩ "n").isSome = true ∧
      (afterSteps stepsToCopy).findClassMethod ⟨2⟩ "n" = none := by
  have made : (afterSteps stepsToCopy).Made := made_afterSteps (by rfl)
  have linked := made.wellFormed.linked
  have present : (⟨2⟩ : ModuleId).index < (afterSteps stepsToCopy).size := by decide
  obtain ⟨-, -, first, -⟩ := search_follows_ancestors linked present "n"
  exact ⟨linked, first, by decide, by decide⟩

end ObjectRuntime.Hierarchy
