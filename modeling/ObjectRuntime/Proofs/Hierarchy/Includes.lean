import ObjectRuntime.Hierarchy.Transcript
import ObjectRuntime.Proofs.Hierarchy.Order
import Mathlib.Data.Set.Card

/-!
# Tables without a cycle of includes

Nothing but the test made before an include keeps the includes free of cycles, and the searches
follow them without a memory of where they have been. `WellFormed` says what the tables are like;
every edit keeps it, and the test refuses an include exactly when it would end it.
-/

set_option autoImplicit false

namespace ObjectRuntime.Hierarchy

open Relation

variable {h after : Hierarchy} {id other target : ModuleId}

def Includes (h : Hierarchy) (id other : ModuleId) : Prop := other ∈ h.includesOf id

def Acyclic (h : Hierarchy) : Prop := ∀ id, ¬ TransGen h.Includes id id

def withInclude (h : Hierarchy) (target id : ModuleId) : Hierarchy :=
  h.modify target fun m => { m with includes := id :: m.includes }

structure Nested (h : Hierarchy) : Prop where
  included : ∀ id other, h.Includes id other → h.isClass other = false ∧ other.index < h.size
  acyclic : h.Acyclic

/-- All links of the table: a superclass was made before its subclass, modules only are included,
and the includes have no cycle. -/
structure Linked (h : Hierarchy) : Prop extends Nested h where
  superclass_lt : ∀ id above, h.superclass? id = some above →
    above.index < h.size ∧ above.index < id.index

structure Layered (h : Hierarchy) : Prop extends Shaped h where
  acyclic : h.Acyclic

/-- What every table is like: all ids in it are in range, a superclass was made before its subclass,
modules only are included and have no superclass, and the includes have no cycle. -/
structure WellFormed (h : Hierarchy) : Prop extends Shaped h where
  superclass_lt : ∀ id above, h.superclass? id = some above →
    above.index < h.size ∧ above.index < id.index
  acyclic : h.Acyclic
  owners : ∀ id name method,
    h.ownMethod? id name = some method ∨ h.ownClassMethod? id name = some method →
      method.owner.index < h.size

theorem Layered.nested (layered : h.Layered) : h.Nested := ⟨layered.included, layered.acyclic⟩

theorem WellFormed.linked (formed : h.WellFormed) : h.Linked :=
  ⟨⟨formed.included, formed.acyclic⟩, formed.superclass_lt⟩

theorem WellFormed.layered (formed : h.WellFormed) : h.Layered := ⟨formed.toShaped, formed.acyclic⟩

/-- The tables that come from making modules, including them and editing their methods. The ids that
an edit names are in the table, and what is not a class is made without a superclass. -/
inductive Made : Hierarchy → Prop where
  | empty : Made .empty
  | create {h : Hierarchy} (made : Made h) (m : Module)
      (superclass : ∀ above, m.superclass = some above → above.index < h.size)
      (root : m.kind = .moduleKind → m.superclass = none) (no_includes : m.includes = [])
      (no_methods : m.methods = .empty) (no_classMethods : m.classMethods = .empty) :
      Made (h.create m)
  | includeModule {h after : Hierarchy} (made : Made h) (target id : ModuleId)
      (in_range : target.index < h.size) (present : id.index < h.size)
      (done : h.includeModule target id = .ok after) : Made after
  | defineMethod {h : Hierarchy} (made : Made h) (owner : ModuleId) (method : Method)
      (present : method.owner.index < h.size) : Made (h.defineMethod owner method)
  | defineClassMethod {h : Hierarchy} (made : Made h) (owner : ModuleId) (method : Method)
      (present : method.owner.index < h.size) : Made (h.defineClassMethod owner method)
  | removeMethod {h : Hierarchy} (made : Made h) (owner : ModuleId) (name : String) :
      Made (h.removeMethod owner name)

/-! ### One more include -/

theorem includesOf_withInclude (in_range : target.index < h.size) (id user : ModuleId) :
    (h.withInclude target id).includesOf user =
      if target = user then id :: h.includesOf user else h.includesOf user := by
  rw [withInclude, includesOf_cons]
  simp only [in_range, and_true]

theorem includes_withInclude (in_range : target.index < h.size) {user used : ModuleId} :
    (h.withInclude target id).Includes user used ↔
      h.Includes user used ∨ user = target ∧ used = id := by
  rw [Includes, includesOf_withInclude in_range, Includes]
  by_cases same : target = user
  · simp [same, or_comm]
  · simp [same, Ne.symm same]

/-- A way along the includes and a new one is a way along the includes, or one goes to the start of
the new one and one on from its end. -/
theorem transGen_withInclude (in_range : target.index < h.size) {user used : ModuleId}
    (way : TransGen (h.withInclude target id).Includes user used) :
    TransGen h.Includes user used ∨
      ReflTransGen h.Includes user target ∧ ReflTransGen h.Includes id used := by
  induction way with
  | single first =>
    obtain old | ⟨rfl, rfl⟩ := (includes_withInclude in_range).1 first
    · exact .inl (.single old)
    · exact .inr ⟨.refl, .refl⟩
  | tail _ last ih =>
    obtain old | ⟨rfl, rfl⟩ := (includes_withInclude in_range).1 last
    · obtain before | ⟨to_target, from_id⟩ := ih
      · exact .inl (before.tail old)
      · exact .inr ⟨to_target, from_id.tail old⟩
    · obtain before | ⟨to_target, -⟩ := ih
      · exact .inr ⟨before.to_reflTransGen, .refl⟩
      · exact .inr ⟨to_target, .refl⟩

/-- A new include closes a cycle exactly if the includes lead from its end to its start. -/
theorem Acyclic.withInclude_iff (acyclic : h.Acyclic) (in_range : target.index < h.size) :
    (h.withInclude target id).Acyclic ↔ ¬ ReflTransGen h.Includes id target := by
  constructor
  · intro still back
    have kept : ∀ user used, h.Includes user used → (h.withInclude target id).Includes user used :=
      fun _ _ old => (includes_withInclude in_range).2 (.inl old)
    have new : (h.withInclude target id).Includes target id :=
      (includes_withInclude in_range).2 (.inr ⟨rfl, rfl⟩)
    exact still target (TransGen.head' new (ReflTransGen.mono kept _ _ back))
  · intro no_way_back around circle
    obtain old | ⟨to_target, from_id⟩ := transGen_withInclude in_range circle
    · exact acyclic around old
    · exact no_way_back (from_id.trans to_target)

theorem Acyclic.of_includes (acyclic : h.Acyclic)
    (includes : ∀ user used, after.Includes user used → h.Includes user used) : after.Acyclic :=
  fun id circle => acyclic id (TransGen.mono includes _ _ circle)

/-! ### How far the includes lead -/

theorem in_range_eq (h : Hierarchy) :
    {id : ModuleId | id.index < h.size} = (Finset.range h.size).image ModuleId.mk := by
  ext ⟨index⟩
  simp

theorem finite_in_range (h : Hierarchy) : {id : ModuleId | id.index < h.size}.Finite := by
  rw [in_range_eq]
  exact Finset.finite_toSet _

theorem ncard_in_range_le (h : Hierarchy) : {id : ModuleId | id.index < h.size}.ncard ≤ h.size := by
  rw [in_range_eq, Set.ncard_coe_finset]
  exact Finset.card_image_le.trans_eq (Finset.card_range h.size)

def below (h : Hierarchy) (id : ModuleId) : Set ModuleId := {other | TransGen h.Includes id other}

namespace Nested

variable (nested : h.Nested)

include nested

theorem below_subset (id : ModuleId) : h.below id ⊆ {other | other.index < h.size} := by
  intro other way
  obtain ⟨user, -, last⟩ := TransGen.tail'_iff.1 way
  exact (nested.included user other last).2

theorem ncard_below_lt (included : h.Includes id other) :
    (h.below other).ncard < (h.below id).ncard := by
  have finite : (h.below id).Finite :=
    (finite_in_range h).subset (nested.below_subset id)
  refine Set.ncard_lt_ncard ⟨?_, ?_⟩ finite
  · intro further way
    exact TransGen.head included way
  · intro all
    exact nested.acyclic other (all (TransGen.single included))

theorem ncard_below_lt_size (present : id.index < h.size) : (h.below id).ncard < h.size := by
  have outside : id ∉ h.below id := nested.acyclic id
  have within : h.below id ⊂ {other | other.index < h.size} :=
    ⟨nested.below_subset id, fun all => outside (all present)⟩
  exact (Set.ncard_lt_ncard within (finite_in_range h)).trans_le (ncard_in_range_le h)

theorem includes_induction {motive : ModuleId → Prop}
    (step : ∀ id, id.index < h.size → (∀ other, h.Includes id other → motive other) → motive id)
    (present : id.index < h.size) : motive id := by
  induction bound : (h.below id).ncard using Nat.strongRecOn generalizing id with
  | ind n ih =>
    refine step id present ?_
    intro other included
    have fewer := nested.ncard_below_lt included
    exact ih _ (bound ▸ fewer) (nested.included id other included).2 rfl

/-- Any depth that exceeds the number of modules below will do. -/
theorem expandTo_eq_of_lt {depth more : Nat} {id : ModuleId}
    (deep : (h.below id).ncard < depth) (deeper : (h.below id).ncard < more) :
    h.expandTo depth id = h.expandTo more id := by
  induction depth generalizing more id with
  | zero => exact absurd deep (Nat.not_lt_zero _)
  | succ depth ih =>
    obtain ⟨more, rfl⟩ := Nat.exists_eq_succ_of_ne_zero (Nat.ne_of_gt (Nat.zero_lt_of_lt deeper))
    rw [expandTo, expandTo]
    refine congrArg (id :: ·) (List.flatMap_congr ?_)
    intro other included
    have fewer := nested.ncard_below_lt included
    exact ih (by omega) (by omega)

theorem expand_eq (present : id.index < h.size) :
    h.expand id = id :: (h.includesOf id).flatMap h.expand := by
  have bound := nested.ncard_below_lt_size present
  have deeper : h.expand id = h.expandTo (h.size + 1) id :=
    nested.expandTo_eq_of_lt bound (by omega)
  rw [deeper, expandTo]
  rfl

theorem mem_expand_iff (present : id.index < h.size) :
    other ∈ h.expand id ↔ ReflTransGen h.Includes id other := by
  refine nested.includes_induction (motive := fun id =>
    other ∈ h.expand id ↔ ReflTransGen h.Includes id other) ?_ present
  intro id present ih
  rw [nested.expand_eq present, List.mem_cons, List.mem_flatMap, ReflTransGen.cases_head_iff,
    eq_comm]
  refine or_congr Iff.rfl (exists_congr fun used => and_congr_right fun included => ?_)
  exact ih used included

end Nested

namespace Layered

variable (layered : h.Layered)

include layered

theorem ancestors_eq_expand (not_class : h.isClass id = false) : h.ancestors id = h.expand id := by
  have top : h.superclass? id = none := by
    cases above : h.superclass? id with
    | none => rfl
    | some _ =>
      have is_class := layered.roots id (by rw [above]; rfl)
      rw [not_class] at is_class
      cases is_class
  have alone : h.superclasses id = [id] := by
    rw [superclasses, chain_eq, lower?, top]
    rfl
  rw [ancestors, alone, List.flatMap_singleton]

theorem mem_ancestors_iff (present : id.index < h.size) (not_class : h.isClass id = false) :
    id = other ∨ other ∈ h.ancestors id ↔ ReflTransGen h.Includes id other := by
  rw [layered.ancestors_eq_expand not_class, layered.nested.mem_expand_iff present]
  constructor
  · rintro (rfl | way)
    · exact .refl
    · exact way
  · exact .inr

theorem includeModule_eq (in_range : target.index < h.size) (present : id.index < h.size)
    [Decidable (h.withInclude target id).Acyclic] :
    h.includeModule target id =
      if h.isClass id = true then .error .notAModule
      else if (h.withInclude target id).Acyclic then .ok (h.withInclude target id)
      else .error .cyclic := by
  unfold includeModule
  split
  next => rfl
  next not_class =>
    have closes : (h.withInclude target id).Acyclic ↔ ¬ ReflTransGen h.Includes id target :=
      layered.acyclic.withInclude_iff in_range
    have found : id = target ∨ target ∈ h.ancestors id ↔ ReflTransGen h.Includes id target :=
      layered.mem_ancestors_iff present (by simpa using not_class)
    by_cases way : ReflTransGen h.Includes id target
    · rw [if_pos (found.2 way), if_neg fun acyclic => closes.1 acyclic way]
    · rw [if_neg (fun mem => way (found.1 mem)), if_pos (closes.2 way)]
      rfl

end Layered

/-! ### Edits keep the tables well formed -/

namespace Layered

theorem of_links (layered : h.Layered) (size : after.size = h.size)
    (includesOf : ∀ id, after.includesOf id = h.includesOf id)
    (isClass : ∀ id, after.isClass id = h.isClass id)
    (superclass? : ∀ id, after.superclass? id = h.superclass? id) : after.Layered := by
  refine ⟨layered.toShaped.of_links size includesOf isClass superclass?, ?_⟩
  refine layered.acyclic.of_includes ?_
  intro user used included
  rw [Includes, includesOf] at included
  exact included

theorem includeModule (layered : h.Layered) (present : id.index < h.size)
    (done : h.includeModule target id = .ok after) : after.Layered := by
  classical
  refine ⟨layered.toShaped.includeModule present done, ?_⟩
  by_cases in_range : target.index < h.size
  · rw [layered.includeModule_eq in_range present] at done
    split at done
    next => cases done
    next =>
      split at done
      next still =>
        obtain rfl := Except.ok.inj done
        exact still
      next => cases done
  · obtain ⟨-, rfl⟩ := includeModule_eq_ok done
    refine layered.acyclic.of_includes ?_
    intro user used included
    rwa [Includes, includesOf_cons, if_neg fun both => in_range both.2] at included

theorem create (layered : h.Layered) {m : Module} (no_includes : m.includes = [])
    (root : m.kind = .moduleKind → m.superclass = none) : (h.create m).Layered := by
  refine ⟨layered.toShaped.create no_includes root, ?_⟩
  refine layered.acyclic.of_includes ?_
  intro user used included
  rwa [Includes, includesOf_create no_includes] at included

end Layered

theorem wellFormed_empty : empty.WellFormed := by
  have nothing : ∀ id, empty.get? id = none := fun id => Array.getElem?_eq_none (Nat.zero_le _)
  have no_includes : ∀ id, empty.includesOf id = [] := fun id => by rw [includesOf, nothing]; rfl
  refine ⟨⟨?_, ?_⟩, ?_, ?_, ?_⟩
  · intro id other included
    rw [no_includes] at included
    cases included
  · intro id has_superclass
    rw [superclass?, nothing] at has_superclass
    cases has_superclass
  · intro id above at_id
    rw [superclass?, nothing] at at_id
    cases at_id
  · intro id circle
    obtain ⟨user, -, last⟩ := TransGen.tail'_iff.1 circle
    rw [Includes, no_includes] at last
    cases last
  · intro id name method own
    simp [ownMethod?, ownClassMethod?, nothing] at own

namespace WellFormed

theorem of_tables (formed : h.WellFormed) (size : after.size = h.size)
    (includesOf : ∀ id, after.includesOf id = h.includesOf id)
    (isClass : ∀ id, after.isClass id = h.isClass id)
    (superclass? : ∀ id, after.superclass? id = h.superclass? id)
    (owners : ∀ id name method,
      after.ownMethod? id name = some method ∨ after.ownClassMethod? id name = some method →
        method.owner.index < h.size) : after.WellFormed := by
  refine ⟨formed.toShaped.of_links size includesOf isClass superclass?, ?_, ?_, ?_⟩
  · intro id above at_id
    rw [superclass?] at at_id
    rw [size]
    exact formed.superclass_lt id above at_id
  · exact (formed.layered.of_links size includesOf isClass superclass?).acyclic
  · rw [size]
    exact owners

theorem defineMethod (formed : h.WellFormed) {method : Method}
    (present : method.owner.index < h.size) (owner : ModuleId) :
    (h.defineMethod owner method).WellFormed := by
  refine formed.of_tables (size_defineMethod ..) (includesOf_defineMethod _ _ · _)
    (isClass_defineMethod _ _ · _) (superclass?_defineMethod _ _ · _) ?_
  rintro id name found (own | own)
  · obtain ⟨-, -, rfl⟩ | before := ownMethod?_defineMethod own
    · exact present
    · exact formed.owners id name found (.inl before)
  · rw [ownClassMethod?_defineMethod] at own
    exact formed.owners id name found (.inr own)

theorem defineClassMethod (formed : h.WellFormed) {method : Method}
    (present : method.owner.index < h.size) (owner : ModuleId) :
    (h.defineClassMethod owner method).WellFormed := by
  refine formed.of_tables (size_defineClassMethod ..) (includesOf_defineClassMethod _ _ · _)
    (isClass_defineClassMethod _ _ · _) (superclass?_defineClassMethod _ _ · _) ?_
  rintro id name found (own | own)
  · rw [ownMethod?_defineClassMethod] at own
    exact formed.owners id name found (.inl own)
  · obtain ⟨-, -, rfl⟩ | before := ownClassMethod?_defineClassMethod own
    · exact present
    · exact formed.owners id name found (.inr before)

theorem removeMethod (formed : h.WellFormed) (owner : ModuleId) (name : String) :
    (h.removeMethod owner name).WellFormed := by
  refine formed.of_tables (size_removeMethod ..) (includesOf_removeMethod _ _ · _)
    (isClass_removeMethod _ _ · _) (superclass?_removeMethod _ _ · _) ?_
  rintro id other found (own | own)
  · exact formed.owners id other found (.inl (ownMethod?_removeMethod own))
  · rw [ownClassMethod?_removeMethod] at own
    exact formed.owners id other found (.inr own)

theorem includeModule (formed : h.WellFormed) (present : id.index < h.size)
    (done : h.includeModule target id = .ok after) : after.WellFormed := by
  have layered := formed.layered.includeModule present done
  refine ⟨layered.toShaped, ?_, layered.acyclic, ?_⟩
  · intro user above at_user
    rw [superclass?_includeModule done] at at_user
    rw [size_includeModule done]
    exact formed.superclass_lt user above at_user
  · intro user name method own
    rw [ownMethod?_includeModule done, ownClassMethod?_includeModule done] at own
    rw [size_includeModule done]
    exact formed.owners user name method own

theorem create (formed : h.WellFormed) {m : Module}
    (superclass : ∀ above, m.superclass = some above → above.index < h.size)
    (root : m.kind = .moduleKind → m.superclass = none) (no_includes : m.includes = [])
    (no_methods : m.methods = .empty) (no_classMethods : m.classMethods = .empty) :
    (h.create m).WellFormed := by
  have layered := formed.layered.create no_includes root
  refine ⟨layered.toShaped, ?_, layered.acyclic, ?_⟩
  · intro id above at_id
    rw [size_create]
    rw [superclass?, get?_create] at at_id
    split at at_id
    next new =>
      subst new
      have lower := superclass above at_id
      exact ⟨by omega, lower⟩
    next =>
      obtain ⟨in_range, lower⟩ := formed.superclass_lt id above at_id
      exact ⟨by omega, lower⟩
  · rintro id name method (own | own)
    all_goals rw [size_create]
    · have lower := formed.owners id name method (.inl (ownMethod?_create no_methods own))
      omega
    · have lower := formed.owners id name method (.inr (ownClassMethod?_create no_classMethods own))
      omega

end WellFormed

theorem Made.wellFormed (made : h.Made) : h.WellFormed := by
  induction made with
  | empty => exact wellFormed_empty
  | create _ m superclass root no_includes no_methods no_classMethods ih =>
    exact ih.create superclass root no_includes no_methods no_classMethods
  | includeModule _ target id in_range present done ih => exact ih.includeModule present done
  | defineMethod _ owner method present ih => exact ih.defineMethod present owner
  | defineClassMethod _ owner method present ih => exact ih.defineClassMethod present owner
  | removeMethod _ owner name ih => exact ih.removeMethod owner name

end ObjectRuntime.Hierarchy
