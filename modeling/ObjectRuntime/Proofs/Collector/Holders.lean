import Mathlib.Data.Multiset.Count
import Mathlib.Order.WellFoundedSet
import ObjectRuntime.Proofs.Collector.Registry

/-!
# Counted holders

The count of an object says how many hold it: those outside the store, each as often as it does, and
the variables of the living objects. While work is left in a list of dropped holders, the list
counts as somebody outside. Every operation on a store keeps the counts, whatever the variables
refer to; so what somebody outside holds lives, and with it what it leads to.
-/

set_option autoImplicit false

namespace ObjectRuntime

def Counted.holdersAt (objects : Array Counted) (id : ObjectId) : Nat :=
  (objects[id.index]?.map Counted.holders).getD 0

/-- What variables refer to, each target as often as it is referred to. -/
def Counted.targets (objects : List Counted) : List ObjectId := objects.flatMap Counted.references

/-- The counts are those of the holders, and what is dead refers to nothing. -/
structure Counted.Balanced (objects : Array Counted) (outside : Multiset ObjectId) : Prop where
  counts : ∀ id, holdersAt objects id = outside.count id + (targets objects.toList).count id
  dead : ∀ o ∈ objects, o.isAlive = false → o.references = []

namespace Counted

@[simp] theorem holders_dead : dead.holders = 0 := rfl
@[simp] theorem references_dead : dead.references = [] := rfl
@[simp] theorem references_fresh : fresh.references = [] := rfl
@[simp] theorem holders_dropHolder (o : Counted) : o.dropHolder.holders = o.holders - 1 := rfl
@[simp] theorem references_dropHolder (o : Counted) : o.dropHolder.references = o.references := rfl

variable {objects : Array Counted} {outside : Multiset ObjectId} {id : ObjectId} {i : Nat}

theorem holdersAt_set {o : Counted} (inside : i < objects.size) :
    holdersAt (objects.set i o) id = if id = ⟨i⟩ then o.holders else holdersAt objects id := by
  obtain ⟨j⟩ := id
  rw [holdersAt, Array.getElem?_set inside]
  by_cases same : i = j
  · subst same
    rw [if_pos rfl, if_pos rfl]
    rfl
  · rw [if_neg same, if_neg fun h => same (ObjectId.mk.inj h).symm]
    rfl

theorem holdersAt_self (inside : i < objects.size) :
    holdersAt objects ⟨i⟩ = objects[i].holders := by
  rw [holdersAt, Array.getElem?_eq_getElem inside]
  rfl

theorem modify_eq_set (inside : i < objects.size) (f : Counted → Counted) :
    objects.modify i f = objects.set i (f objects[i]) := by
  refine Array.ext_getElem? fun j => ?_
  rw [Array.getElem?_modify, Array.getElem?_set inside]
  split
  next same =>
    subst same
    rw [Array.getElem?_eq_getElem inside, Option.map_some]
  next => rfl

theorem holdersAt_of_le (outside : objects.size ≤ id.index) : holdersAt objects id = 0 := by
  rw [holdersAt, Array.getElem?_eq_none outside]
  rfl

theorem count_targets_set {l : List Counted} (inside : i < l.length) (o : Counted) :
    (targets (l.set i o)).count id + l[i].references.count id =
      (targets l).count id + o.references.count id := by
  induction l generalizing i with
  | nil => cases inside
  | cons first rest ih =>
    cases i with
    | zero =>
      simp only [targets, List.set_cons_zero, List.flatMap_cons, List.count_append,
        List.getElem_cons_zero]
      omega
    | succ i =>
      have rest_eq := ih (Nat.lt_of_succ_lt_succ inside)
      simp only [targets, List.set_cons_succ, List.flatMap_cons, List.count_append,
        List.getElem_cons_succ] at rest_eq ⊢
      omega

theorem targets_alive {l : List Counted} (dead : ∀ o ∈ l, o.isAlive = false → o.references = []) :
    targets (l.filter isAlive) = targets l := by
  induction l with
  | nil => rfl
  | cons first rest ih =>
    have rest_eq := ih fun o mem => dead o (List.mem_cons_of_mem _ mem)
    cases alive : first.isAlive with
    | true =>
      rw [List.filter_cons_of_pos alive]
      exact congrArg (first.references ++ ·) rest_eq
    | false =>
      rw [List.filter_cons_of_neg (by rw [alive]; exact Bool.false_ne_true), rest_eq]
      simp only [targets, List.flatMap_cons, dead first List.mem_cons_self alive, List.nil_append]

theorem count_filterMap_cons (value : Value) (rest : List Value) (id : ObjectId) :
    ((value :: rest).filterMap Value.object?).count id =
      value.object?.toList.count id + (rest.filterMap Value.object?).count id := by
  cases refers : value.object? with
  | none => rw [List.filterMap_cons_none refers, Option.toList_none, List.count_nil, zero_add]
  | some target =>
    rw [List.filterMap_cons_some refers, Option.toList_some, ← List.count_append]
    rfl

theorem count_references_put (entries : List (String × Value)) (name : String) (new : Value)
    (id : ObjectId) :
    (((Bindings.put entries name new).map (·.2)).filterMap Value.object?).count id +
        ((Bindings.find? entries name).bind Value.object?).toList.count id =
      ((entries.map (·.2)).filterMap Value.object?).count id + new.object?.toList.count id := by
  induction entries with
  | nil =>
    rw [Bindings.put, List.map_cons, count_filterMap_cons, Nat.add_comm]
    rfl
  | cons entry rest ih =>
    obtain ⟨key, old⟩ := entry
    rw [Bindings.put, Bindings.find?]
    by_cases same : key = name
    · rw [if_pos same, if_pos same]
      simp only [List.map_cons, count_filterMap_cons, Option.bind_some]
      omega
    · rw [if_neg same, if_neg same]
      simp only [List.map_cons, count_filterMap_cons]
      omega

theorem count_references_insert (o : Counted) (name : String) (new : Value) (id : ObjectId) :
    ({ o with ivars := o.ivars.insert name new } : Counted).references.count id +
        ((o.ivars.get? name).bind Value.object?).toList.count id =
      o.references.count id + new.object?.toList.count id :=
  count_references_put o.ivars.entries name new id

namespace Balanced

variable {name : String} {new : Value}

/-- One object changes: what it gains in holders and in references, the outside makes up for. -/
theorem set (balanced : Balanced objects outside) (inside : i < objects.size) {o : Counted}
    {after : Multiset ObjectId} (dead : o.isAlive = false → o.references = [])
    (own : o.holders + outside.count ⟨i⟩ + objects[i].references.count ⟨i⟩ =
      objects[i].holders + after.count ⟨i⟩ + o.references.count ⟨i⟩)
    (others : ∀ id ≠ ⟨i⟩, after.count id + o.references.count id =
      outside.count id + objects[i].references.count id) :
    Balanced (objects.set i o) after where
  counts id := by
    have before := balanced.counts id
    have moved :
        (targets (objects.toList.set i o)).count id + objects.toList[i].references.count id =
          (targets objects.toList).count id + o.references.count id := count_targets_set inside o
    rw [Array.getElem_toList] at moved
    rw [holdersAt_set inside, Array.toList_set]
    split
    next same =>
      subst same
      rw [holdersAt_self inside] at before
      omega
    next differ =>
      have other := others id differ
      omega
  dead other mem := by
    obtain ⟨j, at_j⟩ := Array.mem_iff_getElem?.mp mem
    rw [Array.getElem?_set inside] at at_j
    split at at_j
    next => exact Option.some.inj at_j ▸ dead
    next => exact balanced.dead other (Array.mem_iff_getElem?.mpr ⟨j, at_j⟩)

theorem holders_pos {work : List ObjectId} (balanced : Balanced objects (work + outside))
    (mem : id ∈ work) : 0 < holdersAt objects id := by
  have counts := balanced.counts id
  have listed := List.count_pos_iff.mpr mem
  rw [Multiset.count_add, Multiset.coe_count] at counts
  omega

theorem dropHolders {work : List ObjectId} (balanced : Balanced objects (work + outside)) :
    Balanced (dropHolders objects work) outside := by
  fun_induction ObjectRuntime.dropHolders objects work with
  | case1 objects =>
    rw [Multiset.coe_nil, zero_add] at balanced
    exact balanced
  | case2 objects id rest inside last ih =>
    refine ih (balanced.set inside (fun _ => rfl) ?_ ?_)
    · rw [← Multiset.coe_add]
      simp only [Multiset.count_add, Multiset.coe_count, List.count_cons_self, holders_dead,
        references_dead, List.count_nil]
      omega
    · intro other differ
      rw [← Multiset.coe_add]
      simp only [Multiset.count_add, Multiset.coe_count, List.count_cons_of_ne differ.symm,
        references_dead, List.count_nil]
      omega
  | case3 objects id rest inside others ih =>
    have held : 0 < objects[id.index].holders :=
      (balanced.holders_pos List.mem_cons_self).trans_eq (holdersAt_self inside)
    refine ih (balanced.set inside ?_ ?_ ?_)
    · intro died
      rw [isAlive, bne_eq_false_iff_eq, holders_dropHolder] at died
      omega
    · simp only [Multiset.count_add, Multiset.coe_count, List.count_cons_self,
        holders_dropHolder, references_dropHolder]
      omega
    · intro other differ
      simp only [Multiset.count_add, Multiset.coe_count, List.count_cons_of_ne differ.symm,
        references_dropHolder]
  | case4 objects id rest beyond ih =>
    have held := balanced.holders_pos List.mem_cons_self
    rw [holdersAt_of_le (Nat.le_of_not_lt beyond)] at held
    cases held

theorem push (balanced : Balanced objects outside) :
    Balanced (objects.push .fresh) (⟨objects.size⟩ ::ₘ outside) where
  counts id := by
    have same : targets (objects.push .fresh).toList = targets objects.toList := by
      simp only [targets, Array.toList_push, List.flatMap_append, List.flatMap_cons,
        references_fresh, List.flatMap_nil, List.append_nil]
    rw [same, holdersAt, Array.getElem?_push]
    split
    next new =>
      obtain ⟨j⟩ := id
      obtain rfl : j = objects.size := new
      have before := balanced.counts ⟨objects.size⟩
      have absent : holdersAt objects ⟨objects.size⟩ = 0 := holdersAt_of_le (Nat.le_refl _)
      rw [Multiset.count_cons_self]
      change 1 = _
      omega
    next old =>
      have differ : id ≠ ⟨objects.size⟩ := fun h => old (congrArg ObjectId.index h)
      rw [Multiset.count_cons_of_ne differ]
      exact balanced.counts id
  dead o mem died := by
    obtain old | rfl := Array.mem_push.mp mem
    · exact balanced.dead o old died
    · rfl

theorem hold (balanced : Balanced objects outside) (inside : id.index < objects.size) :
    Balanced (objects.modify id.index fun o => { o with holders := o.holders + 1 })
      (id ::ₘ outside) := by
  rw [modify_eq_set inside]
  refine balanced.set inside ?_ ?_ ?_
  · intro died
    cases died
  · rw [Multiset.count_cons_self]
    change _ + 1 + _ + (objects[id.index].references.count _) =
      _ + _ + objects[id.index].references.count _
    omega
  · intro other differ
    rw [Multiset.count_cons_of_ne differ]
    rfl

/-- A variable gets a new value; what it held before is then held from outside. -/
theorem putIvar (name : String) (balanced : Balanced objects (new.object?.toList + outside))
    (inside : id.index < objects.size) (alive : objects[id.index].isAlive = true) :
    Balanced
      (objects.modify id.index fun o => { o with ivars := o.ivars.insert name new })
      (((objects[id.index].ivars.get? name).bind Value.object?).toList + outside) := by
  rw [modify_eq_set inside]
  have replaced (other : ObjectId) := count_references_insert objects[id.index] name new other
  refine balanced.set inside ?_ ?_ ?_
  · intro died
    exact absurd alive (by rw [show objects[id.index].isAlive = false from died]; decide)
  · have own := replaced ⟨id.index⟩
    simp only [Multiset.count_add, Multiset.coe_count] at own ⊢
    omega
  · intro other _
    have here := replaced other
    simp only [Multiset.count_add, Multiset.coe_count] at here ⊢
    omega

end Balanced

end Counted

end ObjectRuntime
