import ObjectRuntime.Proofs.Collector.Cascade
import ObjectRuntime.Store.Transcript

/-!
# How long plain objects live

Whatever is made, kept, let go and linked, an object lives as long as it has a holder: a handle, a
root, or a variable of an object that lives. What a handle or a root leads to lives; the converse
holds where no object leads to itself.
-/

set_option autoImplicit false

namespace ObjectRuntime

open Relation (ReflTransGen TransGen)

namespace Store

/-- A store that a program can have made, with the handles and the roots it has then. A handle or a
root may be added for any object that lives. -/
inductive Held : Store → Multiset ObjectId → Multiset ObjectId → Prop where
  | empty : Held .empty 0 0
  | allocate {s : Store} {handles roots : Multiset ObjectId} (held : Held s handles roots) :
      Held s.allocate.2 (s.allocate.1 ::ₘ handles) roots
  | keep {s : Store} {handles roots : Multiset ObjectId} (held : Held s handles roots)
      (id : ObjectId) (alive : s.isAlive id = true) : Held (s.hold id) (id ::ₘ handles) roots
  | release {s : Store} {handles roots : Multiset ObjectId} (held : Held s handles roots)
      (ids : List ObjectId) (own : ↑ids ≤ handles) : Held (s.release ids) (handles - ids) roots
  | root {s : Store} {handles roots : Multiset ObjectId} (held : Held s handles roots)
      (id : ObjectId) (alive : s.isAlive id = true) : Held (s.hold id) handles (id ::ₘ roots)
  | unroot {s : Store} {handles roots : Multiset ObjectId} (held : Held s handles roots)
      (ids : List ObjectId) (own : ↑ids ≤ roots) : Held (s.release ids) handles (roots - ids)
  | setIvar {s : Store} {handles roots : Multiset ObjectId} (held : Held s handles roots)
      (id : ObjectId) (name : String) (value : Value) (alive : s.isAlive id = true)
      (target : ∀ target, value = .object target → s.isAlive target = true) :
      Held (s.setIvar id name value) handles roots
  | gate {s : Store} {handles roots : Multiset ObjectId} (held : Held s handles roots)
      (gate : Gate) : Held { s with gate } handles roots
  | collect {s : Store} {handles roots : Multiset ObjectId} (held : Held s handles roots)
      (marks : Array Bool) : Held (s.collectWith marks).2 handles roots

/-- How many hold the object: handles, roots and variables of living objects. -/
def holderCount (s : Store) (handles roots : Multiset ObjectId) (id : ObjectId) : Nat :=
  handles.count id + roots.count id +
    (Counted.targets (s.objects.toList.filter Counted.isAlive)).count id

def Acyclic (s : Store) : Prop := ∀ id, ¬ TransGen s.Holds id id

variable {s : Store} {handles roots outside : Multiset ObjectId} {id : ObjectId}

abbrev Balanced (s : Store) (outside : Multiset ObjectId) : Prop :=
  Counted.Balanced s.objects outside

theorem isAlive_iff : s.isAlive id = true ↔ 0 < Counted.holdersAt s.objects id := by
  rw [isAlive, Counted.holdersAt]
  cases s.objects[id.index]? with
  | none => simp
  | some o => simp [Counted.isAlive, Nat.pos_iff_ne_zero]

/-! ### Operations keep the counts -/

theorem objects_allocate : s.allocate.2.objects = s.objects.push .fresh := by
  unfold allocate
  dsimp only
  split <;> rfl

theorem objects_collectWith (marks : Array Bool) : (s.collectWith marks).2.objects = s.objects := by
  unfold collectWith
  dsimp only
  split <;> rfl

theorem Balanced.release {ids : List ObjectId} (balanced : s.Balanced outside)
    (own : ↑ids ≤ outside) : (s.release ids).Balanced (outside - ids) := by
  refine Counted.Balanced.dropHolders ?_
  rw [add_tsub_cancel_of_le own]
  exact balanced

theorem ivar?_eq (inside : id.index < s.objects.size) (name : String) :
    s.ivar? id name = s.objects[id.index].ivars.get? name := by
  rw [ivar?, Array.getElem?_eq_getElem inside, Option.bind_some]

theorem Balanced.holdValue (balanced : s.Balanced outside) {value : Value}
    (target : ∀ target, value = .object target → s.isAlive target = true) :
    (Store.setIvar.holdValue s value).Balanced (value.object?.toList + outside) := by
  cases value with
  | object id => exact Counted.Balanced.hold balanced (isAlive_lt (target id rfl))
  | int | float => rwa [Value.object?, Option.toList_none, Multiset.coe_nil, zero_add]

theorem isAlive_hold {other : ObjectId} (alive : s.isAlive id = true) :
    (s.hold other).isAlive id = true := by
  obtain ⟨o, at_id, lives⟩ := isAlive_eq_true.1 alive
  rw [isAlive_eq_true, hold, Array.getElem?_modify, at_id]
  split
  next => exact ⟨_, rfl, rfl⟩
  next => exact ⟨o, rfl, lives⟩

theorem isAlive_holdValue (value : Value) (alive : s.isAlive id = true) :
    (Store.setIvar.holdValue s value).isAlive id = true := by
  cases value with
  | object target => exact isAlive_hold alive
  | int | float => exact alive

theorem ivar?_hold (other : ObjectId) (name : String) :
    (s.hold other).ivar? id name = s.ivar? id name := by
  rw [ivar?, ivar?, hold, Array.getElem?_modify]
  split
  next => cases s.objects[id.index]? <;> rfl
  next => rfl

theorem ivar?_holdValue (value : Value) (name : String) :
    (Store.setIvar.holdValue s value).ivar? id name = s.ivar? id name := by
  cases value with
  | object target => exact ivar?_hold target name
  | int | float => rfl

theorem Balanced.setIvar (balanced : s.Balanced outside) (alive : s.isAlive id = true)
    (name : String) {value : Value}
    (target : ∀ target, value = .object target → s.isAlive target = true) :
    (s.setIvar id name value).Balanced outside := by
  have lives := isAlive_holdValue value alive
  have inside := isAlive_lt lives
  obtain ⟨o, at_id, o_alive⟩ := isAlive_eq_true.1 lives
  obtain ⟨_, rfl⟩ := Array.getElem?_eq_some_iff.1 at_id
  have put := Counted.Balanced.putIvar name (balanced.holdValue target) inside o_alive
  rw [← ivar?_eq inside, ivar?_holdValue] at put
  unfold Store.setIvar
  split
  next old before =>
    rw [before] at put
    exact Counted.Balanced.dropHolders put
  next differ =>
    have nothing : (s.ivar? id name).bind Value.object? = none := by
      cases before : s.ivar? id name with
      | none => rfl
      | some value =>
        cases value with
        | object old => exact absurd before (differ old)
        | int | float => rfl
    rw [nothing, Option.toList_none, Multiset.coe_nil, zero_add] at put
    exact put

theorem Held.made (held : Held s handles roots) : s.Made := by
  induction held with
  | empty => exact .empty
  | allocate _ ih => exact ih.allocate
  | keep _ id alive ih => exact ih.hold id alive
  | release _ ids _ ih => exact ih.release ids
  | root _ id alive ih => exact ih.hold id alive
  | unroot _ ids _ ih => exact ih.release ids
  | setIvar _ id name value _ target ih => exact ih.setIvar id name value target
  | gate _ gate ih => exact ih.gate gate
  | collect _ marks ih => exact ih.collect marks

theorem Held.balanced (held : Held s handles roots) : s.Balanced (handles + roots) := by
  induction held with
  | empty => exact ⟨fun _ => rfl, nofun⟩
  | allocate _ ih =>
    rw [Balanced, objects_allocate, Multiset.cons_add]
    exact Counted.Balanced.push ih
  | keep _ id alive ih =>
    rw [Multiset.cons_add]
    exact Counted.Balanced.hold ih (isAlive_lt alive)
  | @release s handles roots _ ids own ih =>
    rw [tsub_add_eq_add_tsub own]
    exact Balanced.release ih (own.trans (Multiset.le_add_right handles roots))
  | @root s handles roots _ id alive ih =>
    rw [Multiset.add_cons]
    exact Counted.Balanced.hold ih (isAlive_lt alive)
  | @unroot s handles roots _ ids own ih =>
    rw [← add_tsub_assoc_of_le own]
    exact Balanced.release ih (own.trans (Multiset.le_add_left roots handles))
  | setIvar _ id name value alive target ih => exact Balanced.setIvar ih alive name target
  | gate _ gate ih => exact ih
  | collect _ marks ih => rwa [Balanced, objects_collectWith]

/-! ### What lives -/

theorem mem_targets : id ∈ Counted.targets s.objects.toList ↔ ∃ holder, s.Holds holder id := by
  rw [Counted.targets, List.mem_flatMap]
  constructor
  · rintro ⟨o, mem, refers⟩
    obtain ⟨j, at_j⟩ := Array.mem_iff_getElem?.1 (Array.mem_toList_iff.1 mem)
    exact ⟨⟨j⟩, o, at_j, refers⟩
  · rintro ⟨holder, o, at_holder, refers⟩
    exact ⟨o, Array.mem_toList_iff.2 (Array.mem_iff_getElem?.2 ⟨_, at_holder⟩), refers⟩

theorem Balanced.isAlive_iff_held (balanced : s.Balanced outside) :
    s.isAlive id = true ↔ id ∈ outside ∨ ∃ holder, s.Holds holder id := by
  rw [isAlive_iff, balanced.counts, Nat.add_pos_iff_pos_or_pos, Multiset.count_pos,
    List.count_pos_iff, mem_targets]

theorem Balanced.alive_of_holds (balanced : s.Balanced outside) {holder : ObjectId}
    (holds : s.Holds holder id) : s.isAlive holder = true := by
  obtain ⟨o, at_holder, refers⟩ := holds
  rw [isAlive_eq_true]
  refine ⟨o, at_holder, ?_⟩
  by_contra dead
  have none := balanced.dead o (Array.mem_iff_getElem?.2 ⟨_, at_holder⟩) (Bool.eq_false_iff.2 dead)
  rw [none] at refers
  cases refers

theorem Balanced.isAlive_of_reachable (balanced : s.Balanced outside) {r : ObjectId}
    (held : r ∈ outside) (path : ReflTransGen s.Holds r id) : s.isAlive id = true := by
  cases path with
  | refl => exact balanced.isAlive_iff_held.2 (.inl held)
  | tail _ holds => exact balanced.isAlive_iff_held.2 (.inr ⟨_, holds⟩)

/-- Going back from holder to holder ends outside, for want of circles. -/
theorem Balanced.reachable_of_isAlive (balanced : s.Balanced outside)
    (finite : {id | s.isAlive id = true}.Finite) (acyclic : s.Acyclic)
    (alive : s.isAlive id = true) : ∃ r ∈ outside, ReflTransGen s.Holds r id := by
  have order : IsStrictOrder ObjectId (TransGen s.Holds) :=
    { irrefl := acyclic, trans := fun _ _ _ => TransGen.trans }
  have founded : {id | s.isAlive id = true}.WellFoundedOn (TransGen s.Holds) :=
    finite.wellFoundedOn
  refine founded.induction (P := fun id => ∃ r ∈ outside, ReflTransGen s.Holds r id) alive ?_
  intro id alive ih
  obtain outer | ⟨holder, holds⟩ := balanced.isAlive_iff_held.1 alive
  · exact ⟨id, outer, .refl⟩
  · obtain ⟨r, outer, path⟩ := ih holder (balanced.alive_of_holds holds) (.single holds)
    exact ⟨r, outer, path.tail holds⟩

theorem Balanced.holdersAt_eq (balanced : s.Balanced (handles + roots)) :
    Counted.holdersAt s.objects id = s.holderCount handles roots id := by
  have dead : ∀ o ∈ s.objects.toList, o.isAlive = false → o.references = [] :=
    fun o mem => balanced.dead o (Array.mem_toList_iff.1 mem)
  rw [balanced.counts, holderCount, Counted.targets_alive dead, Multiset.count_add]

/-- An object lives exactly while it has a holder: a handle, a root or a variable of an object that
lives. So all that handles and roots lead to lives, the count of living objects is exact, and where
no object leads to itself nothing else lives. Whatever order the holders that fall away are taken
in, all their sequences end, and they leave what the recursion through dying objects leaves. -/
theorem lives_while_held (held : Held s handles roots) :
    (∀ id, s.isAlive id = true ↔ 0 < s.holderCount handles roots id) ∧
    (∀ r ∈ handles + roots, ∀ id, ReflTransGen s.Holds r id → s.isAlive id = true) ∧
    s.living = {id | s.isAlive id = true}.ncard ∧
    (s.Acyclic → ∀ id,
      s.isAlive id = true ↔ ∃ r ∈ handles + roots, ReflTransGen s.Holds r id) ∧
    (WellFounded fun after before => Counted.Pop before after) ∧
    ∀ (ids : List ObjectId) objects,
      (ReflTransGen Counted.Pop (s.objects, ↑ids) (objects, 0) ↔
        objects = (s.release ids).objects) ∧
      (Counted.Cascade s.objects ids objects ↔ objects = (s.release ids).objects) := by
  have balanced := held.balanced
  have registered := held.made.registered
  refine ⟨fun id => ?_, fun r outer id path => balanced.isAlive_of_reachable outer path,
    registered.size_filter s.isAlive fun _ alive => alive, fun acyclic id => ⟨?_, ?_⟩,
    Counted.pop_wellFounded, fun ids objects => ⟨Counted.pops_iff, Counted.cascade_iff⟩⟩
  · rw [isAlive_iff, balanced.holdersAt_eq]
  · exact balanced.reachable_of_isAlive registered.finite acyclic
  · rintro ⟨r, outer, path⟩
    exact balanced.isAlive_of_reachable outer path

/-- The first object refers to the other two, and the second to the third. -/
def diamond : Store :=
  ((Store.empty.allocate.2.allocate.2.allocate.2.setIvar ⟨0⟩ "@left" (.object ⟨1⟩)).setIvar ⟨0⟩
    "@right" (.object ⟨2⟩)).setIvar ⟨1⟩ "@next" (.object ⟨2⟩)

theorem diamond_held : Held diamond {⟨2⟩, ⟨1⟩, ⟨0⟩} 0 := by
  have three : Held Store.empty.allocate.2.allocate.2.allocate.2 {⟨2⟩, ⟨1⟩, ⟨0⟩} 0 :=
    .allocate (.allocate (.allocate .empty))
  have left := three.setIvar ⟨0⟩ "@left" (.object ⟨1⟩) (by decide) (by rintro _ ⟨⟩; decide)
  have right := left.setIvar ⟨0⟩ "@right" (.object ⟨2⟩) (by decide) (by rintro _ ⟨⟩; decide)
  exact right.setIvar ⟨1⟩ "@next" (.object ⟨2⟩) (by decide) (by rintro _ ⟨⟩; decide)

theorem acyclic_of_lt {objects : Array Counted} (same : s.objects = objects)
    (rises : ∀ i : Fin objects.size, ∀ id ∈ objects[i].references, i.val < id.index) :
    s.Acyclic := by
  subst same
  have later : ∀ {holder id}, s.Holds holder id → holder.index < id.index := by
    rintro holder id ⟨o, at_holder, refers⟩
    obtain ⟨inside, rfl⟩ := Array.getElem?_eq_some_iff.1 at_holder
    exact rises ⟨_, inside⟩ _ refers
  have above : ∀ {first last}, TransGen s.Holds first last → first.index < last.index := by
    intro first last path
    induction path with
    | single holds => exact later holds
    | tail _ holds ih => exact ih.trans (later holds)
  exact fun id circle => Nat.lt_irrefl _ (above circle)

theorem diamond_released : (diamond.release [⟨1⟩, ⟨2⟩]).objects =
    #[⟨1, ⟨[("@left", .object ⟨1⟩), ("@right", .object ⟨2⟩)]⟩⟩, ⟨1, ⟨[("@next", .object ⟨2⟩)]⟩⟩,
      ⟨2, .empty⟩] := by
  have first : Counted.freedAt diamond.objects ⟨1⟩ = [] := by decide
  have second : Counted.freedAt (Counted.dropAt diamond.objects ⟨1⟩) ⟨2⟩ = [] := by decide
  rw [release, Counted.dropHolders_cons, first, List.nil_append, Counted.dropHolders_cons, second,
    List.nil_append, dropHolders]
  rfl

/-- Only the handle of the first object is left, and it keeps all three. -/
theorem lives_while_held_diamond :
    Held (diamond.release [⟨1⟩, ⟨2⟩]) {⟨0⟩} 0 ∧ (diamond.release [⟨1⟩, ⟨2⟩]).Acyclic ∧
    ∀ id, (diamond.release [⟨1⟩, ⟨2⟩]).isAlive id = true ↔
      ∃ r ∈ ({⟨0⟩} + 0 : Multiset ObjectId),
        ReflTransGen (diamond.release [⟨1⟩, ⟨2⟩]).Holds r id := by
  have held : Held (diamond.release [⟨1⟩, ⟨2⟩]) {⟨0⟩} 0 :=
    diamond_held.release [⟨1⟩, ⟨2⟩] (by decide)
  have acyclic := acyclic_of_lt diamond_released (by decide)
  obtain ⟨-, -, -, reached, -⟩ := lives_while_held held
  exact ⟨held, acyclic, reached acyclic⟩

end Store

end ObjectRuntime
