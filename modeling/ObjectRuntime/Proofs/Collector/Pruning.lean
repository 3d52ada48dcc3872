import ObjectRuntime.Proofs.Collector.Lifetimes

/-!
# How large the registry becomes

Dead entries stay in the registry until it is pruned. That happens when a new object finds it full,
and at every collection; what is left may then double. So the registry has each living object once,
and never many more entries than objects have lived at one time. The second is an invariant of the
registry's length, its limit and the number of objects that lived before.
-/

set_option autoImplicit false

namespace ObjectRuntime

def ObjectId.word (id : ObjectId) : UInt64 := UInt64.ofNat id.number

namespace Store

/-- A step that makes no object. Any holders may be released. -/
inductive Upkeep (s : Store) : Store → Prop where
  | hold (id : ObjectId) (alive : s.isAlive id = true) : Upkeep s (s.hold id)
  | release (ids : List ObjectId) : Upkeep s (s.release ids)
  | setIvar (id : ObjectId) (name : String) (value : Value)
      (alive : ∀ target, value = .object target → s.isAlive target = true) :
      Upkeep s (s.setIvar id name value)
  | gate (gate : Gate) : Upkeep s { s with gate }
  | collect (marks : Array Bool) : Upkeep s (s.collectWith marks).2

/-- The objects that were handed out, in their order, the stores that there were before, and the
store that there is now. -/
inductive Lived : List ObjectId → List Store → Store → Prop where
  | empty : Lived [] [] .empty
  | allocate {handed : List ObjectId} {earlier : List Store} {s : Store}
      (lived : Lived handed earlier s) :
      Lived (handed ++ [s.allocate.1]) (s :: earlier) s.allocate.2
  | upkeep {handed : List ObjectId} {earlier : List Store} {s after : Store}
      (lived : Lived handed earlier s) (step : s.Upkeep after) : Lived handed (s :: earlier) after

noncomputable def population (s : Store) : Nat := {id | s.isAlive id = true}.ncard

noncomputable def peak (stores : List Store) : Nat := (stores.map population).foldr max 0

theorem peak_cons (s : Store) (earlier : List Store) :
    peak (s :: earlier) = max s.population (peak earlier) := rfl

variable {s t after : Store} {handed : List ObjectId} {earlier : List Store} {id : ObjectId}

/-! ### What steps do to the objects -/

theorem Upkeep.wanes (step : s.Upkeep after) : s.Wanes after := by
  cases step with
  | hold id alive => exact wanes_hold alive
  | release ids => exact wanes_release s ids
  | setIvar id name value alive => exact wanes_setIvar id name alive
  | gate gate => exact wanes_of_objects rfl
  | collect marks => exact wanes_of_objects (objects_collectWith marks)

theorem isAlive_allocate (old : id.index < s.objects.size) :
    s.allocate.2.isAlive id = s.isAlive id := by
  rw [isAlive, isAlive, objects_allocate, Array.getElem?_push_lt old, Array.getElem?_eq_getElem old]

structure Precedes (t s : Store) : Prop where
  size : t.objects.size ≤ s.objects.size
  alive : ∀ id : ObjectId, id.index < t.objects.size → s.isAlive id = true → t.isAlive id = true

theorem Precedes.trans (first : t.Precedes s) (second : s.Precedes after) : t.Precedes after := by
  refine ⟨first.size.trans second.size, ?_⟩
  intro id old alive
  exact first.alive id old (second.alive id (old.trans_le first.size) alive)

theorem Wanes.precedes (wanes : s.Wanes after) : s.Precedes after :=
  ⟨Nat.le_of_eq wanes.size.symm, fun id _ => wanes.alive id⟩

theorem precedes_allocate (s : Store) : s.Precedes s.allocate.2 := by
  constructor
  · rw [objects_allocate, Array.size_push]
    omega
  · intro id old alive
    rwa [isAlive_allocate old] at alive

/-! ### What steps do to the registry -/

theorem Upkeep.registry (step : s.Upkeep after) :
    after.registry = s.registry ∧ after.limit = s.limit ∨
      after.registry = s.prune.registry ∧ after.limit = s.prune.limit := by
  cases step with
  | hold | release | gate => exact .inl ⟨rfl, rfl⟩
  | setIvar id name value => exact .inl (tables_setIvar s id name value)
  | collect marks =>
    unfold Store.collectWith
    dsimp only
    split
    next => exact .inr ⟨rfl, rfl⟩
    next => exact .inl ⟨rfl, rfl⟩

theorem Registered.size_prune (registered : s.Registered) :
    s.prune.registry.size = s.population :=
  registered.size_filter s.isAlive fun _ alive => alive

/-! ### Histories -/

theorem Upkeep.made (step : s.Upkeep after) (made : s.Made) : after.Made := by
  cases step with
  | hold id alive => exact made.hold id alive
  | release ids => exact made.release ids
  | setIvar id name value alive => exact made.setIvar id name value alive
  | gate gate => exact made.gate gate
  | collect marks => exact made.collect marks

/-- The registry fits its limit, and the limit is due to a number of objects that lived before. -/
structure Bounded (earlier : List Store) (s : Store) : Prop where
  room : s.registry.size ≤ s.limit
  limit : s.limit ≤ max leastLimit (2 * peak earlier)

namespace Bounded

theorem later (bounded : Bounded earlier s) : Bounded (s :: earlier) s := by
  obtain ⟨room, limit⟩ := bounded
  refine ⟨room, ?_⟩
  rw [peak_cons]
  omega

/-- After pruning, the limit is due to the store that was pruned, and there is room for one more. -/
theorem prune (registered : s.Registered) (earlier : List Store) :
    Bounded (s :: earlier) s.prune ∧ s.prune.registry.size < s.prune.limit := by
  have size := registered.size_prune
  have least : leastLimit = 1024 := rfl
  have limit : s.prune.limit = max leastLimit (s.prune.registry.size * 2) := rfl
  have before := peak_cons s earlier
  refine ⟨⟨?_, ?_⟩, ?_⟩ <;> omega

theorem allocate (bounded : Bounded earlier s) (registered : s.Registered) :
    Bounded (s :: earlier) s.allocate.2 := by
  have push : ∀ {t : Store}, Bounded (s :: earlier) t → t.registry.size < t.limit →
      Bounded (s :: earlier) { t with
        objects := t.objects.push .fresh
        registry := t.registry.push ⟨s.objects.size⟩ } := by
    intro t bounded room
    refine ⟨?_, bounded.limit⟩
    change (t.registry.push _).size ≤ t.limit
    rw [Array.size_push]
    exact room
  unfold Store.allocate
  split
  next =>
    obtain ⟨bounded, room⟩ := Bounded.prune registered earlier
    exact push bounded room
  next free => exact push bounded.later (Nat.lt_of_not_le free)

theorem upkeep (bounded : Bounded earlier s) (registered : s.Registered) (step : s.Upkeep after) :
    Bounded (s :: earlier) after := by
  rcases step.registry with ⟨registry, limit⟩ | ⟨registry, limit⟩
  · obtain ⟨room, below⟩ := bounded.later
    constructor
    · rwa [registry, limit]
    · rwa [limit]
  · obtain ⟨⟨room, below⟩, -⟩ := Bounded.prune registered earlier
    constructor
    · rwa [registry, limit]
    · rwa [limit]

end Bounded

namespace Lived

theorem made (lived : Lived handed earlier s) : s.Made := by
  induction lived with
  | empty => exact .empty
  | allocate _ ih => exact ih.allocate
  | upkeep _ step ih => exact step.made ih

theorem bounded (lived : Lived handed earlier s) : Bounded earlier s := by
  induction lived with
  | empty => exact ⟨Nat.zero_le _, Nat.le_max_left _ _⟩
  | allocate before ih => exact ih.allocate before.made.registered
  | upkeep before step ih => exact ih.upkeep before.made.registered step

theorem precedes (lived : Lived handed earlier s) (mem : t ∈ earlier) : t.Precedes s := by
  induction lived with
  | empty => cases mem
  | @allocate handed earlier s _ ih =>
    rcases List.mem_cons.1 mem with rfl | mem
    · exact precedes_allocate t
    · exact (ih mem).trans (precedes_allocate s)
  | upkeep _ step ih =>
    rcases List.mem_cons.1 mem with rfl | mem
    · exact step.wanes.precedes
    · exact (ih mem).trans step.wanes.precedes

theorem handed_eq (lived : Lived handed earlier s) :
    handed = (List.range s.objects.size).map ObjectId.mk := by
  induction lived with
  | empty => rfl
  | allocate _ ih =>
    rw [ih, objects_allocate, Array.size_push, List.range_succ, List.map_append]
    rfl
  | upkeep _ step ih => rw [ih, step.wanes.size]

theorem allocations_eq (lived : Lived handed earlier s) : s.allocations = handed.length := by
  rw [lived.handed_eq, List.length_map, List.length_range]
  rfl

theorem mem_handed (lived : Lived handed earlier s) : id ∈ handed ↔ id.index < s.objects.size := by
  rw [lived.handed_eq, List.mem_map]
  constructor
  · rintro ⟨n, mem, rfl⟩
    exact List.mem_range.1 mem
  · intro old
    exact ⟨id.index, List.mem_range.2 old, rfl⟩

theorem words_rise (lived : Lived handed earlier s) (few : handed.length < 2 ^ 64) :
    (handed.map ObjectId.word).Pairwise (· < ·) := by
  have few : s.objects.size < 2 ^ 64 := lived.allocations_eq.trans_lt few
  rw [lived.handed_eq, List.map_map, List.pairwise_map]
  refine List.pairwise_lt_range.imp_of_mem ?_
  intro i j _ mem less
  have inside := List.mem_range.1 mem
  change UInt64.ofNat (i + 1) < UInt64.ofNat (j + 1)
  have left_fits : i + 1 < UInt64.size := by
    change i + 1 < 2 ^ 64
    omega
  have right_fits : j + 1 < UInt64.size := by
    change j + 1 < 2 ^ 64
    omega
  rw [UInt64.lt_iff_toNat_lt, UInt64.toNat_ofNat_of_lt' left_fits,
    UInt64.toNat_ofNat_of_lt' right_fits]
  omega

theorem living_eq (lived : Lived handed earlier s) :
    s.living = (handed.filter s.isAlive).length := by
  have registered := lived.made.registered
  have once : (handed.filter s.isAlive).Nodup := by
    rw [lived.handed_eq]
    refine (List.nodup_range.map ?_).filter _
    intro i j same
    exact congrArg ObjectId.index same
  have same : (s.registry.toList.filter s.isAlive).Perm (handed.filter s.isAlive) := by
    rw [List.perm_ext_iff_of_nodup (registered.distinct.filter _) once]
    intro id
    rw [List.mem_filter, List.mem_filter, Array.mem_toList_iff]
    apply and_congr_left
    intro alive
    exact ⟨fun _ => lived.mem_handed.2 (isAlive_lt alive), fun _ => registered.alive id alive⟩
  rw [living, ← Array.length_toList, Array.toList_filter, same.length_eq]

end Lived

/-! ### Objects that nobody keeps -/

theorem isAlive_of_allocate (alive : s.allocate.2.isAlive id = true) :
    id = s.allocate.1 ∨ s.isAlive id = true := by
  by_cases old : id.index < s.objects.size
  · rw [isAlive_allocate old] at alive
    exact .inr alive
  · left
    have inside := isAlive_lt alive
    rw [objects_allocate, Array.size_push] at inside
    apply ObjectId.number_injective
    change id.index + 1 = s.objects.size + 1
    omega

theorem isAlive_release_allocate (s : Store) :
    (s.allocate.2.release [s.allocate.1]).isAlive s.allocate.1 = false := by
  have inside : s.objects.size < (s.objects.push .fresh).size := by
    rw [Array.size_push]
    omega
  have new : (s.objects.push .fresh)[s.objects.size] = .fresh := Array.getElem_push_eq
  have one : (s.objects.push .fresh)[s.objects.size].holders = 1 := by
    rw [new]
    rfl
  change ((dropHolders s.allocate.2.objects [⟨s.objects.size⟩])[s.objects.size]?.map
    Counted.isAlive).getD false = false
  rw [objects_allocate, dropHolders, dif_pos inside, dif_pos one, new]
  change ((dropHolders ((s.objects.push .fresh).set s.objects.size .dead inside)
    [])[s.objects.size]?.map Counted.isAlive).getD false = false
  rw [dropHolders, Array.getElem?_set_self]
  rfl

theorem population_empty : Store.empty.population = 0 := by
  have nobody : {id | Store.empty.isAlive id = true} = ∅ :=
    Set.eq_empty_of_forall_notMem fun _ alive => Bool.false_ne_true alive
  rw [population, nobody, Set.ncard_empty]

theorem population_allocate_le (registered : s.Registered) :
    s.allocate.2.population ≤ s.population + 1 := by
  have covered : {id | s.allocate.2.isAlive id = true} ⊆
      insert s.allocate.1 {id | s.isAlive id = true} := fun _ alive => isAlive_of_allocate alive
  exact (Set.ncard_le_ncard covered (registered.finite.insert _)).trans (Set.ncard_insert_le _ _)

theorem population_release_allocate_le (registered : s.Registered) :
    (s.allocate.2.release [s.allocate.1]).population ≤ s.population := by
  apply Set.ncard_le_ncard _ registered.finite
  intro id alive
  rcases isAlive_of_allocate (isAlive_of_release alive) with rfl | before
  · rw [Set.mem_ofPred_eq, isAlive_release_allocate] at alive
    cases alive
  · exact before

/-- While objects are made that nobody keeps, one more lives than before, at most. -/
theorem Lived.churn (lived : Lived handed earlier s) (count : Nat) :
    ∃ handed' earlier', Lived handed' earlier' (Holding.churn count s) ∧
      handed'.length = handed.length + count ∧
      peak (Holding.churn count s :: earlier') ≤ max (peak (s :: earlier)) (s.population + 1) := by
  induction count generalizing handed earlier s with
  | zero => exact ⟨handed, earlier, lived, rfl, Nat.le_max_left _ _⟩
  | succ count ih =>
    have registered := lived.made.registered
    have made := population_allocate_le registered
    have dropped := population_release_allocate_le registered
    obtain ⟨handed', earlier', lived', length, bound⟩ :=
      ih (lived.allocate.upkeep (.release [s.allocate.1]))
    refine ⟨handed', earlier', lived', ?_, bound.trans ?_⟩
    · rw [length, List.length_append, List.length_singleton]
      omega
    · rw [peak_cons, peak_cons]
      omega

theorem live_collectWith (s : Store) (marks : Array Bool) :
    (s.collectWith marks).1.map Collected.live =
      if s.gate.enabled = true then some s.living else none := by
  unfold collectWith Gate.request
  by_cases enabled : s.gate.enabled = true
  · rw [if_pos enabled, if_pos enabled]
    rfl
  · rw [if_neg enabled, if_neg enabled]
    rfl

/-- A registry through any history of allocations, deaths and collections: the numbers of the
objects rise in the order in which they were handed out, no dead object lives again, each living one
has one entry, the registry and every collection count those that were handed out and live, and
there are never more entries than 1024 or twice the largest number of objects that lived at one time
before. -/
theorem registry_keeps_the_living (lived : Lived handed earlier s) (few : handed.length < 2 ^ 64) :
    (handed.map ObjectId.word).Pairwise (· < ·) ∧ s.allocations = handed.length ∧
    (∀ t ∈ earlier, ∀ id : ObjectId, id.index < t.allocations → t.isAlive id = false →
      s.isAlive id = false) ∧
    (∀ id, s.isAlive id = true → id ∈ handed ∧ s.registry.count id = 1) ∧
    s.living = (handed.filter s.isAlive).length ∧
    (∀ marks, (s.collectWith marks).1.map Collected.live =
      if s.gate.enabled = true then some (handed.filter s.isAlive).length else none) ∧
    s.tracked ≤ max 1024 (2 * peak earlier) := by
  have registered := lived.made.registered
  refine ⟨lived.words_rise few, lived.allocations_eq, ?_, ?_, lived.living_eq, ?_, ?_⟩
  · intro t mem id old dead
    apply Bool.eq_false_of_not_eq_true
    intro alive
    have revived := (lived.precedes mem).alive id old alive
    rw [dead] at revived
    cases revived
  · intro id alive
    refine ⟨lived.mem_handed.2 (isAlive_lt alive), ?_⟩
    rw [← Array.count_toList]
    exact List.count_eq_one_of_mem registered.distinct
      (Array.mem_toList_iff.2 (registered.alive id alive))
  · intro marks
    rw [live_collectWith, lived.living_eq]
  · exact lived.bounded.room.trans lived.bounded.limit

theorem registry_keeps_the_living_churn :
    (Holding.churn 100000 Store.empty).allocations = 100000 ∧
    (Holding.churn 100000 Store.empty).tracked ≤ 1024 := by
  obtain ⟨handed, earlier, lived, length, bound⟩ := Lived.empty.churn 100000
  have few : handed.length < 2 ^ 64 := by
    rw [length]
    decide
  obtain ⟨-, allocations, -, -, -, -, tracked⟩ := registry_keeps_the_living lived few
  have start : peak [Store.empty] = 0 := by
    rw [peak_cons, population_empty]
    rfl
  rw [peak_cons, start, population_empty] at bound
  refine ⟨allocations.trans length, ?_⟩
  omega

end Store

end ObjectRuntime
