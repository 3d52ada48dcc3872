import ObjectRuntime.Boot
import ObjectRuntime.Proofs.Collector.Connections
import ObjectRuntime.Store.Basic
import Mathlib.Data.Set.Card

/-!
# What a collection reports

The registry of a store lists each living object once, whatever was made, held, written and dropped
before: entries go only when their objects are dead. So a collection counts each living object once,
and counts as reachable those that the marks of the mark pass are on.
-/

set_option autoImplicit false

namespace ObjectRuntime

namespace Store

/-- The stores that a program can have made: a holder is added only to an object that lives. -/
inductive Made : Store → Prop where
  | empty : Made .empty
  | allocate {s : Store} (made : Made s) : Made s.allocate.2
  | hold {s : Store} (made : Made s) (id : ObjectId) (alive : s.isAlive id = true) :
      Made (s.hold id)
  | release {s : Store} (made : Made s) (ids : List ObjectId) : Made (s.release ids)
  | setIvar {s : Store} (made : Made s) (id : ObjectId) (name : String) (value : Value)
      (alive : ∀ target, value = .object target → s.isAlive target = true) :
      Made (s.setIvar id name value)
  | gate {s : Store} (made : Made s) (gate : Gate) : Made { s with gate }
  | collect {s : Store} (made : Made s) (marks : Array Bool) : Made (s.collectWith marks).2

/-- Each living object has exactly one entry. -/
structure Registered (s : Store) : Prop where
  inside : ∀ id ∈ s.registry, id.index < s.objects.size
  distinct : s.registry.toList.Nodup
  alive : ∀ id, s.isAlive id = true → id ∈ s.registry

variable {s : Store}

theorem isAlive_eq_true {id : ObjectId} :
    s.isAlive id = true ↔ ∃ o, s.objects[id.index]? = some o ∧ o.isAlive = true := by
  rw [isAlive]
  cases s.objects[id.index]? with
  | none => simp
  | some o => simp

/-! ### What revives no object -/

theorem size_dropHolders (objects : Array Counted) (work : List ObjectId) :
    (dropHolders objects work).size = objects.size := by
  fun_induction dropHolders objects work with
  | case1 => rfl
  | case2 objects id rest inside last ih => exact ih.trans (Array.size_set inside)
  | case3 objects id rest inside others ih => exact ih.trans (Array.size_set inside)
  | case4 objects id rest outside ih => exact ih

theorem alive_of_set {objects : Array Counted} {i j : Nat} {o after : Counted}
    (inside : i < objects.size) (before : after.isAlive = true → objects[i].isAlive = true)
    (at_j : (objects.set i after)[j]? = some o) (alive : o.isAlive = true) :
    ∃ o, objects[j]? = some o ∧ o.isAlive = true := by
  rw [Array.getElem?_set] at at_j
  split at at_j
  next same =>
    subst same
    obtain rfl := Option.some.inj at_j
    exact ⟨_, Array.getElem?_eq_getElem inside, before alive⟩
  next => exact ⟨o, at_j, alive⟩

theorem alive_of_dropHolders {objects : Array Counted} {work : List ObjectId} {j : Nat}
    {o : Counted} (at_j : (dropHolders objects work)[j]? = some o) (alive : o.isAlive = true) :
    ∃ o, objects[j]? = some o ∧ o.isAlive = true := by
  fun_induction dropHolders objects work generalizing o with
  | case1 => exact ⟨o, at_j, alive⟩
  | case2 objects id rest inside last ih =>
    obtain ⟨o, at_j, alive⟩ := ih at_j alive
    exact alive_of_set inside (fun dead => by cases dead) at_j alive
  | case3 objects id rest inside others ih =>
    obtain ⟨o, at_j, alive⟩ := ih at_j alive
    exact alive_of_set inside Counted.isAlive_of_dropHolder at_j alive
  | case4 objects id rest outside ih => exact ih at_j alive

theorem isAlive_of_release {ids : List ObjectId} {id : ObjectId}
    (alive : (s.release ids).isAlive id = true) : s.isAlive id = true := by
  obtain ⟨o, at_id, alive⟩ := isAlive_eq_true.1 alive
  exact isAlive_eq_true.2 (alive_of_dropHolders at_id alive)

theorem isAlive_of_hold {id other : ObjectId} (held : s.isAlive id = true)
    (alive : (s.hold id).isAlive other = true) : s.isAlive other = true := by
  by_cases same : id.index = other.index
  · have same : id = other := ObjectId.number_injective (congrArg (· + 1) same)
    exact same ▸ held
  · obtain ⟨o, at_id, alive⟩ := isAlive_eq_true.1 alive
    rw [hold, Array.getElem?_modify, if_neg same] at at_id
    exact isAlive_eq_true.2 ⟨o, at_id, alive⟩

theorem isAlive_of_putIvar {id other : ObjectId} {name : String} {value : Value}
    (alive : (s.putIvar id name value).isAlive other = true) : s.isAlive other = true := by
  obtain ⟨o, at_id, alive⟩ := isAlive_eq_true.1 alive
  rw [putIvar, Array.getElem?_modify] at at_id
  split at at_id
  next =>
    obtain ⟨before, found, rfl⟩ := Option.map_eq_some_iff.1 at_id
    exact isAlive_eq_true.2 ⟨before, found, alive⟩
  next => exact isAlive_eq_true.2 ⟨o, at_id, alive⟩

structure Wanes (s after : Store) : Prop where
  size : after.objects.size = s.objects.size
  alive : ∀ id, after.isAlive id = true → s.isAlive id = true

theorem Wanes.trans {t after : Store} (first : s.Wanes t) (second : t.Wanes after) :
    s.Wanes after :=
  ⟨second.size.trans first.size, fun id alive => first.alive id (second.alive id alive)⟩

theorem wanes_of_objects {after : Store} (same : after.objects = s.objects) : s.Wanes after := by
  constructor
  · rw [same]
  · intro id alive
    rwa [isAlive, same] at alive

theorem wanes_hold {id : ObjectId} (alive : s.isAlive id = true) : s.Wanes (s.hold id) :=
  ⟨Array.size_modify, fun _ => isAlive_of_hold alive⟩

theorem wanes_release (s : Store) (ids : List ObjectId) : s.Wanes (s.release ids) :=
  ⟨size_dropHolders .., fun _ => isAlive_of_release⟩

theorem wanes_putIvar (s : Store) (id : ObjectId) (name : String) (value : Value) :
    s.Wanes (s.putIvar id name value) :=
  ⟨Array.size_modify, fun _ => isAlive_of_putIvar⟩

theorem wanes_setIvar (id : ObjectId) (name : String) {value : Value}
    (alive : ∀ target, value = .object target → s.isAlive target = true) :
    s.Wanes (s.setIvar id name value) := by
  have held : s.Wanes (Store.setIvar.holdValue s value) := by
    cases value with
    | object target => exact wanes_hold (alive target rfl)
    | int | float => exact wanes_of_objects rfl
  have put := held.trans (wanes_putIvar _ id name value)
  unfold Store.setIvar
  split
  next old _ => exact put.trans (wanes_release _ [old])
  next => exact put

theorem tables_setIvar (s : Store) (id : ObjectId) (name : String) (value : Value) :
    (s.setIvar id name value).registry = s.registry ∧
      (s.setIvar id name value).limit = s.limit := by
  have held : (Store.setIvar.holdValue s value).registry = s.registry ∧
      (Store.setIvar.holdValue s value).limit = s.limit := by
    cases value with
    | object | int | float => exact ⟨rfl, rfl⟩
  unfold Store.setIvar
  split
  next => exact held
  next => exact held

namespace Registered

theorem of_wanes (registered : s.Registered) {after : Store} (wanes : s.Wanes after)
    (registry : after.registry = s.registry) : after.Registered := by
  refine ⟨?_, registry ▸ registered.distinct, ?_⟩
  · rw [registry, wanes.size]
    exact registered.inside
  · rw [registry]
    exact fun id alive => registered.alive id (wanes.alive id alive)

theorem prune (registered : s.Registered) : s.prune.Registered := by
  refine ⟨?_, ?_, ?_⟩
  · intro id mem
    exact registered.inside id (Array.mem_filter.1 mem).1
  · change (s.registry.filter s.isAlive).toList.Nodup
    rw [Array.toList_filter]
    exact registered.distinct.filter _
  · intro id alive
    exact Array.mem_filter.2 ⟨registered.alive id alive, alive⟩

theorem allocate (registered : s.Registered) : s.allocate.2.Registered := by
  have push : ∀ {t : Store}, t.Registered → t.objects = s.objects →
      Registered { t with
        objects := t.objects.push .fresh
        registry := t.registry.push ⟨s.objects.size⟩ } := by
    intro t registered same
    refine ⟨?_, ?_, ?_⟩
    · intro id mem
      change id.index < (t.objects.push .fresh).size
      rw [Array.size_push]
      obtain before | rfl := Array.mem_push.1 mem
      · exact Nat.lt_succ_of_lt (registered.inside id before)
      · rw [same]
        exact Nat.lt_succ_self _
    · change (t.registry.push ⟨s.objects.size⟩).toList.Nodup
      rw [Array.toList_push, List.nodup_append]
      refine ⟨registered.distinct, List.nodup_singleton _, ?_⟩
      rintro id mem _ new rfl
      obtain rfl := List.mem_singleton.1 new
      have inside := registered.inside _ (Array.mem_toList_iff.1 mem)
      rw [same] at inside
      exact Nat.lt_irrefl _ inside
    · intro id alive
      obtain ⟨o, at_id, alive⟩ := isAlive_eq_true.1 alive
      rw [Array.getElem?_push] at at_id
      split at at_id
      next new =>
        rw [same] at new
        have new : id = ⟨s.objects.size⟩ := ObjectId.number_injective (congrArg (· + 1) new)
        exact Array.mem_push.2 (.inr new)
      next =>
        have before : t.isAlive id = true := isAlive_eq_true.2 ⟨o, at_id, alive⟩
        exact Array.mem_push.2 (.inl (registered.alive id before))
  unfold Store.allocate
  split
  next => exact push registered.prune rfl
  next => exact push registered rfl

theorem hold (registered : s.Registered) {id : ObjectId} (alive : s.isAlive id = true) :
    (s.hold id).Registered :=
  registered.of_wanes (wanes_hold alive) rfl

theorem release (registered : s.Registered) (ids : List ObjectId) : (s.release ids).Registered :=
  registered.of_wanes (wanes_release s ids) rfl

theorem setIvar (registered : s.Registered) (id : ObjectId) (name : String) {value : Value}
    (alive : ∀ target, value = .object target → s.isAlive target = true) :
    (s.setIvar id name value).Registered :=
  registered.of_wanes (wanes_setIvar id name alive) (tables_setIvar s id name value).1

theorem collectWith (registered : s.Registered) (marks : Array Bool) :
    (s.collectWith marks).2.Registered := by
  have gated : ∀ gate, Registered { s with gate } :=
    fun _ => ⟨registered.inside, registered.distinct, registered.alive⟩
  unfold Store.collectWith
  dsimp only
  split
  next => exact (gated _).prune
  next => exact gated _

end Registered

theorem Made.registered (made : s.Made) : s.Registered := by
  induction made with
  | empty => exact ⟨nofun, List.nodup_nil, nofun⟩
  | allocate _ ih => exact ih.allocate
  | hold _ id alive ih => exact ih.hold alive
  | release _ ids ih => exact ih.release ids
  | setIvar _ id name value alive ih => exact ih.setIvar id name alive
  | gate _ gate ih => exact ⟨ih.inside, ih.distinct, ih.alive⟩
  | collect _ marks ih => exact ih.collectWith marks

theorem Registered.size_filter (registered : s.Registered) (p : ObjectId → Bool)
    (lives : ∀ id, p id = true → s.isAlive id = true) :
    (s.registry.filter p).size = {id | p id = true}.ncard := by
  have distinct : (s.registry.toList.filter p).Nodup := registered.distinct.filter p
  have same : {id | p id = true} = ((s.registry.toList.filter p).toFinset : Set ObjectId) := by
    ext id
    rw [List.coe_toFinset, Set.mem_ofPred_eq, Set.mem_ofPred_eq, List.mem_filter,
      Array.mem_toList_iff]
    exact ⟨fun holds => ⟨registered.alive id (lives id holds), holds⟩, fun both => both.2⟩
  rw [same, Set.ncard_coe_finset, List.toFinset_card_of_nodup distinct, ← Array.toList_filter,
    Array.length_toList]

theorem Made.collectWith_report (made : s.Made) (enabled : s.gate.enabled = true)
    (marks : Array Bool) :
    (s.collectWith marks).1 = some
      { live := {id | s.isAlive id = true}.ncard
        reachable := {id | s.isAlive id = true ∧ Graph.isMarked marks id.index = true}.ncard
        unreachable := {id | s.isAlive id = true}.ncard -
          {id | s.isAlive id = true ∧ Graph.isMarked marks id.index = true}.ncard } := by
  have live := made.registered.size_filter s.isAlive fun _ alive => alive
  have reachable := made.registered.size_filter
    (fun id => Graph.isMarked marks id.index && s.isAlive id)
    fun _ both => (Bool.and_eq_true_iff.1 both).2
  have allowed : s.gate.request.1 = true := by
    rw [Gate.request, if_pos enabled]
  simp only [Bool.and_eq_true_iff, and_comm (b := s.isAlive _ = true)] at reachable
  unfold collectWith
  dsimp only
  rw [if_pos allowed, ← live, ← reachable, ← Array.filter_filter]
  rfl

theorem Registered.finite (registered : s.Registered) : {id | s.isAlive id = true}.Finite := by
  refine (List.finite_toSet s.registry.toList).subset ?_
  exact fun id alive => Array.mem_toList_iff.2 (registered.alive id alive)

/-! ### Plain objects -/

def Holds (s : Store) (id target : ObjectId) : Prop :=
  ∃ o, s.objects[id.index]? = some o ∧ target ∈ o.references

theorem leads_iff_holds {id target : ObjectId} :
    Graph.Leads s.successors s.objects.size id.index target.index ↔ s.Holds id target := by
  constructor
  · rintro ⟨inside, next⟩
    rw [successors, Array.getElem?_eq_getElem inside, Option.map_some, Option.getD_some] at next
    obtain ⟨found, mem, same⟩ := List.mem_map.1 next
    have same : found = target := ObjectId.number_injective (congrArg (· + 1) same)
    exact ⟨_, Array.getElem?_eq_getElem inside, same ▸ mem⟩
  · rintro ⟨o, at_id, mem⟩
    obtain ⟨inside, -⟩ := Array.getElem?_eq_some_iff.1 at_id
    refine ⟨inside, ?_⟩
    rw [successors, at_id, Option.map_some, Option.getD_some]
    exact List.mem_map_of_mem mem

theorem isMarked_marks_iff {roots : List ObjectId} {id : ObjectId}
    (present : id.index < s.objects.size) :
    Graph.isMarked (s.marks roots) id.index = true ↔
      ∃ r ∈ roots, Relation.ReflTransGen s.Holds r id := by
  rw [marks, Graph.isMarked_iff_of_visits Graph.visits_marksFrom]
  constructor
  · rintro ⟨-, _, numbered, path⟩
    obtain ⟨r, is_root, rfl⟩ := List.mem_map.1 numbered
    exact ⟨r, is_root, path.lift ObjectId.mk fun _ _ leads => leads_iff_holds.1 leads⟩
  · rintro ⟨r, is_root, path⟩
    exact ⟨present, r.index, List.mem_map_of_mem is_root,
      path.lift ObjectId.index fun _ _ holds => leads_iff_holds.2 holds⟩

theorem isAlive_lt {id : ObjectId} (alive : s.isAlive id = true) : id.index < s.objects.size := by
  obtain ⟨o, at_id, -⟩ := isAlive_eq_true.1 alive
  exact (Array.getElem?_eq_some_iff.1 at_id).1

theorem Made.collect_report (made : s.Made) (enabled : s.gate.enabled = true)
    (roots : List ObjectId) :
    (s.collect roots).1 = some
      { live := {id | s.isAlive id = true}.ncard
        reachable := {id | s.isAlive id = true ∧
          ∃ r ∈ roots, Relation.ReflTransGen s.Holds r id}.ncard
        unreachable := {id | s.isAlive id = true}.ncard - {id | s.isAlive id = true ∧
          ∃ r ∈ roots, Relation.ReflTransGen s.Holds r id}.ncard } := by
  have same : {id | s.isAlive id = true ∧ Graph.isMarked (s.marks roots) id.index = true} =
      {id | s.isAlive id = true ∧ ∃ r ∈ roots, Relation.ReflTransGen s.Holds r id} :=
    Set.ext fun id => and_congr_right fun alive => isMarked_marks_iff (isAlive_lt alive)
  rw [Store.collect, made.collectWith_report enabled, same]

/-! ### Objects, frames, methods and blocks -/

/-- A collection of the objects of a machine, from any objects, frames, methods and blocks: every
mark pass ends, there is one, and whatever the order of its visits, the marks are the same and the
report has the number of living objects and the number of those that a path of references leads to
from a root. The others make up the rest. -/
theorem collection_counts_connected (made : s.Made) (enabled : s.gate.enabled = true) (m : Machine)
    (counted : m.heap.size = s.objects.size) (roots : List Entity) :
    (WellFounded fun after before => Graph.Visit m.successors before after) ∧
    m.MarksFrom (roots.flatMap Entity.nodes) (m.marksOf (roots.flatMap Entity.nodes)) ∧
    ∀ marks, m.MarksFrom (roots.flatMap Entity.nodes) marks →
      marks = m.marksOf (roots.flatMap Entity.nodes) ∧
      ∃ report, (s.collectWith marks).1 = some report ∧
        report.live = {id | s.isAlive id = true}.ncard ∧
        report.reachable =
          {id | s.isAlive id = true ∧ ∃ r ∈ roots, m.Connects r (.object id)}.ncard ∧
        report.reachable ≤ report.live ∧
        report.unreachable = report.live - report.reachable ∧
        report.live = report.reachable + report.unreachable := by
  refine ⟨Graph.visit_wellFounded m.successors, Machine.marksFrom_marksOf _, ?_⟩
  intro marks pass
  have same : {id | s.isAlive id = true ∧ Graph.isMarked marks id.index = true} =
      {id | s.isAlive id = true ∧ ∃ r ∈ roots, m.Connects r (.object id)} :=
    Set.ext fun id => and_congr_right fun alive => pass.object_iff (counted ▸ isAlive_lt alive)
  have fewer : {id | s.isAlive id = true ∧ ∃ r ∈ roots, m.Connects r (.object id)}.ncard ≤
      {id | s.isAlive id = true}.ncard :=
    Set.ncard_le_ncard (fun _ both => both.1) made.registered.finite
  refine ⟨pass.eq_marksOf, _, made.collectWith_report enabled marks, rfl, congrArg Set.ncard same,
    ?_, rfl, ?_⟩
  · rw [same]
    exact fewer
  · rw [same]
    exact (Nat.add_sub_cancel' fewer).symm

/-- Two objects that hold each other, and a third. -/
def circular : Store :=
  (Store.empty.allocate.2.allocate.2.allocate.2.setIvar ⟨0⟩ "@next" (.object ⟨1⟩)).setIvar ⟨1⟩
    "@next" (.object ⟨0⟩)

def circularMachine : Machine :=
  { Machine.boot .standard with
    heap := ⟨#[{ Object.ofPayload Core.object.id .plain with ivars := ⟨[("@next", .object ⟨1⟩)]⟩ },
      { Object.ofPayload Core.object.id .plain with ivars := ⟨[("@next", .object ⟨0⟩)]⟩ },
      .ofPayload Core.object.id .plain], .opened⟩ }

theorem collection_counts_connected_circular :
    circular.Made ∧ circular.gate.enabled = true ∧
    circularMachine.heap.size = circular.objects.size ∧
    ∃ report, (circular.collectWith (circularMachine.marksOf [.object ⟨0⟩])).1 = some report ∧
      report.reachable = {id | circular.isAlive id = true ∧
        ∃ r ∈ [Entity.object ⟨0⟩], circularMachine.Connects r (.object id)}.ncard ∧
      report.live = report.reachable + report.unreachable := by
  have three : Store.empty.allocate.2.allocate.2.allocate.2.Made :=
    .allocate (.allocate (.allocate .empty))
  have made : circular.Made := by
    refine .setIvar (.setIvar three _ _ _ ?_) _ _ _ ?_
    · rintro _ ⟨⟩
      decide
    · rintro _ ⟨⟩
      decide
  have enabled : circular.gate.enabled = true := by decide
  have counted : circularMachine.heap.size = circular.objects.size := by decide
  obtain ⟨-, pass, reports⟩ :=
    collection_counts_connected made enabled circularMachine counted [.object ⟨0⟩]
  obtain ⟨-, report, found, -, reachable, -, -, sum⟩ := reports _ pass
  exact ⟨made, enabled, counted, report, found, reachable, sum⟩

end Store

end ObjectRuntime
