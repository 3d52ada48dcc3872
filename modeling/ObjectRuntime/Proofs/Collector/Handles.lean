import Mathlib.Data.Multiset.OrderedMonoid
import ObjectRuntime.Proofs.Collector.Lifetimes

/-!
# Handles with names

A transcript of a store keeps its handles under names and its roots in a list. Each of its steps is
made of steps of stores with handles and roots, so what is said of how long objects live is said of
every transcript.
-/

set_option autoImplicit false

namespace ObjectRuntime

namespace Bindings

variable {α : Type}

theorem values_insert (b : Bindings α) (name : String) (value : α) :
    ((b.insert name value).values : Multiset α) + (b.get? name).toList = value ::ₘ b.values := by
  obtain ⟨entries⟩ := b
  change ((put entries name value).map (·.2) : Multiset α) + (find? entries name).toList =
    value ::ₘ (entries.map (·.2) : Multiset α)
  induction entries with
  | nil => rfl
  | cons entry rest ih =>
    obtain ⟨key, old⟩ := entry
    rw [put, find?]
    by_cases same : key = name
    · rw [if_pos same, if_pos same, Option.toList_some, Multiset.coe_add]
      exact Multiset.coe_eq_coe.mpr ((List.perm_append_singleton old _).cons value)
    · rw [if_neg same, if_neg same, List.map_cons, List.map_cons, ← Multiset.cons_coe,
        ← Multiset.cons_coe, Multiset.cons_add, ih, Multiset.cons_swap]

theorem nodup_insert {b : Bindings α} (distinct : b.keys.Nodup) (name : String) (value : α) :
    (b.insert name value).keys.Nodup := by
  obtain ⟨entries⟩ := b
  change ((put entries name value).map (·.1)).Nodup
  have kept : ∀ {entries : List (String × α)} {key},
      key ∈ (put entries name value).map (·.1) → key = name ∨ key ∈ entries.map (·.1) := by
    intro entries key mem
    induction entries with
    | nil => exact .inl (List.mem_singleton.mp mem)
    | cons entry rest ih =>
      rw [put] at mem
      split at mem
      · obtain rfl | mem := List.mem_cons.mp mem
        · exact .inl rfl
        · exact .inr (List.mem_cons_of_mem _ mem)
      · obtain rfl | mem := List.mem_cons.mp mem
        · exact .inr List.mem_cons_self
        · exact (ih mem).imp_right (List.mem_cons_of_mem _)
  induction entries with
  | nil => exact List.nodup_singleton name
  | cons entry rest ih =>
    obtain ⟨fresh, distinct⟩ := List.nodup_cons.mp distinct
    rw [put]
    split
    next same => exact List.nodup_cons.mpr ⟨same ▸ fresh, distinct⟩
    next differ =>
      refine List.nodup_cons.mpr ⟨fun mem => ?_, ih distinct⟩
      exact (kept mem).elim differ fresh

theorem nodup_erase {b : Bindings α} (distinct : b.keys.Nodup) (name : String) :
    (b.erase name).keys.Nodup := by
  have fewer : (b.erase name).keys.Sublist b.keys := List.filter_sublist.map _
  exact distinct.sublist fewer

theorem find?_eq_none {entries : List (String × α)} {name : String}
    (absent : name ∉ entries.map (·.1)) : find? entries name = none := by
  induction entries with
  | nil => rfl
  | cons entry rest ih =>
    obtain ⟨first, rest_absent⟩ := not_or.mp (mt List.mem_cons.mpr absent)
    rw [find?, if_neg (Ne.symm first), ih rest_absent]

theorem values_erase {b : Bindings α} (distinct : b.keys.Nodup) (name : String) :
    ((b.erase name).values : Multiset α) + (b.get? name).toList = b.values := by
  obtain ⟨entries⟩ := b
  change (((entries.filter fun entry => entry.1 != name).map (·.2) : List α) : Multiset α) +
    (find? entries name).toList = (entries.map (·.2) : Multiset α)
  induction entries with
  | nil => rfl
  | cons entry rest ih =>
    obtain ⟨key, value⟩ := entry
    obtain ⟨fresh, others⟩ := List.nodup_cons.mp distinct
    have rest_eq := ih others
    rw [find?]
    by_cases same : key = name
    · subst same
      rw [find?_eq_none fresh, Option.toList_none, Multiset.coe_nil, add_zero] at rest_eq
      rw [List.filter_cons_of_neg (by simp), if_pos rfl, List.map_cons, ← Multiset.cons_coe,
        ← rest_eq, Option.toList_some, Multiset.coe_singleton, add_comm, Multiset.singleton_add]
    · rw [List.filter_cons_of_pos (by simpa using same), if_neg same, List.map_cons, List.map_cons,
        ← Multiset.cons_coe, ← Multiset.cons_coe, Multiset.cons_add, rest_eq]

theorem mem_values {b : Bindings α} {name : String} {value : α} (bound : b.get? name = some value) :
    value ∈ b.values := by
  obtain ⟨entries⟩ := b
  change value ∈ entries.map (·.2)
  change find? entries name = some value at bound
  induction entries with
  | nil => cases bound
  | cons entry rest ih =>
    rw [find?] at bound
    split at bound
    next => exact List.mem_cons.mpr (.inl (Option.some.inj bound).symm)
    next => exact List.mem_cons_of_mem _ (ih bound)

end Bindings

namespace Store

variable {s : Store} {handles roots : Multiset ObjectId} {id : ObjectId}

theorem Held.isAlive (held : Held s handles roots) (own : id ∈ handles) : s.isAlive id = true :=
  held.balanced.isAlive_iff_held.2 (.inl (Multiset.mem_add.mpr (.inl own)))

theorem Held.releaseFrom {ids : List ObjectId} (held : Held s (ids + handles) roots) :
    Held (s.release ids) handles roots := by
  have released := held.release ids (Multiset.le_add_right _ _)
  rwa [add_tsub_cancel_left] at released

theorem Held.churn (held : Held s handles roots) (count : Nat) :
    Held (Holding.churn count s) handles roots := by
  induction count generalizing s with
  | zero => exact held
  | succ count ih =>
    refine ih (Held.releaseFrom ?_)
    rw [Multiset.coe_singleton, Multiset.singleton_add]
    exact held.allocate

theorem chain_succ (count : Nat) (last : Option ObjectId) (s : Store) :
    Holding.chain (count + 1) last s = Holding.chain count (some s.allocate.1)
      (match last with
        | some before =>
          (s.allocate.2.setIvar s.allocate.1 Holding.next (.object before)).release [before]
        | none => s.allocate.2) := rfl

theorem Held.pause (held : Held s handles roots) : Held s.pause.2 handles roots :=
  held.gate _

theorem Held.resume (held : Held s handles roots) (guard : PauseGuard) :
    Held (s.resume guard) handles roots :=
  held.gate _

theorem Held.nestPauses {h : Holding} (held : Held h.store handles roots) :
    Held h.nestPauses.2.store handles roots := by
  have collected : Held (h.store.pause.2.collect h.roots).2 handles roots :=
    held.pause.collect _
  exact (collected.pause.resume _).resume _

/-- Each link of a chain is held by the next one in place of the handle. -/
theorem Held.chain (last : Option ObjectId) (held : Held s (last.toList + handles) roots)
    (count : Nat) :
    Held (Holding.chain count last s).2 ((Holding.chain count last s).1.toList + handles)
      roots := by
  induction count generalizing s last with
  | zero => exact held
  | succ count ih =>
    have longer := held.allocate
    rw [chain_succ]
    refine ih (some s.allocate.1) ?_
    cases last with
    | none =>
      rw [Option.toList_none, Multiset.coe_nil, zero_add] at longer
      exact longer
    | some before =>
      have new := longer.isAlive (Multiset.mem_cons_self _ _)
      have old : s.allocate.2.isAlive before = true :=
        longer.isAlive (Multiset.mem_cons_of_mem (Multiset.mem_add.mpr (.inl List.mem_cons_self)))
      have linked := longer.setIvar s.allocate.1 Holding.next (.object before) new
        (by rintro _ ⟨⟩; exact old)
      refine Held.releaseFrom ?_
      rw [Option.toList_some, Multiset.coe_singleton, Multiset.singleton_add, Multiset.cons_swap,
        ← Multiset.singleton_add, ← Multiset.singleton_add] at linked
      exact linked

end Store

namespace Holding

/-- The handles and the roots of a transcript are those of its store. -/
structure Kept (h : Holding) : Prop where
  held : h.store.Held h.handles.values h.roots
  distinct : h.handles.keys.Nodup

variable {h h' : Holding}

theorem Kept.bind {store : Store} {handles : Bindings ObjectId} {roots : List ObjectId}
    {id : ObjectId} (held : store.Held (id ::ₘ handles.values) roots)
    (distinct : handles.keys.Nodup) (handle : String) :
    (Holding.bind ⟨store, handles, roots⟩ handle id).Kept where
  held := by
    refine Store.Held.releaseFrom ?_
    change store.Held (_ + ((handles.insert handle id).values : Multiset ObjectId)) _
    rw [add_comm, Bindings.values_insert]
    exact held
  distinct := Bindings.nodup_insert distinct handle id

theorem Kept.allocate (kept : h.Kept) (handle : String) : (h.allocate handle).2.Kept :=
  .bind kept.held.allocate kept.distinct handle

theorem Kept.fill (kept : h.Kept) (stem : String) (count : Nat) : (h.fill stem count).Kept := by
  unfold Holding.fill
  induction List.range count generalizing h with
  | nil => exact kept
  | cons n rest ih => exact ih (kept.allocate _)

theorem Kept.isAlive (kept : h.Kept) {handle : String} {id : ObjectId}
    (bound : h.handles.get? handle = some id) : h.store.isAlive id = true :=
  kept.held.isAlive (Bindings.mem_values bound)

theorem Kept.perform {step : StoreStep} {answer : StoreAnswer} (kept : h.Kept)
    (done : h.perform step = some (answer, h')) : h'.Kept := by
  cases step with
  | allocate handle =>
    cases done
    exact kept.allocate handle
  | churn count =>
    cases done
    exact ⟨kept.held.churn count, kept.distinct⟩
  | fill stem count =>
    cases done
    exact kept.fill stem count
  | chain handle count =>
    cases done
    have held := Store.Held.chain none (by simpa using kept.held) count
    split
    next id last =>
      rw [last] at held
      exact .bind held kept.distinct handle
    next last =>
      rw [last] at held
      exact ⟨by simpa using held, kept.distinct⟩
  | release handle =>
    cases done
    refine ⟨Store.Held.releaseFrom ?_, Bindings.nodup_erase kept.distinct handle⟩
    rw [add_comm, Bindings.values_erase kept.distinct]
    exact kept.held
  | releaseAll =>
    cases done
    refine ⟨Store.Held.releaseFrom ?_, List.nodup_nil⟩
    exact (add_zero (h.handles.values : Multiset ObjectId)).symm ▸ kept.held
  | root handle =>
    obtain ⟨id, bound, rest⟩ := Option.bind_eq_some_iff.mp done
    cases rest
    refine ⟨?_, kept.distinct⟩
    have rooted := kept.held.root id (kept.isAlive bound)
    rwa [← Multiset.singleton_add, add_comm] at rooted
  | unrootAll =>
    cases done
    refine ⟨?_, kept.distinct⟩
    have bare := kept.held.unroot h.roots le_rfl
    rwa [tsub_self] at bare
  | link handle ivar target =>
    obtain ⟨id, bound, rest⟩ := Option.bind_eq_some_iff.mp done
    obtain ⟨value, target_bound, rest⟩ := Option.bind_eq_some_iff.mp rest
    cases rest
    have lives := kept.isAlive target_bound
    exact ⟨kept.held.setIvar id ivar (.object value) (kept.isAlive bound)
      (by rintro _ ⟨⟩; exact lives), kept.distinct⟩
  | unlink handle ivar =>
    obtain ⟨id, bound, rest⟩ := Option.bind_eq_some_iff.mp done
    cases rest
    exact ⟨kept.held.setIvar id ivar (.int 0) (kept.isAlive bound) nofun, kept.distinct⟩
  | setCollecting enabled =>
    cases done
    exact ⟨kept.held.gate _, kept.distinct⟩
  | ivarNames handle =>
    obtain ⟨id, -, rest⟩ := Option.bind_eq_some_iff.mp done
    obtain ⟨o, -, rest⟩ := Option.bind_eq_some_iff.mp rest
    cases rest
    exact kept
  | follow handle ivar =>
    obtain ⟨id, -, rest⟩ := Option.bind_eq_some_iff.mp done
    cases rest
    exact kept
  | state =>
    cases done
    exact kept
  | collect =>
    cases done
    exact ⟨kept.held.collect _, kept.distinct⟩
  | nestPauses =>
    have same : h' = h.nestPauses.2 := by cases done; rfl
    rw [same]
    exact ⟨kept.held.nestPauses, kept.distinct⟩

theorem kept_empty : Holding.empty.Kept := ⟨.empty, List.nodup_nil⟩

def after (h : Holding) (steps : List StoreStep) : Option Holding :=
  steps.foldlM (fun h step => (h.perform step).map (·.2)) h

theorem Kept.after {steps : List StoreStep} (kept : h.Kept) (done : h.after steps = some h') :
    h'.Kept :=
  keeps_of_steps (fun _ _ _ _ kept performed => Kept.perform kept performed) kept done

end Holding

end ObjectRuntime
