import ObjectRuntime.Store.Pauses
import Mathlib.Data.List.Perm.Basic

/-!
# What the guards of pauses keep off

While collection is off, exactly one of the living guards remembers that it was on, whatever the
order in which the guards have been dropped. So collection is on again as soon as that guard is
gone, and not before.

Collection is off for as long as any guard lives if nobody drops the oldest guard before the others:
as long as that goes well, the oldest guard is the one that remembers.
-/

set_option autoImplicit false

namespace ObjectRuntime

namespace Store

variable {s : Store}

theorem enabled_resume (s : Store) (guard : PauseGuard) :
    (s.resume guard).gate.enabled = (guard.wasEnabled || s.gate.enabled) := by
  rw [resume, Gate.release]
  cases guard.wasEnabled <;> rfl

theorem gate_allocate (s : Store) : s.allocate.2.gate = s.gate := by
  rw [allocate]
  split <;> rfl

theorem gate_hydrate (s : Store) : s.hydrate.2.gate = s.gate := by
  change s.pause.2.allocate.2.gate.release s.pause.1 = s.gate
  rw [gate_allocate]
  obtain ⟨objects, registry, limit, enabled, pending⟩ := s
  cases enabled <;> rfl

theorem enabled_collect (s : Store) (roots : List ObjectId) :
    (s.collect roots).2.gate.enabled = s.gate.enabled := by
  rw [collect, collectWith, Gate.request]
  cases s.gate.enabled <;> simp [prune]

theorem collect_of_disabled (disabled : s.gate.enabled = false) (roots : List ObjectId) :
    s.collect roots = (none, { s with gate.pending := true }) := by
  simp [collect, collectWith, Gate.request, disabled]

theorem collect_of_enabled (enabled : s.gate.enabled = true) (roots : List ObjectId) :
    (s.collect roots).1.isSome = true ∧ (s.collect roots).2.gate.pending = false := by
  simp [collect, collectWith, Gate.request, enabled, prune]

end Store

namespace Pausing

variable {p : Pausing}

/-- One guard remembers that collection was on if it is off now, and none does if it is on. -/
def Remembered (p : Pausing) : Prop :=
  p.guards.countP PauseGuard.wasEnabled = if p.store.gate.enabled then 0 else 1

def Covered (p : Pausing) : Prop := p.store.gate.enabled = true ↔ p.guards = []

theorem countP_eraseIdx {place : Nat} {guard : PauseGuard}
    (at_place : p.guards[place]? = some guard) :
    p.guards.countP PauseGuard.wasEnabled =
      (p.guards.eraseIdx place).countP PauseGuard.wasEnabled +
        if guard.wasEnabled then 1 else 0 := by
  obtain ⟨inside, rfl⟩ := List.getElem?_eq_some_iff.1 at_place
  rw [← (List.getElem_cons_eraseIdx_perm inside).countP_eq PauseGuard.wasEnabled, List.countP_cons]

theorem Remembered.step (remembered : p.Remembered) (event : PauseEvent) :
    (p.step event).Remembered := by
  cases event with
  | pause =>
    change List.countP PauseGuard.wasEnabled (p.guards ++ [⟨p.store.gate.enabled⟩]) = 1
    rw [List.countP_append, remembered, List.countP_singleton]
    cases p.store.gate.enabled <;> rfl
  | drop place =>
    rw [Pausing.step]
    split
    next guard at_place =>
      have before := countP_eraseIdx at_place
      rw [remembered] at before
      rw [Remembered, Store.enabled_resume]
      change (p.guards.eraseIdx place).countP PauseGuard.wasEnabled = _
      revert before
      generalize (p.guards.eraseIdx place).countP PauseGuard.wasEnabled = others
      cases guard.wasEnabled <;> cases p.store.gate.enabled <;> simp <;> exact Eq.symm
    next => exact remembered
  | hydrate =>
    rw [Remembered, Pausing.step, Store.gate_hydrate]
    exact remembered
  | collect roots =>
    rw [Remembered, Pausing.step, Store.enabled_collect]
    exact remembered

theorem Remembered.run (remembered : p.Remembered) (events : List PauseEvent) :
    (p.run events).Remembered := by
  induction events generalizing p with
  | nil => exact remembered
  | cons event rest ih => exact ih (remembered.step event)

theorem Remembered.enabled_iff (remembered : p.Remembered) :
    p.store.gate.enabled = true ↔ ∀ guard ∈ p.guards, guard.wasEnabled = false := by
  have none_iff : p.guards.countP PauseGuard.wasEnabled = 0 ↔
      ∀ guard ∈ p.guards, guard.wasEnabled = false := by
    rw [List.countP_eq_zero]
    simp
  rw [← none_iff, remembered]
  cases p.store.gate.enabled <;> simp

theorem Remembered.start {s : Store} (enabled : s.gate.enabled = true) :
    (start s).Remembered := by
  rw [Remembered]
  change 0 = if s.gate.enabled then 0 else 1
  rw [enabled]
  rfl

/-! ### The oldest guard -/

/-- Collection is on exactly when no guard lives, and no guard but the oldest one remembers that it
was on. -/
structure Stacked (p : Pausing) : Prop where
  remembered : p.Remembered
  covered : p.Covered
  younger : ∀ guard ∈ p.guards.tail, guard.wasEnabled = false

def Uncovers (p : Pausing) (event : PauseEvent) : Prop :=
  event = .drop 0 ∧ 1 < p.guards.length

theorem Stacked.oldest (stacked : p.Stacked) {oldest : PauseGuard} {rest : List PauseGuard}
    (guards : p.guards = oldest :: rest) :
    p.store.gate.enabled = false ∧ oldest.wasEnabled = true := by
  have disabled : p.store.gate.enabled = false := by
    refine Bool.eq_false_iff.2 fun enabled => ?_
    rw [stacked.covered.1 enabled] at guards
    cases guards
  refine ⟨disabled, ?_⟩
  have younger := stacked.younger
  cases remembers : oldest.wasEnabled with
  | true => rfl
  | false =>
    -- With the oldest guard too, none would remember, and collection would be on.
    have enabled := stacked.remembered.enabled_iff.2 (by
      rw [guards]
      rw [guards] at younger
      exact List.forall_mem_cons.2 ⟨remembers, younger⟩)
    rw [disabled] at enabled
    cases enabled

theorem step_drop_oldest {oldest : PauseGuard} {rest : List PauseGuard}
    (guards : p.guards = oldest :: rest) :
    p.step (.drop 0) = ⟨p.store.resume oldest, rest⟩ := by
  rw [Pausing.step, guards]
  rfl

theorem Stacked.not_covered (stacked : p.Stacked) {event : PauseEvent}
    (uncovers : p.Uncovers event) : ¬ (p.step event).Covered := by
  obtain ⟨rfl, another⟩ := uncovers
  cases guards : p.guards with
  | nil => simp [guards] at another
  | cons oldest rest =>
    have remembers := (stacked.oldest guards).2
    have others : rest ≠ [] := by
      rintro rfl
      simp [guards] at another
    rw [step_drop_oldest guards, Covered, Store.enabled_resume, remembers]
    exact fun covered => others (covered.1 rfl)

theorem Stacked.pause (stacked : p.Stacked) : (p.step .pause).Stacked := by
  have disabled : ¬ (p.step .pause).store.gate.enabled = true := Bool.false_ne_true
  refine ⟨stacked.remembered.step .pause, iff_of_false disabled ?_, ?_⟩
  · exact List.append_ne_nil_of_right_ne_nil _ (List.cons_ne_nil _ _)
  · let guard : PauseGuard := ⟨p.store.gate.enabled⟩
    change ∀ other ∈ (p.guards ++ [guard]).tail, other.wasEnabled = false
    cases guards : p.guards with
    | nil => exact fun _ mem => (List.not_mem_nil mem).elim
    | cons oldest rest =>
      have younger := stacked.younger
      rw [guards] at younger
      rw [List.cons_append, List.tail_cons, List.forall_mem_append]
      exact ⟨younger, List.forall_mem_singleton.2 (stacked.oldest guards).1⟩

theorem Stacked.drop_only (stacked : p.Stacked) {guard : PauseGuard} (guards : p.guards = [guard]) :
    (p.step (.drop 0)).Stacked := by
  have remembered := stacked.remembered.step (.drop 0)
  rw [step_drop_oldest guards] at remembered ⊢
  refine ⟨remembered, ?_, fun _ mem => (List.not_mem_nil mem).elim⟩
  rw [Covered, Store.enabled_resume, (stacked.oldest guards).2]
  exact iff_of_true rfl rfl

theorem Stacked.drop_younger (stacked : p.Stacked) {oldest : PauseGuard} {rest : List PauseGuard}
    (guards : p.guards = oldest :: rest) (place : Nat) :
    (p.step (.drop (place + 1))).Stacked := by
  have remembered := stacked.remembered.step (.drop (place + 1))
  have younger := stacked.younger
  rw [guards] at younger
  cases at_place : rest[place]? with
  | none =>
    have same : p.step (.drop (place + 1)) = p := by
      rw [Pausing.step, guards, List.getElem?_cons_succ, at_place]
    rwa [same]
  | some guard =>
    have after : p.step (.drop (place + 1)) =
        ⟨p.store.resume guard, oldest :: rest.eraseIdx place⟩ := by
      rw [Pausing.step, guards, List.getElem?_cons_succ, at_place]
      rfl
    rw [after] at remembered ⊢
    refine ⟨remembered, iff_of_false ?_ (List.cons_ne_nil _ _), ?_⟩
    · rw [Store.enabled_resume, younger guard (List.mem_of_getElem? at_place),
        (stacked.oldest guards).1]
      exact Bool.false_ne_true
    · exact fun other mem => younger other (List.mem_of_mem_eraseIdx mem)

theorem Stacked.step (stacked : p.Stacked) {event : PauseEvent} (covers : ¬ p.Uncovers event) :
    (p.step event).Stacked := by
  have remembered := stacked.remembered.step event
  cases event with
  | pause => exact stacked.pause
  | drop place =>
    cases guards : p.guards with
    | nil =>
      have same : p.step (.drop place) = p := by
        rw [Pausing.step, guards]
        rfl
      rwa [same]
    | cons oldest rest =>
      cases place with
      | zero =>
        have alone : rest = [] := by
          refine List.eq_nil_of_length_eq_zero ?_
          have few := not_and.1 covers rfl
          rw [guards, List.length_cons] at few
          omega
        exact stacked.drop_only (guards.trans (congrArg (oldest :: ·) alone))
      | succ place => exact stacked.drop_younger guards place
  | hydrate =>
    refine ⟨remembered, ?_, stacked.younger⟩
    rw [Covered, Pausing.step, Store.gate_hydrate]
    exact stacked.covered
  | collect roots =>
    refine ⟨remembered, ?_, stacked.younger⟩
    rw [Covered, Pausing.step, Store.enabled_collect]
    exact stacked.covered

theorem Stacked.start {s : Store} (enabled : s.gate.enabled = true) : (start s).Stacked :=
  ⟨.start enabled, iff_of_true enabled rfl, fun _ mem => (List.not_mem_nil mem).elim⟩

/-- While nobody drops the oldest guard before the others, collection is off for as long as any
guard lives; the first time somebody does, collection is on although another guard lives. -/
theorem Stacked.covered_iff (stacked : p.Stacked) (events : List PauseEvent) :
    (∀ before, before <+: events → (p.run before).Covered) ↔
      ∀ before event, before ++ [event] <+: events → ¬ (p.run before).Uncovers event := by
  induction events generalizing p with
  | nil =>
    constructor
    · intro _ before event initial
      simp at initial
    · intro _ before initial
      obtain rfl := List.prefix_nil.1 initial
      exact stacked.covered
  | cons first rest ih =>
    by_cases uncovers : p.Uncovers first
    · refine iff_of_false ?_ ?_
      · intro covered
        exact stacked.not_covered uncovers (covered [first] (by simp))
      · intro never
        exact never [] first (by simp) uncovers
    · have later := ih (stacked.step uncovers)
      constructor
      · intro covered before event initial
        cases before with
        | nil =>
          obtain rfl : event = first := by simpa using initial
          exact uncovers
        | cons head before =>
          obtain ⟨rfl, tail_initial⟩ := List.cons_prefix_cons.1 initial
          refine later.1 ?_ before event tail_initial
          intro further shorter
          exact covered (head :: further) (List.cons_prefix_cons.2 ⟨rfl, shorter⟩)
      · intro never before initial
        cases before with
        | nil => exact stacked.covered
        | cons head before =>
          obtain ⟨rfl, tail_initial⟩ := List.cons_prefix_cons.1 initial
          refine later.2 ?_ before tail_initial
          intro further event shorter
          exact never (head :: further) event (List.cons_prefix_cons.2 ⟨rfl, shorter⟩)

/-- What the guards decide: collection is on exactly when no living guard remembers that it was, and
at most one does. A collection is refused, and noted, while that guard lives, and only then. With
the last guard gone collection is on. -/
structure Decided (p : Pausing) : Prop where
  enabled_iff : p.store.gate.enabled = true ↔ ∀ guard ∈ p.guards, guard.wasEnabled = false
  at_most_one : p.guards.countP PauseGuard.wasEnabled ≤ 1
  none_lives : p.guards = [] → p.store.gate.enabled = true
  refused : ∀ roots, (∃ guard ∈ p.guards, guard.wasEnabled = true) →
    p.store.collect roots = (none, { p.store with gate.pending := true })
  allowed : ∀ roots, (∀ guard ∈ p.guards, guard.wasEnabled = false) →
    (p.store.collect roots).1.isSome = true ∧ (p.store.collect roots).2.gate.pending = false

theorem Remembered.decided (remembered : p.Remembered) : p.Decided where
  enabled_iff := remembered.enabled_iff
  at_most_one := by
    rw [remembered]
    split <;> omega
  none_lives none_lives := by
    rw [remembered.enabled_iff, none_lives]
    exact fun _ mem => (List.not_mem_nil mem).elim
  refused := by
    rintro roots ⟨guard, mem, remembers⟩
    refine Store.collect_of_disabled (Bool.eq_false_iff.2 fun on => ?_) roots
    rw [remembered.enabled_iff.1 on guard mem] at remembers
    cases remembers
  allowed roots none_remembers :=
    Store.collect_of_enabled (remembered.enabled_iff.2 none_remembers) roots

/-- The guards decide whether collection is on, whatever the order in which they are made and
dropped on a store where it was on. It was off for as long as any guard lived exactly if nobody
dropped the oldest guard while another one lived. -/
theorem guards_hold_until_oldest_dropped {s : Store} (enabled : s.gate.enabled = true)
    (events : List PauseEvent) :
    ((start s).run events).Decided ∧
    ((∀ before, before <+: events → ((start s).run before).Covered) ↔
      ∀ before event, before ++ [event] <+: events → ¬ ((start s).run before).Uncovers event) :=
  ⟨((Remembered.start enabled).run events).decided, (Stacked.start enabled).covered_iff events⟩

theorem guards_hold_until_oldest_dropped_nested :
    Store.empty.gate.enabled = true ∧
    ((start .empty).run [.pause, .pause, .drop 1]).store.gate.enabled = false ∧
    ((start .empty).run [.pause, .pause, .drop 1, .drop 0]).store.gate.enabled = true := by
  have on : Store.empty.gate.enabled = true := rfl
  have one_lives := (guards_hold_until_oldest_dropped on [.pause, .pause, .drop 1]).1
  have none_lives := (guards_hold_until_oldest_dropped on [.pause, .pause, .drop 1, .drop 0]).1
  refine ⟨on, Bool.eq_false_iff.2 fun on => ?_, none_lives.none_lives rfl⟩
  cases one_lives.enabled_iff.1 on ⟨true⟩ List.mem_cons_self

/-- Two pauses, and the first guard is dropped first: the second one lives, and collection runs. -/
theorem dropped_guard_uncovers :
    Store.empty.gate.enabled = true ∧
    ((start .empty).run [.pause, .pause, .drop 0]).guards = [⟨false⟩] ∧
    ((start .empty).run [.pause, .pause, .drop 0]).store.gate.enabled = true ∧
    ∀ roots, (((start .empty).run [.pause, .pause, .drop 0]).store.collect roots).1.isSome = true :=
  ⟨rfl, rfl, rfl, fun roots => (Store.collect_of_enabled rfl roots).1⟩

end Pausing

end ObjectRuntime
