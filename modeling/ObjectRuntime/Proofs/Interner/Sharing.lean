import Mathlib.Data.Finset.Image
import Mathlib.Logic.Function.Basic
import Mathlib.Logic.Relation
import ObjectRuntime.Proofs.Interner.Numbering

/-!
# An interner shared by several callers

Each of the two steps of interning is one locked section: what a caller found in the first may be
out of date in the second. A state keeps, beside the table, the texts that callers have looked up in
vain and not yet inserted, and every number that was ever handed out. The interner of the runtime
starts with the core names interned; from there any callers act in any order.
-/

set_option autoImplicit false

namespace ObjectRuntime

open Relation (ReflTransGen)

namespace Interner

def IsReading : InternerStep → Prop
  | .intern _ | .compare _ _ => False
  | .get _ | .lookup _ | .size | .isEmpty | .debug _ | .empty => True

theorem perform_reading {i table : Interner} {step : InternerStep} {answer : InternerAnswer}
    (reading : IsReading step) (h : i.perform step = some (answer, table)) : table = i := by
  cases step with
  | intern | compare => exact reading.elim
  | get | lookup | size | isEmpty | debug | empty => cases h; rfl

/-- The table, what each caller is about to insert, and the numbers handed out for texts. -/
structure Shared where
  table : Interner
  pending : Nat → Option String
  handed : List (String × Nat)

namespace Shared

/-- One locked section of one caller. A caller that reads anything else leaves no trace. -/
inductive Step (s : Shared) : Shared → Prop
  /-- The first section, or a mere look-up, of a text that is there. -/
  | found (caller : Nat) (text : String) (number : Nat) (idle : s.pending caller = none)
      (known : s.table.get? text = some number) :
      Step s { s with handed := (text, number) :: s.handed }
  /-- The first section, in vain: the caller goes on to insert the text. -/
  | missed (caller : Nat) (text : String) (idle : s.pending caller = none)
      (unknown : s.table.get? text = none) :
      Step s { s with pending := Function.update s.pending caller (some text) }
  | inserted (caller : Nat) (text : String) (number : Nat) (table : Interner)
      (waits : s.pending caller = some text)
      (result : s.table.insert text = (.ok number, table)) :
      Step s ⟨table, Function.update s.pending caller none, (text, number) :: s.handed⟩
  | refused (caller : Nat) (text : String) (e : InternError) (table : Interner)
      (waits : s.pending caller = some text)
      (result : s.table.insert text = (.error e, table)) :
      Step s ⟨table, Function.update s.pending caller none, s.handed⟩

def Later : Shared → Shared → Prop := ReflTransGen Step

def interned (s : Shared) (text : String) : Shared :=
  match s.table.tryIntern text with
  | (.ok number, table) => { s with table, handed := (text, number) :: s.handed }
  | (.error _, table) => { s with table }

def bare : Shared := ⟨.bare, fun _ => none, [("", emptyNumber)]⟩

def new : Shared := coreNames.foldl interned bare

variable {s s' : Shared} {text : String}

structure Consistent (s : Shared) : Prop where
  paired : s.table.Paired
  handed_iff : ∀ text number, (text, number) ∈ s.handed ↔ s.table.get? text = some number

theorem Consistent.found (consistent : s.Consistent) {number : Nat}
    (known : s.table.get? text = some number) :
    ({ s with handed := (text, number) :: s.handed } : Shared).Consistent where
  paired := consistent.paired
  handed_iff other n := by
    rw [List.mem_cons, consistent.handed_iff, Prod.mk.injEq]
    refine ⟨?_, .inr⟩
    rintro (⟨rfl, rfl⟩ | found)
    · exact known
    · exact found

theorem Consistent.inserted (consistent : s.Consistent) {number : Nat} {table : Interner}
    (result : s.table.insert text = (.ok number, table)) (pending : Nat → Option String) :
    (⟨table, pending, (text, number) :: s.handed⟩ : Shared).Consistent where
  paired := by
    have paired := consistent.paired.insert text
    rwa [result] at paired
  handed_iff other n := by
    rw [List.mem_cons, consistent.handed_iff, Prod.mk.injEq, get?_insert_ok result]

theorem Step.consistent (consistent : s.Consistent) (step : Step s s') : s'.Consistent := by
  cases step with
  | found _ _ _ _ known => exact consistent.found known
  | missed => exact ⟨consistent.paired, consistent.handed_iff⟩
  | inserted _ _ _ _ _ result => exact consistent.inserted result _
  | refused _ _ _ _ _ result =>
    obtain ⟨rfl, -⟩ := insert_error result
    exact ⟨consistent.paired, consistent.handed_iff⟩

theorem Later.consistent (consistent : s.Consistent) (later : s.Later s') : s'.Consistent := by
  induction later with
  | refl => exact consistent
  | tail _ step ih => exact step.consistent ih

theorem Step.get? {number : Nat} (step : Step s s') (known : s.table.get? text = some number) :
    s'.table.get? text = some number := by
  have kept {other : String} {result : Except InternError Nat} {table : Interner}
      (h : s.table.insert other = (result, table)) : table.get? text = some number := by
    have kept := get?_insert_of_some other known
    rwa [h] at kept
  cases step with
  | found | missed => exact known
  | inserted _ _ _ _ _ result => exact kept result
  | refused _ _ _ _ _ result => exact kept result

theorem Later.get? {number : Nat} (later : s.Later s') (known : s.table.get? text = some number) :
    s'.table.get? text = some number := by
  induction later with
  | refl => exact known
  | tail _ step ih => exact step.get? ih

/-! ### Calls that nobody interrupts -/

theorem interned_table (s : Shared) (text : String) :
    (s.interned text).table = (s.table.tryIntern text).2 := by
  unfold interned
  split <;> next h => rw [h]

theorem interned_handed {number : Nat} (h : (s.table.tryIntern text).1 = .ok number) :
    (text, number) ∈ (s.interned text).handed := by
  unfold interned
  split
  next n table ok =>
    rw [ok] at h
    cases h
    exact List.mem_cons_self
  next e table failed =>
    rw [failed] at h
    cases h

/-- An idle caller reaches by its two sections what `tryIntern` says. -/
theorem later_interned {caller : Nat} (idle : s.pending caller = none) (text : String) :
    s.Later (s.interned text) := by
  have back : Function.update (Function.update s.pending caller (some text)) caller none =
      s.pending := by
    rw [Function.update_idem, ← idle, Function.update_eq_self]
  unfold interned
  rw [tryIntern_eq_insert]
  cases known : s.table.get? text with
  | some number =>
    have result : s.table.insert text = (.ok number, s.table) := by simp only [insert, known]
    rw [result]
    exact .single (.found caller text number idle known)
  | none =>
    have waits : ({ s with pending := Function.update s.pending caller (some text) } :
        Shared).pending caller = some text := Function.update_self ..
    refine .head (.missed caller text idle known) (.single ?_)
    split
    next number table result =>
      have second := Step.inserted caller text number table waits result
      rwa [back] at second
    next e table result =>
      have second := Step.refused caller text e table waits result
      rwa [back] at second

theorem interned_pending (s : Shared) (text : String) : (s.interned text).pending = s.pending := by
  unfold interned
  split <;> rfl

theorem foldl_pending (texts : List String) (s : Shared) :
    (texts.foldl interned s).pending = s.pending := by
  induction texts generalizing s with
  | nil => rfl
  | cons text rest ih => rw [List.foldl_cons, ih, interned_pending]

theorem intern_ok {i : Interner} {number : Nat} {table : Interner}
    (h : (i.intern text).toOption = some (number, table)) :
    i.tryIntern text = (.ok number, table) := by
  unfold intern at h
  split at h
  next n t result => cases h; exact result
  next => cases h

theorem later_intern {caller : Nat} (idle : s.pending caller = none) {number : Nat}
    {table : Interner} (h : (s.table.intern text).toOption = some (number, table)) :
    ∃ s', s.Later s' ∧ s'.table = table ∧ s'.pending caller = none := by
  refine ⟨s.interned text, later_interned idle text, ?_, ?_⟩
  · rw [interned_table, intern_ok h]
  · rw [interned_pending, idle]

theorem later_perform {caller : Nat} (idle : s.pending caller = none) {step : InternerStep}
    {answer : InternerAnswer} {table : Interner}
    (h : s.table.perform step = some (answer, table)) :
    ∃ s', s.Later s' ∧ s'.table = table ∧ s'.pending caller = none := by
  cases step with
  | intern text =>
    obtain ⟨⟨number, result⟩, interning, h⟩ := Option.bind_eq_some_iff.mp h
    cases h
    exact later_intern idle interning
  | compare left right =>
    obtain ⟨⟨_, first⟩, interning, h⟩ := Option.bind_eq_some_iff.mp h
    obtain ⟨⟨_, second⟩, interning', h⟩ := Option.bind_eq_some_iff.mp h
    cases h
    obtain ⟨middle, before, rfl, idle⟩ := later_intern idle interning
    obtain ⟨last, after, same, idle⟩ := later_intern idle interning'
    exact ⟨last, before.trans after, same, idle⟩
  | get | lookup | size | isEmpty | debug | empty =>
    cases h
    exact ⟨s, .refl, rfl, idle⟩

theorem later_foldl {caller : Nat} (texts : List String) (idle : s.pending caller = none) :
    s.Later (texts.foldl interned s) := by
  induction texts generalizing s with
  | nil => exact .refl
  | cons text rest ih =>
    refine (later_interned idle text).trans (ih ?_)
    rw [interned_pending]
    exact idle

theorem foldl_table (texts : List String) (s : Shared) :
    (texts.foldl interned s).table = s.table.internAll texts := by
  induction texts generalizing s with
  | nil => rfl
  | cons text rest ih => rw [List.foldl_cons, ih, interned_table]; rfl

theorem interned_size_le : (s.interned text).table.size ≤ s.table.size + 1 := by
  rw [interned_table, tryIntern_eq_insert]
  exact size_insert_le

theorem mem_interned {entry : String × Nat} (h : entry ∈ s.handed) :
    entry ∈ (s.interned text).handed := by
  unfold interned
  split
  · exact List.mem_cons_of_mem _ h
  · exact h

theorem mem_foldl {entry : String × Nat} (texts : List String) (h : entry ∈ s.handed) :
    entry ∈ (texts.foldl interned s).handed := by
  induction texts generalizing s with
  | nil => exact h
  | cons text rest ih => exact ih (mem_interned h)

theorem foldl_handed (texts : List String) (room : s.table.size + texts.length ≤ capacity) :
    ∀ text ∈ texts, ∃ number, (text, number) ∈ (texts.foldl interned s).handed := by
  induction texts generalizing s with
  | nil => intro text mem; cases mem
  | cons first rest ih =>
    rw [List.length_cons] at room
    intro text mem
    obtain rfl | mem := List.mem_cons.mp mem
    · have fits : s.table.size < capacity := by omega
      obtain ⟨number, table, result⟩ := insert_ok text fits
      refine ⟨number, mem_foldl rest (interned_handed ?_)⟩
      rw [tryIntern_eq_insert, result]
    · have grown : (s.interned first).table.size ≤ s.table.size + 1 := interned_size_le
      exact ih (by omega) text mem

/-! ### What callers may rely on -/

theorem bare_consistent : bare.Consistent where
  paired := Paired.bare
  handed_iff text number := by
    change (text, number) ∈ [("", emptyNumber)] ↔
      (Bindings.empty.insert "" emptyNumber).get? text = some number
    rw [Bindings.get?_insert, Bindings.get?_empty, List.mem_singleton, Prod.mk.injEq]
    by_cases empty : "" = text
    · simp [← empty, eq_comm]
    · simp [empty, Ne.symm empty]

theorem bare_later_new : bare.Later new := later_foldl coreNames (rfl : bare.pending 0 = none)

theorem new_table : new.table = .withCore := foldl_table coreNames bare

theorem new_handed : ∀ text ∈ "" :: coreNames, ∃ number, (text, number) ∈ new.handed := by
  intro text mem
  obtain rfl | mem := List.mem_cons.mp mem
  · exact ⟨emptyNumber, mem_foldl coreNames (List.mem_singleton.mpr rfl)⟩
  · exact foldl_handed coreNames (by decide) text mem

theorem new_consistent : new.Consistent := bare_later_new.consistent bare_consistent

/-- Numbers and texts belong together one to one, whoever interned them and whatever callers were
between their two sections, and they stay together. The table has the texts that were handed a
number and no others; a number that was handed to nobody looks up as the empty text. -/
theorem names_one_to_one {s s' : Shared} (reached : new.Later s) (later : s.Later s') :
    (∀ a ∈ s'.handed, ∀ b ∈ s'.handed, a.2 = b.2 ↔ a.1 = b.1) ∧
    (∀ text number, (text, number) ∈ s.handed →
      (text, number) ∈ s'.handed ∧ s'.table.lookup number = text ∧
        s'.table.get? text = some number) ∧
    (∀ text number, s'.table.get? text = some number ↔ s'.table.texts[number]? = some text) ∧
    s'.table.size = (s'.handed.map (·.1)).toFinset.card ∧
    (∀ text ∈ "" :: coreNames, text ∈ s'.handed.map (·.1)) ∧
    (∀ number, number ∉ s'.handed.map (·.2) → s'.table.lookup number = "") ∧
    (∀ entry ∈ s'.handed, entry.2 < capacity) ∧
    (∀ text, s'.table.size < capacity →
      ∃ number table, s'.table.insert text = (.ok number, table)) ∧
    (∀ step answer table, IsReading step → s'.table.perform step = some (answer, table) →
      table = s'.table) := by
  have before := reached.consistent new_consistent
  have after := later.consistent before
  have kept : ∀ {text number}, (text, number) ∈ s.handed → s'.table.get? text = some number :=
    fun mem => later.get? ((before.handed_iff _ _).mp mem)
  have known : ∀ entry ∈ s'.handed, s'.table.get? entry.1 = some entry.2 :=
    fun entry mem => (after.handed_iff _ _).mp mem
  refine ⟨?_, ?_, after.paired.inverse, ?_, ?_, ?_, ?_, ?_, ?_⟩
  · intro a ha b hb
    exact after.paired.get?_inj (known a ha) (known b hb)
  · intro text number mem
    have now := kept mem
    exact ⟨(after.handed_iff _ _).mpr now, after.paired.lookup_eq now, now⟩
  · refine after.paired.size_eq_card _ fun text => ?_
    simp only [List.mem_toFinset, List.mem_map, Prod.exists, exists_and_right, exists_eq_right,
      after.handed_iff]
  · intro text core
    obtain ⟨number, mem⟩ := new_handed text core
    have now := later.get? (reached.get? ((new_consistent.handed_iff _ _).mp mem))
    exact List.mem_map_of_mem ((after.handed_iff _ _).mpr now)
  · intro number unused
    refine after.paired.lookup_eq_empty fun text now => unused ?_
    exact List.mem_map_of_mem (f := (·.2)) ((after.handed_iff text number).mpr now)
  · intro entry mem
    exact (after.paired.number_lt (known entry mem)).trans_le after.paired.bounded
  · intro text fits
    exact insert_ok text fits
  · intro step answer table reading h
    exact perform_reading reading h

/-- Callers 0 and 1 looked one text up in vain; then caller 0 inserted it. -/
def raceLost : Shared where
  table := new.table.add "x"
  pending := Function.update
    (Function.update (Function.update new.pending 0 (some "x")) 1 (some "x")) 0 none
  handed := ("x", 25) :: new.handed

def raceOver : Shared where
  table := raceLost.table
  pending := Function.update raceLost.pending 1 none
  handed := ("x", 25) :: raceLost.handed

theorem new_later_raceLost : new.Later raceLost := by
  have idle : new.pending = fun _ => none := foldl_pending coreNames bare
  have unknown : new.table.get? "x" = none := by rw [new_table]; decide
  have result : new.table.insert "x" = (.ok 25, new.table.add "x") := by rw [new_table]; rfl
  refine .tail (.tail (.single (.missed 0 "x" ?_ unknown)) (.missed 1 "x" ?_ unknown))
    (.inserted 0 "x" 25 _ ?_ result)
  · rw [idle]
  · simp [idle]
  · simp

theorem raceLost_later_raceOver : raceLost.Later raceOver := by
  have result : raceLost.table.insert "x" = (.ok 25, raceLost.table) := by
    rw [raceLost, new_table]; rfl
  refine .single (.inserted 1 "x" 25 _ ?_ result)
  simp [raceLost]

theorem names_one_to_one_race : raceLost.pending 1 = some "x" ∧ new.Later raceLost ∧
    raceLost.Later raceOver ∧ raceOver.table.lookup 25 = "x" := by
  refine ⟨by simp [raceLost], new_later_raceLost, raceLost_later_raceOver, ?_⟩
  obtain ⟨-, stays, -⟩ := names_one_to_one new_later_raceLost raceLost_later_raceOver
  exact (stays "x" 25 List.mem_cons_self).2.1

end Shared

end Interner

end ObjectRuntime
