import Mathlib.Data.Multiset.AddSub
import Mathlib.Logic.Relation
import ObjectRuntime.Proofs.Collector.Holders

/-!
# In whatever order holders are dropped

A list of work takes the dropped holders from the front; a recursion drops what a dying object
referred to before it goes on. Both are runs of one relation that takes any pending holder next. Two
of its steps commute, so all its runs to the end have one end.
-/

set_option autoImplicit false

namespace ObjectRuntime

open Relation (ReflTransGen)

namespace Counted

def dropped (o : Counted) : Counted := if o.holders = 1 then .dead else o.dropHolder

/-- What loses a holder because this object does. -/
def freed (o : Counted) : List ObjectId := if o.holders = 1 then o.references else []

def freedAt (objects : Array Counted) (id : ObjectId) : List ObjectId :=
  (objects[id.index]?.map freed).getD []

def dropAt (objects : Array Counted) (id : ObjectId) : Array Counted :=
  objects.modify id.index dropped

inductive Pop : Array Counted × Multiset ObjectId → Array Counted × Multiset ObjectId → Prop
  | pop (objects : Array Counted) (id : ObjectId) (rest : Multiset ObjectId) :
      Pop (objects, id ::ₘ rest) (dropAt objects id, freedAt objects id + rest)

/-- An object that dies drops all it referred to, in some order and each with all that follows from
it, before the next holder is dropped. -/
inductive Cascade : Array Counted → List ObjectId → Array Counted → Prop
  | nil (objects : Array Counted) : Cascade objects [] objects
  | cons {objects middle final : Array Counted} {id : ObjectId} {rest order : List ObjectId}
      (shuffled : order.Perm (freedAt objects id))
      (inner : Cascade (dropAt objects id) order middle) (outer : Cascade middle rest final) :
      Cascade objects (id :: rest) final

variable {objects final : Array Counted} {id other : ObjectId} {work : List ObjectId}

theorem modify_of_le {i : Nat} (beyond : objects.size ≤ i) (f : Counted → Counted) :
    objects.modify i f = objects := by
  refine Array.ext_getElem? fun j => ?_
  rw [Array.getElem?_modify]
  split
  next same =>
    rw [Array.getElem?_eq_none (same ▸ beyond), Option.map_none]
  next => rfl

theorem dropAt_eq (inside : id.index < objects.size) :
    dropAt objects id = objects.set id.index objects[id.index].dropped :=
  modify_eq_set inside dropped

theorem freedAt_eq (inside : id.index < objects.size) :
    freedAt objects id = objects[id.index].freed := by
  rw [freedAt, Array.getElem?_eq_getElem inside, Option.map_some, Option.getD_some]

theorem dropAt_of_le (beyond : objects.size ≤ id.index) : dropAt objects id = objects :=
  modify_of_le beyond dropped

theorem freedAt_of_le (beyond : objects.size ≤ id.index) : freedAt objects id = [] := by
  rw [freedAt, Array.getElem?_eq_none beyond, Option.map_none, Option.getD_none]

theorem dropHolders_cons (objects : Array Counted) (id : ObjectId) (rest : List ObjectId) :
    dropHolders objects (id :: rest) =
      dropHolders (dropAt objects id) (freedAt objects id ++ rest) := by
  rw [dropHolders]
  split
  next inside =>
    rw [dropAt_eq inside, freedAt_eq inside, dropped, freed]
    split
    next => rfl
    next => rfl
  next beyond =>
    have absent := Nat.le_of_not_lt beyond
    rw [dropAt_of_le absent, freedAt_of_le absent, List.nil_append]

/-! ### Every run ends -/

theorem countP_dropAt_le : (dropAt objects id).countP isAlive ≤ objects.countP isAlive := by
  by_cases inside : id.index < objects.size
  · rw [dropAt_eq inside, dropped]
    split
    next last => exact (countP_set_dead_lt inside (by simp [isAlive, last])).le
    next => exact countP_set_dropHolder_le inside
  · rw [dropAt_of_le (Nat.le_of_not_lt inside)]

theorem countP_dropAt_lt (adds : freedAt objects id ≠ []) :
    (dropAt objects id).countP isAlive < objects.countP isAlive := by
  by_cases inside : id.index < objects.size
  · rw [freedAt_eq inside, freed] at adds
    split at adds
    next last =>
      rw [dropAt_eq inside, dropped, if_pos last]
      exact countP_set_dead_lt inside (by simp [isAlive, last])
    next => exact absurd rfl adds
  · exact absurd (freedAt_of_le (Nat.le_of_not_lt inside)) adds

/-- Fewer objects live, or as many live and less is pending. -/
theorem pop_wellFounded : WellFounded fun after before => Pop before after := by
  refine Subrelation.wf ?_ (InvImage.wf
    (fun state : Array Counted × Multiset ObjectId => (state.1.countP isAlive, state.2.card))
    (Prod.lex Nat.lt_wfRel Nat.lt_wfRel).wf)
  rintro _ _ ⟨objects, id, rest⟩
  by_cases adds : freedAt objects id = []
  · rw [adds, Multiset.coe_nil, zero_add]
    refine Prod.Lex.right' _ countP_dropAt_le ?_
    change rest.card < (id ::ₘ rest).card
    rw [Multiset.card_cons]
    exact Nat.lt_succ_self _
  · exact Prod.Lex.left _ _ (countP_dropAt_lt adds)

/-! ### Two steps commute -/

theorem dropAt_comm (objects : Array Counted) (differ : id ≠ other) :
    dropAt (dropAt objects id) other = dropAt (dropAt objects other) id := by
  have apart : id.index ≠ other.index := fun same =>
    differ (ObjectId.number_injective (congrArg (· + 1) same))
  refine Array.ext_getElem? fun j => ?_
  simp only [dropAt, Array.getElem?_modify]
  by_cases first : id.index = j
  · rw [if_pos first, if_pos first, if_neg fun second => apart (first.trans second.symm)]
    rw [if_neg fun second => apart (first.trans second.symm)]
  · rw [if_neg first, if_neg first]

theorem freedAt_dropAt (objects : Array Counted) (differ : id ≠ other) :
    freedAt (dropAt objects id) other = freedAt objects other := by
  have apart : id.index ≠ other.index := fun same =>
    differ (ObjectId.number_injective (congrArg (· + 1) same))
  rw [freedAt, dropAt, Array.getElem?_modify, if_neg apart]
  rfl

theorem Pop.diamond {before left right : Array Counted × Multiset ObjectId}
    (toLeft : Pop before left) (toRight : Pop before right) :
    left = right ∨ ∃ joined, Pop left joined ∧ Pop right joined := by
  cases toLeft with
  | pop objects id rest =>
    generalize same : (objects, id ::ₘ rest) = start at toRight
    obtain ⟨_, other, rest'⟩ := toRight
    obtain ⟨rfl, pending⟩ := Prod.mk.inj same
    obtain ⟨rfl, rfl⟩ | ⟨differ, both, rfl, rfl⟩ := Multiset.cons_eq_cons.mp pending
    · exact .inl rfl
    · right
      have left := Pop.pop (dropAt objects id) other (freedAt objects id + both)
      have right := Pop.pop (dropAt objects other) id (freedAt objects other + both)
      rw [freedAt_dropAt objects differ] at left
      rw [freedAt_dropAt objects differ.symm, ← dropAt_comm objects differ,
        add_left_comm] at right
      rw [Multiset.add_cons, Multiset.add_cons]
      exact ⟨_, left, right⟩

theorem eq_of_pops {left right : Array Counted} {before : Array Counted × Multiset ObjectId}
    (toLeft : ReflTransGen Pop before (left, 0)) (toRight : ReflTransGen Pop before (right, 0)) :
    left = right := by
  have ended : ∀ {objects : Array Counted} {after}, ReflTransGen Pop (objects, 0) after →
      after = (objects, 0) := by
    intro objects after run
    obtain rfl | ⟨_, step, -⟩ := run.cases_head
    · rfl
    · generalize start : (objects, (0 : Multiset ObjectId)) = before at step
      obtain ⟨_, id, rest⟩ := step
      exact absurd (Prod.mk.inj start).2.symm (Multiset.cons_ne_zero)
  have joined := Relation.church_rosser (fun a b c toB toC => by
    obtain rfl | ⟨d, fromB, fromC⟩ := toB.diamond toC
    · exact ⟨b, .refl, .refl⟩
    · exact ⟨d, .single fromB, .single fromC⟩) toLeft toRight
  obtain ⟨_, fromLeft, fromRight⟩ := joined
  exact (Prod.mk.inj ((ended fromLeft).symm.trans (ended fromRight))).1

/-! ### The list of work and the recursion are such runs -/

/-- What holds of an empty list of work and goes from what is left back to the list holds of every
list. -/
theorem work_induction {P : Array Counted → List ObjectId → Prop} (nil : ∀ objects, P objects [])
    (cons : ∀ objects id rest, P (dropAt objects id) (freedAt objects id ++ rest) →
      P objects (id :: rest)) (objects : Array Counted) (work : List ObjectId) :
    P objects work := by
  fun_induction dropHolders objects work with
  | case1 objects => exact nil objects
  | case2 objects id rest inside last ih =>
    refine cons objects id rest ?_
    rw [dropAt_eq inside, freedAt_eq inside, dropped, if_pos last, freed, if_pos last]
    exact ih
  | case3 objects id rest inside others ih =>
    refine cons objects id rest ?_
    rw [dropAt_eq inside, freedAt_eq inside, dropped, if_neg others, freed, if_neg others]
    exact ih
  | case4 objects id rest beyond ih =>
    refine cons objects id rest ?_
    have absent := Nat.le_of_not_lt beyond
    rw [dropAt_of_le absent, freedAt_of_le absent]
    exact ih

theorem pops_dropHolders (objects : Array Counted) (work : List ObjectId) :
    ReflTransGen Pop (objects, work) (dropHolders objects work, 0) := by
  induction objects, work using work_induction with
  | nil objects => rw [dropHolders]; exact .refl
  | cons objects id rest ih =>
    rw [dropHolders_cons]
    exact .head (.pop objects id rest) ih

theorem pops_iff : ReflTransGen Pop (objects, work) (final, 0) ↔
    final = dropHolders objects work := by
  constructor
  · exact fun run => eq_of_pops run (pops_dropHolders objects work)
  · rintro rfl
    exact pops_dropHolders objects work

namespace Cascade

theorem pops (cascade : Cascade objects work final) (rest : Multiset ObjectId) :
    ReflTransGen Pop (objects, work + rest) (final, rest) := by
  induction cascade generalizing rest with
  | nil => rw [Multiset.coe_nil, zero_add]
  | @cons objects middle final id tail order shuffled _ _ inner outer =>
    have first := Pop.pop objects id (tail + rest)
    rw [← Multiset.cons_add, Multiset.cons_coe, ← Multiset.coe_eq_coe.mpr shuffled] at first
    exact .head first ((inner (tail + rest)).trans (outer rest))

theorem split {first second : List ObjectId} (cascade : Cascade objects (first ++ second) final) :
    ∃ middle, Cascade objects first middle ∧ Cascade middle second final := by
  induction first generalizing objects with
  | nil => exact ⟨objects, .nil objects, cascade⟩
  | cons id rest ih =>
    cases cascade with
    | cons shuffled inner outer =>
      obtain ⟨middle, before, after⟩ := ih outer
      exact ⟨middle, .cons shuffled inner before, after⟩

theorem of_dropHolders (objects : Array Counted) (work : List ObjectId) :
    Cascade objects work (dropHolders objects work) := by
  induction objects, work using work_induction with
  | nil objects => rw [dropHolders]; exact .nil objects
  | cons objects id rest ih =>
    rw [dropHolders_cons]
    obtain ⟨middle, inner, outer⟩ := ih.split
    exact .cons (.refl _) inner outer

end Cascade

theorem cascade_iff : Cascade objects work final ↔ final = dropHolders objects work := by
  constructor
  · intro cascade
    have run := cascade.pops 0
    rw [add_zero] at run
    exact pops_iff.mp run
  · rintro rfl
    exact .of_dropHolders objects work

end Counted

end ObjectRuntime
