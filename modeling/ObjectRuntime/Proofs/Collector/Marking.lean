import ObjectRuntime.Collector.Graph
import Mathlib.Logic.Relation

/-!
# Marking in any order

A mark pass may visit the nodes that it has met in any order. Whatever the order, the pass ends, and
what is marked at its end are the nodes below the size that the roots lead to. `explore` is the pass
that visits first what it met last.
-/

set_option autoImplicit false

namespace ObjectRuntime.Graph

/-- A mark pass under way, with the nodes that it has met and not visited. -/
structure Marking where
  marked : Array Bool
  work : List Nat

/-- Visits one of the nodes that were met: a new node is marked, and its successors are met. -/
inductive Visit (successors : Nat → List Nat) (p : Marking) : Marking → Prop where
  | mark (n : Nat) (met : n ∈ p.work) (inside : n < p.marked.size) (new : p.marked[n] = false) :
      Visit successors p ⟨p.marked.set n true, successors n ++ p.work.erase n⟩
  | skip (n : Nat) (met : n ∈ p.work) (old : ¬ ∃ inside : n < p.marked.size, p.marked[n] = false) :
      Visit successors p ⟨p.marked, p.work.erase n⟩

abbrev Visits (successors : Nat → List Nat) : Marking → Marking → Prop :=
  Relation.ReflTransGen (Visit successors)

def Marking.start (size : Nat) (roots : List Nat) : Marking := ⟨Array.replicate size false, roots⟩

def Leads (successors : Nat → List Nat) (size a b : Nat) : Prop := a < size ∧ b ∈ successors a

def Reaches (successors : Nat → List Nat) (size : Nat) (roots : List Nat) (n : Nat) : Prop :=
  ∃ r ∈ roots, Relation.ReflTransGen (Leads successors size) r n

variable {successors : Nat → List Nat} {size : Nat} {roots : List Nat}

theorem isMarked_eq_true {marks : Array Bool} {n : Nat} :
    isMarked marks n = true ↔ ∃ inside : n < marks.size, marks[n] = true := by
  rw [isMarked]
  by_cases inside : n < marks.size
  · rw [Array.getElem?_eq_getElem inside, Option.getD_some]
    exact ⟨fun marked => ⟨inside, marked⟩, fun ⟨_, marked⟩ => marked⟩
  · rw [Array.getElem?_eq_none (Nat.le_of_not_lt inside), Option.getD_none]
    exact ⟨nofun, fun ⟨below, _⟩ => absurd below inside⟩

theorem isMarked_set {marks : Array Bool} {n : Nat} (inside : n < marks.size) (k : Nat) :
    isMarked (marks.set n true) k = true ↔ k = n ∨ isMarked marks k = true := by
  rw [isMarked, isMarked, Array.getElem?_set]
  split
  next same => exact ⟨fun _ => .inl same.symm, fun _ => rfl⟩
  next other => exact ⟨.inr, fun either => either.resolve_left (Ne.symm other)⟩

theorem isMarked_or_new {marks : Array Bool} {n : Nat} (inside : n < marks.size)
    (old : ¬ ∃ inside : n < marks.size, marks[n] = false) : isMarked marks n = true := by
  refine isMarked_eq_true.2 ⟨inside, ?_⟩
  cases at_n : marks[n] with
  | true => rfl
  | false => exact absurd ⟨inside, at_n⟩ old

/-! ### Every pass ends -/

/-- A visit marks a node or leaves one node less to visit. -/
theorem visit_wellFounded (successors : Nat → List Nat) :
    WellFounded fun after before => Visit successors before after := by
  have measured : WellFounded (InvImage (Prod.Lex (· < ·) (· < ·)) fun p : Marking =>
      (p.marked.count false, p.work.length)) :=
    InvImage.wf _ (Prod.lex Nat.lt_wfRel Nat.lt_wfRel).wf
  refine Subrelation.wf ?_ measured
  intro after before visit
  cases visit with
  | mark n met inside new => exact Prod.Lex.left _ _ (count_set_lt inside new)
  | skip n met old =>
    refine Prod.Lex.right _ ?_
    have some_left : 0 < before.work.length := List.length_pos_of_mem met
    change (before.work.erase n).length < before.work.length
    rw [List.length_erase_of_mem met]
    omega

theorem visits_explore (successors : Nat → List Nat) (marked : Array Bool) (work : List Nat) :
    Visits successors ⟨marked, work⟩ ⟨explore successors marked work, []⟩ := by
  fun_induction explore successors marked work with
  | case1 marked => exact .refl
  | case2 marked n rest new ih =>
    obtain ⟨inside, is_new⟩ := new
    refine .head (.mark n List.mem_cons_self inside is_new) ?_
    rw [List.erase_cons_head]
    exact ih
  | case3 marked n rest old ih =>
    refine .head (.skip n List.mem_cons_self old) ?_
    rw [List.erase_cons_head]
    exact ih

/-! ### What a pass has marked -/

/-- Only what the roots lead to is marked or met, and what was not marked yet is met: of the roots,
and of the successors of all that is marked. -/
structure Explored (successors : Nat → List Nat) (size : Nat) (roots : List Nat) (p : Marking) :
    Prop where
  whole : p.marked.size = size
  marked : ∀ n, isMarked p.marked n = true → Reaches successors size roots n
  work : ∀ n ∈ p.work, Reaches successors size roots n
  begun : ∀ r ∈ roots, r < size → isMarked p.marked r = true ∨ r ∈ p.work
  closed : ∀ n, isMarked p.marked n = true → ∀ k ∈ successors n, k < size →
    isMarked p.marked k = true ∨ k ∈ p.work

theorem explored_start : Explored successors size roots (.start size roots) := by
  have unmarked : ∀ n, isMarked (Array.replicate size false) n ≠ true := by
    intro n marked
    obtain ⟨inside, is_true⟩ := isMarked_eq_true.1 marked
    rw [Array.getElem_replicate] at is_true
    cases is_true
  refine ⟨Array.size_replicate, ?_, ?_, ?_, ?_⟩
  · exact fun n marked => absurd marked (unmarked n)
  · exact fun n met => ⟨n, met, .refl⟩
  · exact fun r is_root _ => .inr is_root
  · exact fun n marked => absurd marked (unmarked n)

theorem Explored.visit {p q : Marking} (explored : Explored successors size roots p)
    (visit : Visit successors p q) : Explored successors size roots q := by
  cases visit with
  | mark n met inside new =>
    have below : n < size := explored.whole ▸ inside
    have reached : Reaches successors size roots n := explored.work n met
    have others : ∀ k, isMarked p.marked k = true ∨ k ∈ p.work →
        isMarked (p.marked.set n true) k = true ∨ k ∈ successors n ++ p.work.erase n := by
      rintro k (marked | waiting)
      · exact .inl ((isMarked_set inside k).2 (.inr marked))
      · by_cases same : k = n
        · exact .inl ((isMarked_set inside k).2 (.inl same))
        · exact .inr (List.mem_append_right _ ((List.mem_erase_of_ne same).2 waiting))
    refine ⟨(Array.size_set inside).trans explored.whole, ?_, ?_, ?_, ?_⟩
    · intro k marked
      obtain rfl | before := (isMarked_set inside k).1 marked
      · exact reached
      · exact explored.marked k before
    · intro k waiting
      obtain next | before := List.mem_append.1 waiting
      · obtain ⟨r, is_root, path⟩ := reached
        exact ⟨r, is_root, path.tail ⟨below, next⟩⟩
      · exact explored.work k (List.mem_of_mem_erase before)
    · exact fun r is_root inside => others r (explored.begun r is_root inside)
    · intro k marked l next inside_l
      obtain rfl | before := (isMarked_set inside k).1 marked
      · exact .inr (List.mem_append_left _ next)
      · exact others l (explored.closed k before l next inside_l)
  | skip n met old =>
    have others : ∀ k, k < size → isMarked p.marked k = true ∨ k ∈ p.work →
        isMarked p.marked k = true ∨ k ∈ p.work.erase n := by
      rintro k inside (marked | waiting)
      · exact .inl marked
      · by_cases same : k = n
        · subst same
          exact .inl (isMarked_or_new (explored.whole ▸ inside) old)
        · exact .inr ((List.mem_erase_of_ne same).2 waiting)
    refine ⟨explored.whole, explored.marked, ?_, ?_, ?_⟩
    · exact fun k waiting => explored.work k (List.mem_of_mem_erase waiting)
    · exact fun r is_root inside => others r inside (explored.begun r is_root inside)
    · exact fun k marked l next inside => others l inside (explored.closed k marked l next inside)

theorem Explored.visits {p q : Marking} (explored : Explored successors size roots p)
    (visits : Visits successors p q) : Explored successors size roots q := by
  induction visits with
  | refl => exact explored
  | tail _ last ih => exact ih.visit last

theorem Explored.isMarked_iff {marks : Array Bool}
    (explored : Explored successors size roots ⟨marks, []⟩) (n : Nat) :
    isMarked marks n = true ↔ n < size ∧ Reaches successors size roots n := by
  constructor
  · intro marked
    obtain ⟨inside, -⟩ := isMarked_eq_true.1 marked
    exact ⟨explored.whole ▸ inside, explored.marked n marked⟩
  · rintro ⟨inside, r, is_root, path⟩
    induction path with
    | refl => exact (explored.begun r is_root inside).resolve_right List.not_mem_nil
    | tail _ last ih =>
      obtain ⟨below, next⟩ := last
      exact (explored.closed _ (ih below) _ next inside).resolve_right List.not_mem_nil

theorem isMarked_iff_of_visits {marks : Array Bool}
    (visits : Visits successors (.start size roots) ⟨marks, []⟩) (n : Nat) :
    isMarked marks n = true ↔ n < size ∧ Reaches successors size roots n :=
  (explored_start.visits visits).isMarked_iff n

theorem visits_marksFrom :
    Visits successors (.start size roots) ⟨marksFrom successors size roots, []⟩ :=
  visits_explore successors _ roots

theorem visits_unique {marks : Array Bool}
    (visits : Visits successors (.start size roots) ⟨marks, []⟩) :
    marks = marksFrom successors size roots := by
  have size_eq : marks.size = size := (explored_start.visits visits).whole
  have other_size : (marksFrom successors size roots).size = size :=
    (explored_start.visits visits_marksFrom).whole
  refine Array.ext (size_eq.trans other_size.symm) ?_
  intro n inside other_inside
  have same : isMarked marks n = true ↔ isMarked (marksFrom successors size roots) n = true :=
    (isMarked_iff_of_visits visits n).trans (isMarked_iff_of_visits visits_marksFrom n).symm
  rw [isMarked, isMarked, Array.getElem?_eq_getElem inside, Array.getElem?_eq_getElem other_inside,
    Option.getD_some, Option.getD_some] at same
  exact Bool.eq_iff_iff.2 same

end ObjectRuntime.Graph
