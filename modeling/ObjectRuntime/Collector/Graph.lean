/-!
# Marking a graph

The nodes of a finite graph are numbered. `explore` marks what a list of nodes leads to: it takes
nodes from a list of work, and a node that was not marked yet adds its successors to the list. Every
step makes the number of unmarked nodes smaller, or leaves it and makes the list shorter.
-/

set_option autoImplicit false

namespace ObjectRuntime.Graph

theorem count_set_lt {marks : Array Bool} {n : Nat} (inside : n < marks.size)
    (new : marks[n] = false) : (marks.set n true).count false < marks.count false := by
  have some_left : 0 < marks.count false :=
    Array.count_pos_iff.2 (new ▸ Array.getElem_mem inside)
  rw [Array.count_set, new]
  change marks.count false - 1 + 0 < marks.count false
  omega

def explore (successors : Nat → List Nat) (marked : Array Bool) (work : List Nat) : Array Bool :=
  match work with
  | [] => marked
  | n :: rest =>
    if h : ∃ inside : n < marked.size, marked[n] = false then
      explore successors (marked.set n true h.1) (successors n ++ rest)
    else explore successors marked rest
termination_by (marked.count false, work.length)
decreasing_by
  · exact Prod.Lex.left _ _ (count_set_lt h.1 h.2)
  · apply Prod.Lex.right
    simp

/-- The marks of all nodes below `size` that the roots lead to. -/
def marksFrom (successors : Nat → List Nat) (size : Nat) (roots : List Nat) : Array Bool :=
  explore successors (Array.replicate size false) roots

def isMarked (marks : Array Bool) (n : Nat) : Bool := marks[n]?.getD false

def countMarked (marks : Array Bool) (start count : Nat) : Nat :=
  ((List.range' start count).filter (isMarked marks)).length

end ObjectRuntime.Graph
