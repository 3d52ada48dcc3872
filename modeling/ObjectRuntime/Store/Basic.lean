import ObjectRuntime.Collector.Gate
import ObjectRuntime.Collector.Graph
import ObjectRuntime.Bindings
import ObjectRuntime.Value

/-!
# A store with counted holders

Plain objects live as long as something holds them: someone outside the store, or a variable of an
object that lives. An object whose last holder goes drops its variables, and what they held loses a
holder in turn. Objects that hold each other in a circle live on.

The store also keeps a registry of its objects. An entry of a dead object stays until the registry
is pruned, which happens when a new object finds the registry full, and at every collection.
-/

set_option autoImplicit false

namespace ObjectRuntime

/-- An object and how many hold it. A dead object has no holders and no variables. -/
structure Counted where
  holders : Nat
  ivars : Bindings Value

namespace Counted

def fresh : Counted := ⟨1, .empty⟩
def dead : Counted := ⟨0, .empty⟩
def isAlive (o : Counted) : Bool := o.holders != 0
def references (o : Counted) : List ObjectId := o.ivars.values.filterMap Value.object?

def dropHolder (o : Counted) : Counted := { o with holders := o.holders - 1 }

theorem isAlive_of_dropHolder {o : Counted} (h : o.dropHolder.isAlive = true) :
    o.isAlive = true := by
  simp only [isAlive, dropHolder, bne_iff_ne, ne_eq] at h ⊢
  omega

end Counted

theorem countP_set_dead_lt {objects : Array Counted} {i : Nat} (inside : i < objects.size)
    (alive : objects[i].isAlive = true) :
    (objects.set i .dead).countP Counted.isAlive < objects.countP Counted.isAlive := by
  have : 0 < objects.countP Counted.isAlive :=
    Array.countP_pos_iff.2 ⟨_, Array.getElem_mem inside, alive⟩
  rw [Array.countP_set, alive]
  change objects.countP Counted.isAlive - 1 + 0 < objects.countP Counted.isAlive
  omega

theorem countP_set_dropHolder_le {objects : Array Counted} {i : Nat} (inside : i < objects.size) :
    (objects.set i objects[i].dropHolder).countP Counted.isAlive ≤
      objects.countP Counted.isAlive := by
  rw [Array.countP_set]
  cases alive : objects[i].isAlive with
  | true =>
    have : 0 < objects.countP Counted.isAlive :=
      Array.countP_pos_iff.2 ⟨_, Array.getElem_mem inside, alive⟩
    have : (if objects[i].dropHolder.isAlive = true then 1 else 0) ≤ 1 := by split <;> omega
    rw [if_pos rfl]
    omega
  | false =>
    have : objects[i].dropHolder.isAlive ≠ true := fun h => by
      have := Counted.isAlive_of_dropHolder h
      simp_all
    rw [if_neg this, if_neg Bool.false_ne_true]
    omega

/-- Takes one holder from each object in the list of work. An object that loses its last one dies,
and what its variables held joins the list. -/
def dropHolders (objects : Array Counted) (work : List ObjectId) : Array Counted :=
  match work with
  | [] => objects
  | id :: rest =>
    if inside : id.index < objects.size then
      if h : objects[id.index].holders = 1 then
        dropHolders (objects.set id.index .dead) (objects[id.index].references ++ rest)
      else
        dropHolders (objects.set id.index objects[id.index].dropHolder) rest
    else dropHolders objects rest
termination_by (objects.countP Counted.isAlive, work.length)
decreasing_by
  · exact Prod.Lex.left _ _ (countP_set_dead_lt inside (by simp [Counted.isAlive, h]))
  · exact Prod.Lex.right' _ (countP_set_dropHolder_le inside) (Nat.lt_succ_self rest.length)
  · exact Prod.Lex.right _ (Nat.lt_succ_self rest.length)

structure Store where
  objects : Array Counted
  registry : Array ObjectId
  /-- How many entries fill the registry. -/
  limit : Nat
  gate : Gate

/-- What a collection found: how many objects live, and how many of them the roots lead to. -/
structure Collected where
  live : Nat
  reachable : Nat
  unreachable : Nat

namespace Store

def leastLimit : Nat := 1024

def empty : Store where
  objects := #[]
  registry := #[]
  limit := leastLimit
  gate := .opened

def isAlive (s : Store) (id : ObjectId) : Bool :=
  (s.objects[id.index]?.map Counted.isAlive).getD false

def allocations (s : Store) : Nat := s.objects.size
def tracked (s : Store) : Nat := s.registry.size
def living (s : Store) : Nat := (s.registry.filter s.isAlive).size

def pause (s : Store) : PauseGuard × Store :=
  let (guard, gate) := s.gate.pause
  (guard, { s with gate })

def resume (s : Store) (guard : PauseGuard) : Store := { s with gate := s.gate.release guard }

/-- Drops the entries of dead objects; what is left may double before the next time. -/
def prune (s : Store) : Store :=
  let kept := s.registry.filter s.isAlive
  { s with registry := kept, limit := max leastLimit (kept.size * 2) }

/-- The object number of a new object; the caller holds it. -/
def allocate (s : Store) : ObjectId × Store :=
  let id : ObjectId := ⟨s.objects.size⟩
  let s := if s.limit ≤ s.registry.size then s.prune else s
  (id, { s with objects := s.objects.push .fresh, registry := s.registry.push id })

def hold (s : Store) (id : ObjectId) : Store :=
  { s with objects := s.objects.modify id.index fun o => { o with holders := o.holders + 1 } }

def release (s : Store) (ids : List ObjectId) : Store :=
  { s with objects := dropHolders s.objects ids }

def ivar? (s : Store) (id : ObjectId) (name : String) : Option Value :=
  s.objects[id.index]?.bind fun o => o.ivars.get? name

def putIvar (s : Store) (id : ObjectId) (name : String) (value : Value) : Store :=
  { s with
    objects := s.objects.modify id.index fun o => { o with ivars := o.ivars.insert name value } }

/-- The variable holds the new value before it lets go of the old one. -/
def setIvar (s : Store) (id : ObjectId) (name : String) (value : Value) : Store :=
  match s.ivar? id name with
  | some (.object old) => ((holdValue s value).putIvar id name value).release [old]
  | _ => (holdValue s value).putIvar id name value
where
  holdValue (s : Store) : Value → Store
    | .object id => s.hold id
    | .int _ | .float _ => s

def successors (s : Store) (n : Nat) : List Nat :=
  ((s.objects[n]?.map Counted.references).getD []).map ObjectId.index

def marks (s : Store) (roots : List ObjectId) : Array Bool :=
  Graph.marksFrom s.successors s.objects.size (roots.map ObjectId.index)

/-- Prunes the registry and counts how many objects live and how many of these are marked; nothing
while collection is off. -/
def collectWith (s : Store) (marks : Array Bool) : Option Collected × Store :=
  let (allowed, gate) := s.gate.request
  let s := { s with gate }
  if allowed then
    let s := s.prune
    let live := s.registry.size
    let reachable := (s.registry.filter fun id => Graph.isMarked marks id.index).size
    (some { live, reachable, unreachable := live - reachable }, s)
  else (none, s)

def collect (s : Store) (roots : List ObjectId) : Option Collected × Store :=
  s.collectWith (s.marks roots)

end Store

end ObjectRuntime
