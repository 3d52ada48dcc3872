import ObjectRuntime.Hierarchy.Transcript
import ObjectRuntime.Proofs.Hierarchy.Lookup
import Mathlib.Tactic.ByContra

/-!
# Progress along a chain of super calls

A chain of instance-level super calls starts at the entry that resolution finds and goes on with
`findMethodAfter`. The place to go on from is worked out again at every stop, from the owner of the
method that runs there and from the place its frame recorded. A copy that a change of visibility
left in another table keeps its owner, so the owner may stand before the copy; from there the chain
goes back. This is the only way for it not to make progress.
-/

set_option autoImplicit false

namespace ObjectRuntime.Hierarchy

/-- A stop of the chain: the definition that runs and where it was found. The first stop records no
place. -/
structure Stop where
  place : Nat
  method : Method
  recorded : Option Nat

def firstStop (h : Hierarchy) (cls : ModuleId) (name : String) : Option Stop :=
  (h.firstEntry name 0 (h.ancestors cls)).map fun entry => ⟨entry.1, entry.2, none⟩

def nextStop (h : Hierarchy) (cls : ModuleId) (name : String) (stop : Stop) : Option Stop :=
  (h.findMethodAfter cls stop.method.owner name stop.recorded).map fun entry =>
    ⟨entry.1, entry.2, some entry.1⟩

def stopAt (h : Hierarchy) (cls : ModuleId) (name : String) : Nat → Option Stop
  | 0 => h.firstStop cls name
  | calls + 1 => (h.stopAt cls name calls).bind (h.nextStop cls name)

def Advances (h : Hierarchy) (cls : ModuleId) (name : String) : Prop :=
  ∀ calls stop next, h.stopAt cls name calls = some stop → h.nextStop cls name stop = some next →
    stop.place < next.place

/-- A copy below its owner: the owner does not stand at the place of the copy but before it. -/
def Displaced (h : Hierarchy) (cls : ModuleId) (stop : Stop) : Prop :=
  (h.ancestors cls)[stop.place]? ≠ some stop.method.owner ∧
    ∃ earlier < stop.place, (h.ancestors cls)[earlier]? = some stop.method.owner

/-- What holds of every stop: the table at its place has its method, and a stop that records no
place is the first entry. -/
structure Stop.Found (h : Hierarchy) (cls : ModuleId) (name : String) (stop : Stop) : Prop where
  entry : h.entryAt cls name stop.place = some stop.method
  recorded : stop.recorded = some stop.place ∨
    stop.recorded = none ∧ ∀ earlier < stop.place, h.entryAt cls name earlier = none

variable {h : Hierarchy} {cls : ModuleId} {name : String}

theorem firstStop_found {stop : Stop} (first : h.firstStop cls name = some stop) :
    stop.Found h cls name := by
  obtain ⟨⟨place, method⟩, found, rfl⟩ := Option.map_eq_some_iff.1 first
  have spec := (h.firstEntry_drop_eq_some cls name 0 place method).1 found
  exact ⟨spec.2.1, .inr ⟨rfl, fun earlier lt => spec.2.2 earlier (Nat.zero_le _) lt⟩⟩

theorem nextStop_found {stop next : Stop} (step : h.nextStop cls name stop = some next) :
    next.Found h cls name := by
  obtain ⟨⟨place, method⟩, found, rfl⟩ := Option.map_eq_some_iff.1 step
  obtain ⟨start, -, entry⟩ := Option.bind_eq_some_iff.1 found
  have spec := (h.firstEntry_drop_eq_some cls name (start + 1) place method).1 entry
  exact ⟨spec.2.1, .inl rfl⟩

theorem stopAt_found {calls : Nat} {stop : Stop} (at_stop : h.stopAt cls name calls = some stop) :
    stop.Found h cls name := by
  cases calls with
  | zero => exact firstStop_found at_stop
  | succ calls =>
    obtain ⟨_, _, step⟩ := Option.bind_eq_some_iff.1 at_stop
    exact nextStop_found step

theorem placeOf_of_owner {stop : Stop} (found : stop.Found h cls name)
    (owner : (h.ancestors cls)[stop.place]? = some stop.method.owner) :
    placeOf (h.ancestors cls) stop.method.owner stop.recorded = some stop.place := by
  obtain recorded | ⟨recorded, before⟩ := found.recorded
  · rw [recorded, placeOf, if_pos owner]
  · rw [recorded, placeOf, List.idxOf?_eq_some_iff]
    obtain ⟨lt, at_place⟩ := List.getElem?_eq_some_iff.1 owner
    refine ⟨lt, by simpa using at_place, ?_⟩
    intro earlier earlier_lt same
    have same_table : h.entryAt cls name earlier = h.entryAt cls name stop.place := by
      have earlier_owner : (h.ancestors cls)[earlier]? = some stop.method.owner := by
        rw [List.getElem?_eq_getElem (by omega)]
        simpa using same
      rw [entryAt, entryAt, earlier_owner, owner]
    rw [before earlier earlier_lt, found.entry] at same_table
    cases same_table

theorem placeOf_of_not_owner {stop : Stop} (found : stop.Found h cls name)
    (other : (h.ancestors cls)[stop.place]? ≠ some stop.method.owner) :
    placeOf (h.ancestors cls) stop.method.owner stop.recorded =
      (h.ancestors cls).idxOf? stop.method.owner := by
  obtain recorded | ⟨recorded, -⟩ := found.recorded
  · rw [recorded, placeOf, if_neg other]
  · rw [recorded, placeOf]

theorem nextStop_eq_some_of_placeOf {stop next : Stop} {start : Nat}
    (resumed : placeOf (h.ancestors cls) stop.method.owner stop.recorded = some start)
    (step : h.nextStop cls name stop = some next) : start < next.place := by
  obtain ⟨⟨place, method⟩, found, rfl⟩ := Option.map_eq_some_iff.1 step
  rw [findMethodAfter, resumed] at found
  exact ((h.firstEntry_drop_eq_some cls name (start + 1) place method).1 found).1

theorem nextStop_of_displaced {stop : Stop} (found : stop.Found h cls name)
    (displaced : h.Displaced cls stop) :
    ∃ next, h.nextStop cls name stop = some next ∧ next.place ≤ stop.place := by
  obtain ⟨other, earlier, earlier_lt, owner_before⟩ := displaced
  have mem : stop.method.owner ∈ h.ancestors cls := List.mem_of_getElem? owner_before
  obtain ⟨start, resumed⟩ :=
    Option.isSome_iff_exists.1 ((List.isSome_idxOf? (l := h.ancestors cls)).2 mem)
  have start_lt : start < stop.place := by
    obtain ⟨start_lt, -, least⟩ := List.idxOf?_eq_some_iff.1 resumed
    by_contra ge
    obtain ⟨earlier_len, at_earlier⟩ := List.getElem?_eq_some_iff.1 owner_before
    exact least earlier (by omega) (by simpa using at_earlier)
  have start_eq := placeOf_of_not_owner found other
  rw [resumed] at start_eq
  cases entry : h.firstEntry name (start + 1) ((h.ancestors cls).drop (start + 1)) with
  | none =>
    have absent := (h.firstEntry_drop_eq_none cls name (start + 1)).1 entry stop.place start_lt
    rw [found.entry] at absent
    cases absent
  | some found_next =>
    obtain ⟨place, method⟩ := found_next
    have spec := (h.firstEntry_drop_eq_some cls name (start + 1) place method).1 entry
    refine ⟨⟨place, method, some place⟩, ?_, ?_⟩
    · rw [nextStop, findMethodAfter, start_eq, Option.bind_some, entry, Option.map_some]
    · by_contra gt
      have passed := spec.2.2 stop.place start_lt (Nat.lt_of_not_le gt)
      rw [found.entry] at passed
      cases passed

/-- One super call makes progress exactly from a stop that is not displaced. -/
theorem nextStop_advances_iff {stop next : Stop} (found : stop.Found h cls name)
    (step : h.nextStop cls name stop = some next) :
    stop.place < next.place ↔ ¬ h.Displaced cls stop := by
  constructor
  · intro advances displaced
    obtain ⟨back, step_back, back_le⟩ := nextStop_of_displaced found displaced
    rw [step, Option.some.injEq] at step_back
    rw [step_back] at advances
    omega
  · intro in_place
    by_cases owner : (h.ancestors cls)[stop.place]? = some stop.method.owner
    · exact nextStop_eq_some_of_placeOf (placeOf_of_owner found owner) step
    · cases resumed : (h.ancestors cls).idxOf? stop.method.owner with
      | none =>
        have start_eq := placeOf_of_not_owner found owner
        rw [nextStop, findMethodAfter, start_eq, resumed] at step
        cases step
      | some start =>
        have start_lt := nextStop_eq_some_of_placeOf
          ((placeOf_of_not_owner found owner).trans resumed) step
        obtain ⟨start_len, at_start, -⟩ := List.idxOf?_eq_some_iff.1 resumed
        have owner_start : (h.ancestors cls)[start]? = some stop.method.owner := by
          rw [List.getElem?_eq_getElem start_len]
          simpa using at_start
        by_contra back
        have start_ne : start ≠ stop.place := by
          intro same
          exact owner (same ▸ owner_start)
        exact in_place ⟨owner, start, by omega, owner_start⟩

theorem Advances.le_place (advances : h.Advances cls name) {calls : Nat} {stop : Stop}
    (at_stop : h.stopAt cls name calls = some stop) : calls ≤ stop.place := by
  induction calls generalizing stop with
  | zero => exact Nat.zero_le _
  | succ calls ih =>
    obtain ⟨before, at_before, step⟩ := Option.bind_eq_some_iff.1 at_stop
    have lower := ih at_before
    have further := advances calls before stop at_before step
    omega

theorem Advances.ends (advances : h.Advances cls name) :
    h.stopAt cls name (h.ancestors cls).length = none := by
  cases at_stop : h.stopAt cls name (h.ancestors cls).length with
  | none => rfl
  | some stop =>
    have lower := advances.le_place at_stop
    have upper := entryAt_lt (stopAt_found at_stop).entry
    omega

/-- The chain makes progress at every super call exactly if no stop on it is a copy below its owner;
then it ends within the number of ancestors. Without copies this is always so. -/
theorem super_chain_progress (h : Hierarchy) (cls : ModuleId) (name : String) :
    (h.stopAt cls name 0).map (·.method) = h.findMethod cls name ∧
    (h.Advances cls name ↔ ∀ calls stop, h.stopAt cls name calls = some stop →
      ¬ h.Displaced cls stop) ∧
    (h.Advances cls name → h.stopAt cls name (h.ancestors cls).length = none) ∧
    ((∀ id ∈ h.ancestors cls, ∀ method, h.ownMethod? id name = some method → method.owner = id) →
      h.Advances cls name) := by
  have exact_when : h.Advances cls name ↔
      ∀ calls stop, h.stopAt cls name calls = some stop → ¬ h.Displaced cls stop := by
    constructor
    · intro advances calls stop at_stop displaced
      have found := stopAt_found at_stop
      obtain ⟨next, step, back⟩ := nextStop_of_displaced found displaced
      have further := advances calls stop next at_stop step
      omega
    · intro in_place calls stop next at_stop step
      exact (nextStop_advances_iff (stopAt_found at_stop) step).2 (in_place calls stop at_stop)
  refine ⟨?_, exact_when, Advances.ends, ?_⟩
  · rw [findMethod_eq, ← firstEntry_map_snd h name 0]
    change ((h.firstEntry name 0 (h.ancestors cls)).map _).map _ = _
    rw [Option.map_map]
    rfl
  · intro owned
    refine exact_when.2 ?_
    intro calls stop at_stop displaced
    obtain ⟨id, at_place, own⟩ := Option.bind_eq_some_iff.1 (stopAt_found at_stop).entry
    have owner := owned id (List.mem_of_getElem? at_place) stop.method own
    exact displaced.1 (owner ▸ at_place)

def afterSteps (steps : List HierarchyStep) : Hierarchy :=
  steps.foldl (fun h step => (HierarchyState.performOn h .withCore step).2) .empty

/-- A class that includes a module and, before it, another module that includes the same one and
has made the method of it private. -/
def stepsToCopy : List HierarchyStep :=
  [.create (some "O") .moduleKind none,
   .create (some "M") .moduleKind none,
   .create (some "C") .classKind none,
   .define .ordinary ⟨0⟩ "n" (.exactly 0) .isPublic,
   .includeModule ⟨1⟩ ⟨0⟩,
   .retag ⟨1⟩ "n" .isPrivate,
   .includeModule ⟨2⟩ ⟨1⟩,
   .includeModule ⟨2⟩ ⟨0⟩]

def copyStop : Stop where
  place := 2
  method := { Method.plain "n" ⟨0⟩ (.exactly 0) (.native (.builtin .accept)) with
    visibility := .isPrivate }
  recorded := some 2

theorem nextStop_copyStop :
    (afterSteps stepsToCopy).nextStop ⟨2⟩ "n" copyStop = some copyStop := by rfl

theorem stopAt_stepsToCopy (calls : Nat) :
    (afterSteps stepsToCopy).stopAt ⟨2⟩ "n" (calls + 1) = some copyStop := by
  induction calls with
  | zero => rfl
  | succ calls ih =>
    rw [stopAt, ih, Option.bind_some]
    exact nextStop_copyStop

/-- On that table the chain stays at the copy and never ends. -/
theorem super_chain_circles :
    ¬ (afterSteps stepsToCopy).Advances ⟨2⟩ "n" ∧
    ∀ calls, (afterSteps stepsToCopy).stopAt ⟨2⟩ "n" (calls + 1) = some copyStop := by
  refine ⟨?_, stopAt_stepsToCopy⟩
  intro advances
  have further := advances 1 copyStop copyStop (stopAt_stepsToCopy 0) nextStop_copyStop
  exact Nat.lt_irrefl _ further

end ObjectRuntime.Hierarchy
