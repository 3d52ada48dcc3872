import ObjectRuntime.Proofs.Hierarchy.Order
import ObjectRuntime.Proofs.Hierarchy.SuperChain

/-!
# The definitions that super calls visit

A method is found without its place. A super call from it knows the owner of the method and, from
the second one on, the place where the search before it ended. If every entry is in the table of its
owner, that is enough: the walk visits the entries along the ancestors one by one, also where a
module stands among them more than once. The walk along the class-level methods needs no places,
since no class stands above itself.
-/

set_option autoImplicit false

namespace ObjectRuntime.Hierarchy

structure Uncopied (h : Hierarchy) : Prop where
  methods : ∀ id name method, h.ownMethod? id name = some method → method.owner = id
  classMethods : ∀ id name method, h.ownClassMethod? id name = some method → method.owner = id

def entriesAlong (path : List ModuleId) (table : ModuleId → Option Method) : List (Nat × Method) :=
  path.zipIdx.filterMap fun stand => (table stand.1).map fun method => (stand.2, method)

/-- The method that a search and then so many super calls lead to, with the place where the last of
them found it. -/
def superWalk (h : Hierarchy) (cls : ModuleId) (name : String) : Nat → Option (Method × Option Nat)
  | 0 => (h.findMethod cls name).map fun method => (method, none)
  | calls + 1 => (h.superWalk cls name calls).bind fun (method, recorded) =>
    (h.findMethodAfter cls method.owner name recorded).map fun (place, next) => (next, some place)

def classSuperWalk (h : Hierarchy) (id : ModuleId) (name : String) : Nat → Option Method
  | 0 => h.findClassMethod id name
  | calls + 1 => (h.classSuperWalk id name calls).bind fun method =>
    h.findClassMethodAfter id method.owner name

variable {h after : Hierarchy} {id cls : ModuleId} {name : String} {calls : Nat}

/-! ### Among the ancestors -/

theorem entriesFrom_eq (h : Hierarchy) (name : String) (start : Nat) (path : List ModuleId) :
    h.entriesFrom name start path = (path.zipIdx start).filterMap fun stand =>
      (h.ownMethod? stand.1 name).map fun method => (stand.2, method) := by
  induction path generalizing start with
  | nil => rfl
  | cons id rest ih =>
    rw [entriesFrom, List.zipIdx_cons, List.filterMap_cons]
    cases h.ownMethod? id name with
    | none => exact ih (start + 1)
    | some method => exact congrArg ((start, method) :: ·) (ih (start + 1))

theorem entries_eq (h : Hierarchy) (cls : ModuleId) (name : String) :
    h.entries cls name = entriesAlong (h.ancestors cls) (h.ownMethod? · name) :=
  h.entriesFrom_eq name 0 (h.ancestors cls)

/-- The walk goes from stop to stop of the chain of super calls. -/
theorem superWalk_eq_stopAt (h : Hierarchy) (cls : ModuleId) (name : String) (calls : Nat) :
    h.superWalk cls name calls =
      (h.stopAt cls name calls).map fun stop => (stop.method, stop.recorded) := by
  induction calls with
  | zero =>
    rw [superWalk, stopAt, firstStop, findMethod_eq, ← firstEntry_map_snd h name 0]
    simp only [Option.map_map]
    rfl
  | succ calls ih =>
    rw [superWalk, ih, stopAt]
    cases h.stopAt cls name calls with
    | none => rfl
    | some stop =>
      simp only [Option.map_some, Option.bind_some, nextStop, Option.map_map]
      rfl

theorem Uncopied.nextStop (uncopied : h.Uncopied) {stop : Stop} (found : stop.Found h cls name)
    (at_calls : (h.entries cls name)[calls]? = some (stop.place, stop.method)) :
    h.nextStop cls name stop =
      ((h.entries cls name)[calls + 1]?).map fun entry => ⟨entry.1, entry.2, some entry.1⟩ := by
  obtain ⟨entry, next⟩ := entries_next at_calls
  obtain ⟨id, at_place, own⟩ := Option.bind_eq_some_iff.1 entry
  have owner : (h.ancestors cls)[stop.place]? = some stop.method.owner := by
    rw [at_place, uncopied.methods id name stop.method own]
  rw [Hierarchy.nextStop, findMethodAfter, placeOf_of_owner found owner, Option.bind_some, next]

theorem Uncopied.stopAt (uncopied : h.Uncopied) (cls : ModuleId) (name : String) (calls : Nat) :
    h.stopAt cls name calls = ((h.entries cls name)[calls]?).map fun entry =>
      ⟨entry.1, entry.2, if calls = 0 then none else some entry.1⟩ := by
  induction calls with
  | zero =>
    rw [Hierarchy.stopAt, firstStop, ← head?_entriesFrom, List.head?_eq_getElem?]
    rfl
  | succ calls ih =>
    rw [Hierarchy.stopAt]
    cases at_calls : (h.entries cls name)[calls]? with
    | none =>
      have ended : (h.entries cls name)[calls + 1]? = none :=
        List.getElem?_eq_none (Nat.le_succ_of_le (List.getElem?_eq_none_iff.1 at_calls))
      rw [ih, at_calls, ended]
      rfl
    | some entry =>
      rw [at_calls, Option.map_some] at ih
      rw [ih, Option.bind_some, uncopied.nextStop (stopAt_found ih) at_calls]
      rfl

/-! ### Along the superclasses -/

theorem split_of_getElem?_filterMap {α β : Type} {f : α → Option β} {path : List α}
    {position : Nat} {b : β} (at_position : (path.filterMap f)[position]? = some b) :
    ∃ before a rest, path = before ++ a :: rest ∧ f a = some b ∧
      (path.filterMap f)[position + 1]? = rest.findSome? f := by
  obtain ⟨lt, rfl⟩ := List.getElem?_eq_some_iff.1 at_position
  have parts : path.filterMap f = (path.filterMap f).take position ++
      (path.filterMap f)[position] :: (path.filterMap f).drop (position + 1) := by
    rw [← List.drop_eq_getElem_cons lt, List.take_append_drop]
  obtain ⟨before, tail, rfl, -, tail_eq⟩ := List.filterMap_eq_append_iff.1 parts
  obtain ⟨passed, a, rest, rfl, -, entry, rest_eq⟩ := List.filterMap_eq_cons_iff.1 tail_eq
  refine ⟨before ++ passed, a, rest, (List.append_assoc ..).symm, entry, ?_⟩
  rw [← List.head?_drop, ← rest_eq, List.head?_filterMap]

theorem Uncopied.findClassMethodAfter (uncopied : h.Uncopied) {method : Method}
    (at_calls : ((h.superclasses id).filterMap (h.ownClassMethod? · name))[calls]? = some method) :
    h.findClassMethodAfter id method.owner name =
      ((h.superclasses id).filterMap (h.ownClassMethod? · name))[calls + 1]? := by
  obtain ⟨before, cls, rest, path, own, next⟩ := split_of_getElem?_filterMap at_calls
  have passed : ∀ other ∈ before, (other != cls) = true := by
    intro other mem
    have apart := h.nodup_superclasses id
    rw [path] at apart
    exact bne_iff_ne.2 ((List.nodup_append.1 apart).2.2 other mem cls List.mem_cons_self)
  rw [next, Hierarchy.findClassMethodAfter, uncopied.classMethods cls name method own, path,
    List.dropWhile_append_of_pos passed, List.dropWhile_cons_of_neg (by simp), List.drop_succ_cons,
    List.drop_zero]

theorem Uncopied.classSuperWalk (uncopied : h.Uncopied) (id : ModuleId) (name : String)
    (calls : Nat) : h.classSuperWalk id name calls =
      ((h.superclasses id).filterMap (h.ownClassMethod? · name))[calls]? := by
  induction calls with
  | zero =>
    rw [Hierarchy.classSuperWalk, findClassMethod, ← List.head?_filterMap, List.head?_eq_getElem?]
  | succ calls ih =>
    rw [Hierarchy.classSuperWalk, ih]
    cases at_calls : ((h.superclasses id).filterMap (h.ownClassMethod? · name))[calls]? with
    | none =>
      rw [List.getElem?_eq_none (Nat.le_succ_of_le (List.getElem?_eq_none_iff.1 at_calls))]
      rfl
    | some method => exact uncopied.findClassMethodAfter at_calls

/-! ### Tables without copies -/

theorem uncopied_empty : empty.Uncopied := by
  have nothing : ∀ id, empty.get? id = none := fun id => Array.getElem?_eq_none (Nat.zero_le _)
  refine ⟨?_, ?_⟩
  · intro id name method own
    rw [ownMethod?, nothing] at own
    cases own
  · intro id name method own
    rw [ownClassMethod?, nothing] at own
    cases own

namespace Uncopied

variable (uncopied : h.Uncopied)

include uncopied

theorem create {m : Module} (no_methods : m.methods = .empty)
    (no_classMethods : m.classMethods = .empty) : (h.create m).Uncopied where
  methods id name method own := uncopied.methods id name method (ownMethod?_create no_methods own)
  classMethods id name method own :=
    uncopied.classMethods id name method (ownClassMethod?_create no_classMethods own)

theorem includeModule {target : ModuleId} (done : h.includeModule target id = .ok after) :
    after.Uncopied where
  methods id name method own :=
    uncopied.methods id name method ((ownMethod?_includeModule done id name).symm.trans own)
  classMethods id name method own :=
    uncopied.classMethods id name method
      ((ownClassMethod?_includeModule done id name).symm.trans own)

theorem removeMethod (owner : ModuleId) (name : String) : (h.removeMethod owner name).Uncopied where
  methods id name method own := uncopied.methods id name method (ownMethod?_removeMethod own)
  classMethods id name method own :=
    uncopied.classMethods id name method ((ownClassMethod?_removeMethod ..).symm.trans own)

theorem defineMethod (method : Method) : (h.defineMethod method.owner method).Uncopied where
  methods id name found own := by
    obtain ⟨same, -, rfl⟩ | before := ownMethod?_defineMethod own
    · exact same.symm
    · exact uncopied.methods id name found before
  classMethods id name found own :=
    uncopied.classMethods id name found ((ownClassMethod?_defineMethod ..).symm.trans own)

theorem defineClassMethod (method : Method) :
    (h.defineClassMethod method.owner method).Uncopied where
  methods id name found own :=
    uncopied.methods id name found ((ownMethod?_defineClassMethod ..).symm.trans own)
  classMethods id name found own := by
    obtain ⟨same, -, rfl⟩ | before := ownClassMethod?_defineClassMethod own
    · exact same.symm
    · exact uncopied.classMethods id name found before

theorem performOn {step : HierarchyStep}
    (other : ∀ id name visibility, step ≠ .retag id name visibility) (interner : Interner) :
    (HierarchyState.performOn h interner step).2.Uncopied := by
  cases step with
  | create name kind superclass => exact uncopied.create rfl rfl
  | define placement owner name arity visibility =>
    cases placement with
    | ordinary | closure => exact uncopied.defineMethod _
    | classLevel => exact uncopied.defineClassMethod _
  | retag id name visibility => exact absurd rfl (other id name visibility)
  | remove owner name => exact uncopied.removeMethod owner name
  | undefine owner name => exact uncopied.defineMethod (.undefined name owner)
  | includeModule target id =>
    rw [HierarchyState.performOn]
    split
    next after done => exact uncopied.includeModule done
    next => exact uncopied
  | info id =>
    rw [HierarchyState.performOn]
    split
    next => exact uncopied
    next => exact uncopied
  | _ => exact uncopied

end Uncopied

theorem uncopied_afterSteps {steps : List HierarchyStep}
    (others : ∀ step ∈ steps, ∀ id name visibility, step ≠ .retag id name visibility) :
    (afterSteps steps).Uncopied := by
  rw [afterSteps]
  generalize start : empty = h
  have uncopied : h.Uncopied := start ▸ uncopied_empty
  clear start
  induction steps generalizing h with
  | nil => exact uncopied
  | cons step rest ih =>
    exact ih (fun step mem => others step (List.mem_cons_of_mem _ mem)) _
      (uncopied.performOn (others step List.mem_cons_self) .withCore)

/-- Where no entry is a copy, a search and the super calls after it visit the entries along the
ancestors in order, each once at each place of its module, and the place is recorded from the first
super call on. With class-level methods they visit those along the superclasses. -/
theorem super_walk_visits_definitions (uncopied : h.Uncopied) (cls : ModuleId) (name : String) :
    (∀ calls, h.superWalk cls name calls =
      ((entriesAlong (h.ancestors cls) (h.ownMethod? · name))[calls]?).map fun entry =>
        (entry.2, if calls = 0 then none else some entry.1)) ∧
    ∀ calls, h.classSuperWalk cls name calls =
      ((h.superclasses cls).filterMap (h.ownClassMethod? · name))[calls]? := by
  refine ⟨?_, uncopied.classSuperWalk cls name⟩
  intro calls
  rw [superWalk_eq_stopAt, uncopied.stopAt, ← entries_eq, Option.map_map]
  rfl

def stepsToRepeat : List HierarchyStep :=
  [.create (some "M") .moduleKind none,
   .create (some "A") .classKind none,
   .create (some "C") .classKind (some ⟨1⟩),
   .define .ordinary ⟨0⟩ "n" (.exactly 0) .isPublic,
   .define .ordinary ⟨2⟩ "n" (.exactly 0) .isPublic,
   .define .classLevel ⟨1⟩ "n" (.exactly 0) .isPublic,
   .define .classLevel ⟨2⟩ "n" (.exactly 0) .isPublic,
   .includeModule ⟨2⟩ ⟨0⟩,
   .includeModule ⟨2⟩ ⟨0⟩]

/-- The walk visits the module at both of its places and then ends, and the class-level walk goes on
to the superclass. -/
theorem super_walk_visits_definitions_repeated :
    (afterSteps stepsToRepeat).Uncopied ∧
    (afterSteps stepsToRepeat).ancestors ⟨2⟩ = [⟨2⟩, ⟨0⟩, ⟨0⟩, ⟨1⟩] ∧
    (((afterSteps stepsToRepeat).superWalk ⟨2⟩ "n" 1).map fun visit => (visit.1.owner, visit.2)) =
      some (⟨0⟩, some 1) ∧
    (((afterSteps stepsToRepeat).superWalk ⟨2⟩ "n" 2).map fun visit => (visit.1.owner, visit.2)) =
      some (⟨0⟩, some 2) ∧
    ((afterSteps stepsToRepeat).superWalk ⟨2⟩ "n" 3).isNone = true ∧
    ((afterSteps stepsToRepeat).classSuperWalk ⟨2⟩ "n" 1).map (·.owner) = some ⟨1⟩ := by
  have uncopied : (afterSteps stepsToRepeat).Uncopied :=
    uncopied_afterSteps (by simp [stepsToRepeat])
  obtain ⟨walk, classWalk⟩ := super_walk_visits_definitions uncopied ⟨2⟩ "n"
  rw [walk, walk, walk, classWalk]
  exact ⟨uncopied, by decide, by decide, by decide, by decide, by decide⟩

end ObjectRuntime.Hierarchy
