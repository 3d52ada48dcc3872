import ObjectRuntime.Hierarchy.Basic

/-!
# Method search along the ancestors

The search for a method goes through the modules by recursion, and a super call walks the list of
ancestors by place. Both see the same entries in the same order: `findMethod` is the first entry
among the ancestors, and `firstEntry` is characterised by the places it passes over.
-/

set_option autoImplicit false

namespace ObjectRuntime.Hierarchy

theorem findSome?_flatMap {α β γ : Type} (f : β → Option γ) (g : α → List β) (list : List α) :
    (list.flatMap g).findSome? f = list.findSome? fun a => (g a).findSome? f := by
  induction list with
  | nil => rfl
  | cons a rest ih =>
    rw [List.flatMap_cons, List.findSome?_append, ih, List.findSome?_cons]
    cases (g a).findSome? f <;> rfl

theorem lookupTo_eq (h : Hierarchy) (name : String) (depth : Nat) (id : ModuleId) :
    h.lookupTo name depth id =
      (h.expandTo depth id).findSome? fun place => h.ownMethod? place name := by
  induction depth generalizing id with
  | zero => rfl
  | succ depth ih =>
    have below : h.lookupTo name depth =
        fun place => (h.expandTo depth place).findSome? fun place => h.ownMethod? place name :=
      funext ih
    rw [lookupTo, expandTo, List.findSome?_cons, findSome?_flatMap, below]
    cases h.ownMethod? id name <;> rfl

/-- Resolution by recursion is the first entry in the linear order. -/
theorem findMethod_eq (h : Hierarchy) (cls : ModuleId) (name : String) :
    h.findMethod cls name = (h.ancestors cls).findSome? fun place => h.ownMethod? place name := by
  rw [findMethod, ancestors, findSome?_flatMap]
  exact congrArg (List.findSome? · (h.superclasses cls))
    (funext fun id => lookupTo_eq h name h.size id)

theorem firstEntry_eq_some (h : Hierarchy) (name : String) (start : Nat) (path : List ModuleId)
    (place : Nat) (method : Method) :
    h.firstEntry name start path = some (place, method) ↔
      ∃ skipped, place = start + skipped ∧
        (path[skipped]?.bind fun id => h.ownMethod? id name) = some method ∧
        ∀ earlier < skipped, (path[earlier]?.bind fun id => h.ownMethod? id name) = none := by
  induction path generalizing start with
  | nil => simp [firstEntry]
  | cons id rest ih =>
    rw [firstEntry]
    cases own : h.ownMethod? id name with
    | some found =>
      constructor
      · intro eq
        obtain ⟨rfl, rfl⟩ : start = place ∧ found = method := by simpa using eq
        exact ⟨0, rfl, by simpa using own, fun earlier lt => absurd lt (Nat.not_lt_zero _)⟩
      · rintro ⟨skipped, rfl, entry, before⟩
        cases skipped with
        | zero =>
          have same : found = method := by simpa [own] using entry
          simp [same]
        | succ skipped =>
          have first := before 0 (Nat.succ_pos _)
          simp [own] at first
    | none =>
      change h.firstEntry name (start + 1) rest = some (place, method) ↔ _
      rw [ih]
      constructor
      · rintro ⟨skipped, rfl, entry, before⟩
        refine ⟨skipped + 1, by omega, by simpa using entry, ?_⟩
        intro earlier lt
        cases earlier with
        | zero => simpa using own
        | succ earlier => simpa using before earlier (by omega)
      · rintro ⟨skipped, rfl, entry, before⟩
        cases skipped with
        | zero => simp [own] at entry
        | succ skipped =>
          refine ⟨skipped, by omega, by simpa using entry, ?_⟩
          intro earlier lt
          simpa using before (earlier + 1) (by omega)

theorem firstEntry_eq_none (h : Hierarchy) (name : String) (start : Nat) (path : List ModuleId) :
    h.firstEntry name start path = none ↔
      ∀ place : Nat, (path[place]?.bind fun id => h.ownMethod? id name) = none := by
  induction path generalizing start with
  | nil => simp [firstEntry]
  | cons id rest ih =>
    rw [firstEntry]
    cases own : h.ownMethod? id name with
    | some found =>
      refine iff_of_false (by simp) ?_
      intro all
      have first := all 0
      simp [own] at first
    | none =>
      change h.firstEntry name (start + 1) rest = none ↔ _
      rw [ih]
      constructor
      · intro all place
        cases place with
        | zero => simpa using own
        | succ place => simpa using all place
      · intro all place
        simpa using all (place + 1)

theorem firstEntry_map_snd (h : Hierarchy) (name : String) (start : Nat) (path : List ModuleId) :
    (h.firstEntry name start path).map (·.2) =
      path.findSome? fun id => h.ownMethod? id name := by
  induction path generalizing start with
  | nil => rfl
  | cons id rest ih =>
    rw [firstEntry, List.findSome?_cons]
    cases h.ownMethod? id name with
    | some found => rfl
    | none => exact ih (start + 1)

def entryAt (h : Hierarchy) (cls : ModuleId) (name : String) (place : Nat) : Option Method :=
  (h.ancestors cls)[place]?.bind fun id => h.ownMethod? id name

theorem entryAt_lt {h : Hierarchy} {cls : ModuleId} {name : String} {place : Nat} {method : Method}
    (entry : h.entryAt cls name place = some method) : place < (h.ancestors cls).length := by
  obtain ⟨id, at_place, -⟩ := Option.bind_eq_some_iff.1 entry
  exact (List.getElem?_eq_some_iff.1 at_place).1

theorem firstEntry_drop_eq_some (h : Hierarchy) (cls : ModuleId) (name : String)
    (start place : Nat) (method : Method) :
    h.firstEntry name start ((h.ancestors cls).drop start) = some (place, method) ↔
      start ≤ place ∧ h.entryAt cls name place = some method ∧
        ∀ earlier, start ≤ earlier → earlier < place → h.entryAt cls name earlier = none := by
  rw [firstEntry_eq_some]
  simp only [List.getElem?_drop]
  constructor
  · rintro ⟨skipped, rfl, entry, before⟩
    refine ⟨Nat.le_add_right _ _, entry, ?_⟩
    intro earlier from_start lt
    have passed := before (earlier - start) (by omega)
    rwa [Nat.add_sub_cancel' from_start] at passed
  · rintro ⟨from_start, entry, before⟩
    refine ⟨place - start, by omega, ?_, ?_⟩
    · rw [Nat.add_sub_cancel' from_start]
      exact entry
    · intro earlier lt
      exact before (start + earlier) (Nat.le_add_right _ _) (by omega)

theorem firstEntry_drop_eq_none (h : Hierarchy) (cls : ModuleId) (name : String) (start : Nat) :
    h.firstEntry name start ((h.ancestors cls).drop start) = none ↔
      ∀ place, start ≤ place → h.entryAt cls name place = none := by
  rw [firstEntry_eq_none]
  simp only [List.getElem?_drop]
  constructor
  · intro all place from_start
    have passed := all (place - start)
    rwa [Nat.add_sub_cancel' from_start] at passed
  · intro all place
    exact all (start + place) (Nat.le_add_right _ _)

def entriesFrom (h : Hierarchy) (name : String) : Nat → List ModuleId → List (Nat × Method)
  | _, [] => []
  | place, id :: rest =>
    match h.ownMethod? id name with
    | some m => (place, m) :: h.entriesFrom name (place + 1) rest
    | none => h.entriesFrom name (place + 1) rest

def entries (h : Hierarchy) (cls : ModuleId) (name : String) : List (Nat × Method) :=
  h.entriesFrom name 0 (h.ancestors cls)

theorem head?_entriesFrom (h : Hierarchy) (name : String) (start : Nat) (path : List ModuleId) :
    (h.entriesFrom name start path).head? = h.firstEntry name start path := by
  induction path generalizing start with
  | nil => rfl
  | cons id rest ih =>
    rw [entriesFrom, firstEntry]
    cases h.ownMethod? id name with
    | some m => rfl
    | none => exact ih (start + 1)

theorem getElem?_entriesFrom {h : Hierarchy} {name : String} {start position place : Nat}
    {path : List ModuleId} {method : Method}
    (at_position : (h.entriesFrom name start path)[position]? = some (place, method)) :
    ∃ skipped, place = start + skipped ∧
      (path[skipped]?.bind fun id => h.ownMethod? id name) = some method ∧
      (h.entriesFrom name start path).drop (position + 1) =
        h.entriesFrom name (place + 1) (path.drop (skipped + 1)) := by
  induction path generalizing start position with
  | nil => cases at_position
  | cons id rest ih =>
    rw [entriesFrom] at at_position ⊢
    cases own : h.ownMethod? id name with
    | none =>
      rw [own] at at_position
      obtain ⟨skipped, rfl, entry, rest_eq⟩ := ih at_position
      exact ⟨skipped + 1, by omega, entry, rest_eq⟩
    | some found =>
      rw [own] at at_position
      cases position with
      | zero =>
        obtain ⟨rfl, rfl⟩ := Prod.mk.inj (Option.some.inj at_position)
        exact ⟨0, rfl, own, rfl⟩
      | succ position =>
        obtain ⟨skipped, rfl, entry, rest_eq⟩ := ih at_position
        exact ⟨skipped + 1, by omega, entry, rest_eq⟩

theorem entries_next {h : Hierarchy} {cls : ModuleId} {name : String} {position place : Nat}
    {method : Method} (at_position : (h.entries cls name)[position]? = some (place, method)) :
    h.entryAt cls name place = some method ∧
      (h.entries cls name)[position + 1]? =
        h.firstEntry name (place + 1) ((h.ancestors cls).drop (place + 1)) := by
  obtain ⟨skipped, rfl, entry, rest_eq⟩ := getElem?_entriesFrom at_position
  rw [Nat.zero_add] at rest_eq ⊢
  refine ⟨entry, ?_⟩
  rw [← head?_entriesFrom, ← rest_eq, List.head?_drop]
  rfl

end ObjectRuntime.Hierarchy
