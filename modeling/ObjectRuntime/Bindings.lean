/-!
# Named bindings

A finite map from names to values, as a list of pairs in the order in which the names first came.
Every operation is described by what `get?` then answers.
-/

set_option autoImplicit false

namespace ObjectRuntime

structure Bindings (α : Type) where
  entries : List (String × α)

namespace Bindings

variable {α : Type}

def empty : Bindings α := ⟨[]⟩

instance : Inhabited (Bindings α) := ⟨empty⟩

def find? : List (String × α) → String → Option α
  | [], _ => none
  | (key, value) :: rest, name => if key = name then some value else find? rest name

/-- A name that is present keeps its place; a new one goes to the end. -/
def put : List (String × α) → String → α → List (String × α)
  | [], name, value => [(name, value)]
  | (key, old) :: rest, name, value =>
    if key = name then (name, value) :: rest else (key, old) :: put rest name value

def get? (b : Bindings α) (name : String) : Option α := find? b.entries name
def contains (b : Bindings α) (name : String) : Bool := (b.get? name).isSome
def insert (b : Bindings α) (name : String) (value : α) : Bindings α := ⟨put b.entries name value⟩
def erase (b : Bindings α) (name : String) : Bindings α :=
  ⟨b.entries.filter fun entry => entry.1 != name⟩
def isEmpty (b : Bindings α) : Bool := b.entries.isEmpty
def keys (b : Bindings α) : List String := b.entries.map (·.1)
def values (b : Bindings α) : List α := b.entries.map (·.2)
def sortedKeys (b : Bindings α) : List String := b.keys.mergeSort fun x y => decide (x ≤ y)

theorem find?_put (l : List (String × α)) (name other : String) (value : α) :
    find? (put l name value) other = if name = other then some value else find? l other := by
  induction l with
  | nil => simp [put, find?]
  | cons entry rest ih =>
    obtain ⟨key, old⟩ := entry
    by_cases hk : key = name
    · subst hk
      by_cases ho : key = other <;> simp [put, find?, ho]
    · by_cases ho : name = other
      · subst ho
        simp [put, find?, hk, ih]
      · simp [put, find?, hk, ih, ho]

theorem find?_filter (l : List (String × α)) (name other : String) :
    find? (l.filter fun entry => entry.1 != name) other =
      if name = other then none else find? l other := by
  induction l with
  | nil => simp [find?]
  | cons entry rest ih =>
    obtain ⟨key, old⟩ := entry
    by_cases hk : key = name
    · subst hk
      by_cases ho : key = other
      · subst ho; simp [ih]
      · simp [find?, ih, ho]
    · by_cases ho : name = other
      · subst ho; simp [find?, hk, ih]
      · simp [find?, hk, ih, ho]

@[simp] theorem get?_empty (name : String) : (empty : Bindings α).get? name = none := rfl

theorem get?_insert (b : Bindings α) (name other : String) (value : α) :
    (b.insert name value).get? other = if name = other then some value else b.get? other :=
  find?_put b.entries name other value

@[simp] theorem get?_insert_self (b : Bindings α) (name : String) (value : α) :
    (b.insert name value).get? name = some value := by simp [get?_insert]

theorem get?_insert_of_ne (b : Bindings α) {name other : String} (value : α) (h : name ≠ other) :
    (b.insert name value).get? other = b.get? other := by simp [get?_insert, h]

theorem get?_erase (b : Bindings α) (name other : String) :
    (b.erase name).get? other = if name = other then none else b.get? other :=
  find?_filter b.entries name other

end Bindings

end ObjectRuntime
