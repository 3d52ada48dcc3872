import Mathlib.Data.Finset.Card
import Mathlib.Data.List.Nodup
import ObjectRuntime.Interner.Transcript

/-!
# One number for each text

The numbers by text and the texts by number undo each other, and there are never more texts than
32-bit numbers. What the second step of interning does is said once, by its three outcomes; the rest
follows from what it does to the two look-ups.
-/

set_option autoImplicit false

namespace ObjectRuntime

namespace Interner

variable {i : Interner} {text : String}

/-- The numbers by text and the texts by number undo each other. -/
def Inverse (i : Interner) : Prop :=
  ∀ text number, i.get? text = some number ↔ i.texts[number]? = some text

structure Paired (i : Interner) : Prop where
  inverse : ∀ text number, i.get? text = some number ↔ i.texts[number]? = some text
  bounded : i.size ≤ capacity

theorem size_add : (i.add text).size = i.size + 1 := Array.size_push text

theorem get?_add (other : String) :
    (i.add text).get? other = if text = other then some i.size else i.get? other :=
  Bindings.get?_insert ..

theorem texts_add (number : Nat) :
    (i.add text).texts[number]? = if number = i.size then some text else i.texts[number]? := by
  rw [add, Array.getElem?_push]
  rfl

theorem insert_cases (i : Interner) (text : String) :
    (∃ number, i.get? text = some number ∧ i.insert text = (.ok number, i)) ∨
    (i.get? text = none ∧ i.size < capacity ∧ i.insert text = (.ok i.size, i.add text)) ∨
    (i.get? text = none ∧ capacity ≤ i.size ∧
      i.insert text = (.error (.overflow i.size), i)) := by
  unfold insert
  split
  next number known => exact .inl ⟨number, known, rfl⟩
  next unknown =>
    split
    next fits => exact .inr (.inl ⟨unknown, fits, rfl⟩)
    next full => exact .inr (.inr ⟨unknown, by omega, rfl⟩)

theorem tryIntern_eq_insert (i : Interner) (text : String) :
    i.tryIntern text = i.insert text := by
  unfold tryIntern
  split
  next number known => simp only [insert, known]
  next => rfl

theorem insert_ok (text : String) (fits : i.size < capacity) :
    ∃ number table, i.insert text = (.ok number, table) := by
  obtain ⟨number, -, h⟩ | ⟨-, -, h⟩ | ⟨-, full, -⟩ := i.insert_cases text
  · exact ⟨_, _, h⟩
  · exact ⟨_, _, h⟩
  · omega

theorem insert_error {e : InternError} {table : Interner}
    (h : i.insert text = (.error e, table)) : table = i ∧ capacity ≤ i.size := by
  obtain ⟨number, -, ok⟩ | ⟨-, -, ok⟩ | ⟨-, full, failed⟩ := i.insert_cases text
  · rw [ok] at h; cases h
  · rw [ok] at h; cases h
  · rw [failed] at h; cases h; exact ⟨rfl, full⟩

theorem size_insert_le : (i.insert text).2.size ≤ i.size + 1 := by
  obtain ⟨number, -, h⟩ | ⟨-, -, h⟩ | ⟨-, -, h⟩ := i.insert_cases text <;> rw [h]
  · exact Nat.le_succ _
  · exact size_add.le
  · exact Nat.le_succ _

theorem get?_insert_of_some (other : String) {number : Nat}
    (known : i.get? text = some number) : (i.insert other).2.get? text = some number := by
  obtain ⟨_, -, h⟩ | ⟨new, -, h⟩ | ⟨-, -, h⟩ := i.insert_cases other <;> rw [h]
  · exact known
  · rw [get?_add, if_neg, known]
    rintro rfl
    rw [new] at known
    cases known
  · exact known

theorem get?_insert_ok {number : Nat} {table : Interner}
    (h : i.insert text = (.ok number, table)) (other : String) (n : Nat) :
    table.get? other = some n ↔ (other = text ∧ n = number) ∨ i.get? other = some n := by
  obtain ⟨_, known, ok⟩ | ⟨new, -, ok⟩ | ⟨-, -, failed⟩ := i.insert_cases text
  · rw [ok] at h
    cases h
    refine ⟨.inr, ?_⟩
    rintro (⟨rfl, rfl⟩ | found)
    · exact known
    · exact found
  · rw [ok] at h
    cases h
    rw [get?_add]
    split
    next same =>
      subst same
      simp [new, eq_comm]
    next differ => simp [Ne.symm differ]
  · rw [failed] at h
    cases h

namespace Inverse

/-- The number for the new text is the place that the text is put at. -/
theorem add (inverse : i.Inverse) (new : i.get? text = none) : (i.add text).Inverse := by
  intro other number
  have unplaced : i.texts[number]? ≠ some text := fun placed => by
    rw [(inverse text number).mpr placed] at new
    cases new
  have unnamed : i.get? other ≠ some i.size := fun named => by
    rw [inverse, size, Array.getElem?_size] at named
    cases named
  rw [get?_add, texts_add]
  by_cases same : text = other
  · subst same
    by_cases last : number = i.size <;> simp [last, unplaced, eq_comm]
  · by_cases last : number = i.size
    · simp [same, last, unnamed]
    · rw [if_neg same, if_neg last, inverse]

theorem lookup_eq (inverse : i.Inverse) {number : Nat} (known : i.get? text = some number) :
    i.lookup number = text := by
  rw [lookup, (inverse text number).mp known, Option.getD_some]

end Inverse

namespace Paired

theorem bare : bare.Paired where
  inverse text number := by
    change (Bindings.empty.insert "" emptyNumber).get? text = _ ↔ #[""][number]? = _
    rw [Bindings.get?_insert, Bindings.get?_empty, List.getElem?_toArray]
    cases number with
    | zero => by_cases empty : "" = text <;> simp [empty, emptyNumber]
    | succ => by_cases empty : "" = text <;> simp [empty, emptyNumber]
  bounded := by decide

theorem add (paired : i.Paired) (new : i.get? text = none) (fits : i.size < capacity) :
    (i.add text).Paired where
  inverse := Inverse.add paired.inverse new
  bounded := by rw [size_add]; exact fits

theorem insert (paired : i.Paired) (text : String) : (i.insert text).2.Paired := by
  obtain ⟨_, -, h⟩ | ⟨new, fits, h⟩ | ⟨-, -, h⟩ := i.insert_cases text <;> rw [h]
  · exact paired
  · exact paired.add new fits
  · exact paired

theorem lookup_eq (paired : i.Paired) {number : Nat} (known : i.get? text = some number) :
    i.lookup number = text :=
  Inverse.lookup_eq paired.inverse known

theorem number_lt (paired : i.Paired) {number : Nat} (known : i.get? text = some number) :
    number < i.size :=
  (Array.getElem?_eq_some_iff.mp ((paired.inverse text number).mp known)).1

theorem get?_inj (paired : i.Paired) {other : String} {n m : Nat} (h : i.get? text = some n)
    (h' : i.get? other = some m) : n = m ↔ text = other := by
  constructor
  · rintro rfl
    rw [← paired.lookup_eq h, ← paired.lookup_eq h']
  · rintro rfl
    exact Option.some.inj (h.symm.trans h')

theorem lookup_eq_empty (paired : i.Paired) {number : Nat}
    (unused : ∀ text, i.get? text ≠ some number) : i.lookup number = "" := by
  cases found : i.texts[number]? with
  | none => rw [lookup, found, Option.getD_none]
  | some text => exact absurd ((paired.inverse text number).mpr found) (unused text)

theorem nodup (paired : i.Paired) : i.texts.toList.Nodup := by
  rw [List.nodup_iff_getElem?_ne_getElem?]
  intro n m less bound same
  rw [Array.getElem?_toList, Array.getElem?_toList] at same
  obtain ⟨text, found⟩ : ∃ text, i.texts[m]? = some text :=
    ⟨_, Array.getElem?_eq_getElem (by rwa [Array.length_toList] at bound)⟩
  have first := (paired.inverse text n).mpr (same.trans found)
  rw [(paired.inverse text m).mpr found] at first
  exact less.ne' (Option.some.inj first)

theorem mem_texts (paired : i.Paired) : text ∈ i.texts.toList ↔ ∃ n, i.get? text = some n := by
  rw [List.mem_iff_getElem?]
  simp only [Array.getElem?_toList, paired.inverse]

theorem size_eq_card (paired : i.Paired) (known : Finset String)
    (covers : ∀ text, text ∈ known ↔ ∃ n, i.get? text = some n) : i.size = known.card := by
  have same : i.texts.toList.toFinset = known := by
    ext text
    rw [List.mem_toFinset, paired.mem_texts, covers]
  rw [← same, List.toFinset_card_of_nodup paired.nodup, Array.length_toList]
  rfl

end Paired

end Interner

end ObjectRuntime
