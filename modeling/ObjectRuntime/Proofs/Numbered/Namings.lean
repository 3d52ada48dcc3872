import ObjectRuntime.Numbered.Basic
import ObjectRuntime.Proofs.Interner.Numbering
import ObjectRuntime.Proofs.Numbered.Renaming

/-!
# Namings

An interner names the texts it knows. A naming gives every text a name of its own, and those that
the interner knows the names it gave. A thing stands for another one if it is the other one under
each naming; so no text that the interner does not know is in it, and its texts can be read back.
-/

set_option autoImplicit false

namespace ObjectRuntime

namespace Interner

variable {i j : Interner} {text : String}

/-- Numbers and texts undo each other, and the core names are known. -/
structure Sound (i : Interner) : Prop where
  inverse : i.Inverse
  core : ∀ text ∈ coreNames, ∃ number, i.get? text = some number

def Extends (i j : Interner) : Prop :=
  ∀ text number, i.get? text = some number → j.get? text = some number

structure Naming (i : Interner) (ρ : String → String) : Prop where
  injective : Function.Injective ρ
  known : ∀ text number, i.get? text = some number → ρ text = numeral number

theorem Extends.refl (i : Interner) : i.Extends i := fun _ _ known => known

theorem Extends.trans {k : Interner} (first : i.Extends j) (second : j.Extends k) : i.Extends k :=
  fun text number known => second text number (first text number known)

theorem Naming.before {ρ : String → String} (naming : j.Naming ρ) (later : i.Extends j) :
    i.Naming ρ where
  injective := naming.injective
  known text number known := naming.known text number (later text number known)

/-! ### Giving out names -/

theorem textOf_numeral (i : Interner) (number : Nat) :
    i.textOf (numeral number) = i.lookup number := by
  rw [textOf, numeral, Nat.toList_repr, Nat.ofDigitChars_ten_toDigits]

theorem numeral_injective : Function.Injective numeral := fun a b same => by
  have digits : Nat.toDigits 10 a = Nat.toDigits 10 b := by
    rw [← Nat.toList_repr, ← Nat.toList_repr]
    exact congrArg String.toList same
  rw [← Nat.ofDigitChars_ten_toDigits (n := a), digits, Nat.ofDigitChars_ten_toDigits]

theorem extends_add (new : i.get? text = none) : i.Extends (i.add text) := by
  intro other number known
  rw [get?_add, if_neg, known]
  rintro rfl
  rw [new] at known
  cases known

theorem give_extends (i : Interner) (text : String) : i.Extends (i.give text).2 := by
  unfold give
  split
  next => exact .refl i
  next new => exact extends_add new

theorem give_known (i : Interner) (text : String) :
    ∃ number, (i.give text).2.get? text = some number ∧ (i.give text).1 = numeral number := by
  unfold give
  split
  next number known => exact ⟨number, known, rfl⟩
  next => exact ⟨i.size, by rw [get?_add, if_pos rfl], rfl⟩

theorem Sound.give (sound : i.Sound) (text : String) : (i.give text).2.Sound where
  inverse := by
    unfold Interner.give
    split
    next => exact sound.inverse
    next new => exact sound.inverse.add new
  core text' isCore :=
    let ⟨number, known⟩ := sound.core text' isCore
    ⟨number, i.give_extends text text' number known⟩

theorem Naming.nameOf {ρ : String → String} (naming : i.Naming ρ) {number : Nat}
    (known : i.get? text = some number) : i.nameOf text = ρ text := by
  rw [naming.known text number known, Interner.nameOf, known, Option.getD_some]

/-! ### Namings that mark the other texts -/

def marking (i : Interner) (mark : Char) (text : String) : String :=
  match i.get? text with
  | some number => numeral number
  | none => .ofList (mark :: text.toList)

theorem numeral_unmarked {mark : Char} (noDigit : mark.isDigit = false) (number : Nat)
    (rest : List Char) : (numeral number).toList ≠ mark :: rest := by
  rw [numeral, Nat.toList_repr]
  intro marked
  have digit : mark.isDigit = true :=
    Nat.isDigit_of_mem_toDigits (by decide) (by decide) (marked ▸ List.mem_cons_self)
  rw [noDigit] at digit
  cases digit

theorem Sound.naming_marking (sound : i.Sound) (mark : Char) (noDigit : mark.isDigit = false) :
    i.Naming (i.marking mark) where
  injective a b same := by
    unfold marking at same
    split at same <;> split at same
    next _ n knownA _ m knownB =>
      rw [numeral_injective same] at knownA
      exact Option.some.inj
        (((sound.inverse a m).1 knownA).symm.trans ((sound.inverse b m).1 knownB))
    next => exact absurd (congrArg String.toList same) (by simpa using numeral_unmarked noDigit _ _)
    next =>
      exact absurd (congrArg String.toList same.symm) (by simpa using numeral_unmarked noDigit _ _)
    next => simpa using same
  known text number known := by rw [marking, known]

theorem Sound.exists_naming (sound : i.Sound) : ∃ ρ, i.Naming ρ :=
  ⟨_, sound.naming_marking '?' rfl⟩

def unmark (i : Interner) (name : String) : String :=
  match name.toList with
  | '?' :: rest => .ofList rest
  | _ => i.textOf name

theorem unmark_of_ne {name : String} (unmarked : ∀ rest, name.toList ≠ '?' :: rest) :
    i.unmark name = i.textOf name := by
  unfold unmark
  split
  next rest marked => exact absurd marked (unmarked rest)
  next => rfl

theorem Sound.unmark_marking (sound : i.Sound) : i.unmark ∘ i.marking '?' = id := by
  funext text
  rw [Function.comp_apply, marking, id_eq]
  split
  next number known =>
    rw [unmark_of_ne (numeral_unmarked rfl number), textOf_numeral, sound.inverse.lookup_eq known]
  next => simp [unmark]

theorem unmark_other : i.unmark ∘ i.marking '!' = i.textOf ∘ i.marking '!' := by
  funext text
  refine unmark_of_ne fun rest marked => ?_
  unfold marking at marked
  split at marked
  next number known => exact numeral_unmarked rfl number rest marked
  next => simp at marked

end Interner

/-! ### Standing for -/

/-- The first is what the naming of the interner, however it goes on, makes of the second. -/
def Named {α β : Type} (act : (String → String) → β → α) (i : Interner) (a : α) (b : β) : Prop :=
  ∀ ρ, i.Naming ρ → a = act ρ b

namespace Named

variable {α β γ : Type} {act : (String → String) → β → α} {i j : Interner} {a : α} {b : β}

theorem later (named : Named act i a b) (later : i.Extends j) : Named act j a b :=
  fun ρ naming => named ρ (naming.before later)

theorem part {f : α → γ} {g : β → γ} (named : Named act i a b) (sound : i.Sound)
    (same : ∀ ρ, f (act ρ b) = g b) : f a = g b :=
  let ⟨ρ, naming⟩ := sound.exists_naming
  (congrArg f (named ρ naming)).trans (same ρ)

theorem option {found : Option α} {found' : Option β}
    (named : Named (fun ρ => Option.map (act ρ)) i found found') (sound : i.Sound) :
    (found = none ∧ found' = none) ∨
      ∃ a b, found = some a ∧ found' = some b ∧ Named act i a b := by
  obtain ⟨ρ, naming⟩ := sound.exists_naming
  cases found' with
  | none => exact .inl ⟨named ρ naming, rfl⟩
  | some b =>
    refine .inr ⟨act ρ b, b, named ρ naming, rfl, fun ρ' naming' => ?_⟩
    exact Option.some.inj ((named ρ naming).symm.trans (named ρ' naming'))

theorem except {ε : Type} {result : Except ε α} {result' : Except ε β}
    (named : Named (fun ρ => Except.map (act ρ)) i result result') (sound : i.Sound) :
    (∃ e, result = .error e ∧ result' = .error e) ∨
      ∃ a b, result = .ok a ∧ result' = .ok b ∧ Named act i a b := by
  obtain ⟨ρ, naming⟩ := sound.exists_naming
  cases result' with
  | error e => exact .inl ⟨e, named ρ naming, rfl⟩
  | ok b =>
    refine .inr ⟨act ρ b, b, named ρ naming, rfl, fun ρ' naming' => ?_⟩
    exact Except.ok.inj ((named ρ naming).symm.trans (named ρ' naming'))

theorem text {act : (String → String) → β → β} {a : β} (named : Named act i a b) (sound : i.Sound)
    (functorial : Functorial act) : act i.textOf a = b := by
  have marked := named _ (sound.naming_marking '?' rfl)
  have other := named _ (sound.naming_marking '!' rfl)
  -- Reading back with the marks gives the texts; under the other mark there is none to be read.
  calc act i.textOf a
      = act i.unmark a := by
        rw [other, functorial.comp, functorial.comp, Interner.unmark_other]
    _ = b := by rw [marked, functorial.comp, sound.unmark_marking, functorial.id]

end Named

end ObjectRuntime
