import Mathlib.Data.List.DropRight
import Mathlib.Data.List.TakeWhile
import Mathlib.Data.Nat.Digits.Lemmas
import ObjectRuntime.Text.Blank
import ObjectRuntime.Text.Numeral

/-!
# Words and the numbers they spell

A text has one word between its blanks, and trimming finds it. A word spells a number if it is a row
of decimal digits with the number as its value in base ten, perhaps behind a plus sign; leading
zeros do not count, so every number has any number of spellings, and zero is spelled by zeros alone.
-/

set_option autoImplicit false

namespace ObjectRuntime.Text

variable {text word cs : List Char} {c : Char} {d n : Nat}

/-! ### Words -/

/-- Nothing but blanks stands around the word, and it neither starts nor ends with one. -/
structure IsWordOf (text word : List Char) : Prop where
  framed : ∃ before after, text = before ++ word ++ after ∧
    (∀ c ∈ before, isBlank c = true) ∧ ∀ c ∈ after, isBlank c = true
  first : ∀ c ∈ word.head?, isBlank c = false
  last : ∀ c ∈ word.getLast?, isBlank c = false

theorem trim_eq_of_isWordOf (is_word : IsWordOf text word) : trim text = word := by
  obtain ⟨before, after, rfl, blank_before, blank_after⟩ := is_word.framed
  have blank_behind : ∀ c ∈ after.reverse, isBlank c = true := by
    intro c mem
    exact blank_after c (List.mem_reverse.1 mem)
  rw [trim, List.append_assoc, List.dropWhile_append_of_pos blank_before]
  cases word with
  | nil =>
    rw [List.nil_append, List.dropWhile_eq_nil_iff.2 blank_after]
    rfl
  | cons c rest =>
    have starts : (c :: (rest ++ after)).dropWhile isBlank = c :: (rest ++ after) :=
      List.dropWhile_cons_of_neg (Bool.eq_false_iff.1 (is_word.first c rfl))
    rw [List.cons_append, starts, ← List.cons_append, List.reverse_append,
      List.dropWhile_append_of_pos blank_behind]
    refine List.rdropWhile_eq_self_iff.2 fun nonempty => ?_
    exact Bool.eq_false_iff.1 (is_word.last _ (List.getLast_mem_getLast? nonempty))

theorem isWordOf_trim (text : List Char) : IsWordOf text (trim text) := by
  have trimmed : trim text = (text.dropWhile isBlank).rdropWhile isBlank := rfl
  refine ⟨⟨text.takeWhile isBlank, (text.dropWhile isBlank).rtakeWhile isBlank, ?_, ?_, ?_⟩, ?_, ?_⟩
  · rw [trimmed, List.append_assoc, List.rdropWhile_append_rtakeWhile,
      List.takeWhile_append_dropWhile]
  · intro c mem
    exact List.mem_takeWhile_imp mem
  · intro c mem
    exact List.mem_rtakeWhile_imp mem
  · intro c starts
    -- what trimming leaves starts as the text does behind its first blanks
    have at_start : c ∈ (text.dropWhile isBlank).head? := by
      obtain ⟨rest, is⟩ : ∃ rest, trim text = c :: rest := List.head?_eq_some_iff.1 starts
      obtain ⟨after, whole⟩ : trim text <+: text.dropWhile isBlank := List.rdropWhile_prefix ..
      rw [← whole, is]
      rfl
    have stops := List.head?_dropWhile_not isBlank text
    rw [Option.mem_def.1 at_start] at stops
    exact stops
  · intro c ends
    obtain ⟨nonempty, rfl⟩ := List.mem_getLast?_eq_getLast ends
    exact Bool.eq_false_iff.2 (List.rdropWhile_last_not isBlank _ nonempty)

theorem isWordOf_iff : IsWordOf text word ↔ word = trim text := by
  constructor
  · exact fun is_word => (trim_eq_of_isWordOf is_word).symm
  · rintro rfl
    exact isWordOf_trim text

/-! ### Numbers -/

/-- The decimal digits have the value, the first of them counting most. -/
def IsNumeral (cs : List Char) (n : Nat) : Prop :=
  ∃ digits : List Nat, digits ≠ [] ∧ (∀ d ∈ digits, d < 10) ∧ cs = digits.map Nat.digitChar ∧
    Nat.ofDigits 10 digits.reverse = n

def Spells (cs : List Char) (n : Nat) : Prop :=
  IsNumeral cs n ∨ ∃ digits, cs = '+' :: digits ∧ IsNumeral digits n

theorem digit?_eq_some_iff : digit? c = some d ↔ d < 10 ∧ c = d.digitChar := by
  have zero : '0'.toNat = 48 := rfl
  constructor
  · intro is_digit
    unfold digit? at is_digit
    split at is_digit
    next in_range =>
      obtain ⟨low, high⟩ : 48 ≤ c.toNat ∧ c.toNat ≤ 57 := by
        simpa [Char.isDigit, UInt32.le_iff_toNat_le] using in_range
      have value : c.toNat - 48 = d := Option.some.inj is_digit
      refine ⟨by omega, Char.toNat_inj.1 ?_⟩
      rw [Nat.toNat_digitChar_of_lt_ten (by omega)]
      omega
    next => cases is_digit
  · rintro ⟨small, rfl⟩
    rw [digit?, Nat.isDigit_digitChar, decide_eq_true small, if_pos rfl,
      Nat.toNat_digitChar_of_lt_ten small, zero]
    exact congrArg some (by omega)

/-- Reading on from a value appends the digits to it. -/
theorem digitsFrom_eq_some_iff {value : Nat} : digitsFrom value cs = some n ↔
    ∃ digits : List Nat, (∀ d ∈ digits, d < 10) ∧ cs = digits.map Nat.digitChar ∧
      digits.foldl (fun value d => 10 * value + d) value = n := by
  induction cs generalizing value with
  | nil =>
    rw [digitsFrom, Option.some.injEq]
    constructor
    · exact fun same => ⟨[], nofun, rfl, same⟩
    · rintro ⟨digits, -, none_left, same⟩
      obtain rfl := List.map_eq_nil_iff.1 none_left.symm
      exact same
  | cons c rest ih =>
    rw [digitsFrom]
    constructor
    · intro reads
      split at reads
      next d is_digit =>
        obtain ⟨small, rfl⟩ := digit?_eq_some_iff.1 is_digit
        obtain ⟨digits, all_small, rfl, same⟩ := ih.1 reads
        exact ⟨d :: digits, List.forall_mem_cons.2 ⟨small, all_small⟩, rfl, same⟩
      next => cases reads
    · rintro ⟨digits, all_small, spelled, same⟩
      cases digits with
      | nil => cases spelled
      | cons d digits =>
        obtain ⟨small, rest_small⟩ := List.forall_mem_cons.1 all_small
        obtain ⟨rfl, rfl⟩ := List.cons.inj spelled
        rw [digit?_eq_some_iff.2 ⟨small, rfl⟩]
        exact ih.2 ⟨digits, rest_small, rfl, same⟩

theorem foldl_digits (digits : List Nat) :
    digits.foldl (fun value d => 10 * value + d) 0 = Nat.ofDigits 10 digits.reverse := by
  rw [Nat.ofDigits_eq_foldr, List.foldr_reverse]
  congr 1
  funext value d
  exact Nat.add_comm ..

theorem numeral?_eq_some_iff : numeral? cs = some n ↔ IsNumeral cs n := by
  have reads : digitsFrom 0 cs = some n ↔ ∃ digits : List Nat, (∀ d ∈ digits, d < 10) ∧
      cs = digits.map Nat.digitChar ∧ Nat.ofDigits 10 digits.reverse = n := by
    rw [digitsFrom_eq_some_iff]
    simp only [foldl_digits]
  cases cs with
  | nil =>
    refine iff_of_false nofun ?_
    rintro ⟨digits, nonempty, -, none_left, -⟩
    exact nonempty (List.map_eq_nil_iff.1 none_left.symm)
  | cons c rest =>
    rw [numeral?, reads]
    · constructor
      · rintro ⟨digits, small, spelled, value⟩
        refine ⟨digits, ?_, small, spelled, value⟩
        rintro rfl
        cases spelled
      · rintro ⟨digits, -, small, spelled, value⟩
        exact ⟨digits, small, spelled, value⟩
    · nofun

example : numeral? ['0', '0', '7'] = some 7 := by decide

theorem IsNumeral.isDigit {rest : List Char} (numeral : IsNumeral (c :: rest) n) :
    (digit? c).isSome = true := by
  obtain ⟨digits, -, small, spelled, -⟩ := numeral
  cases digits with
  | nil => cases spelled
  | cons d digits =>
    rw [digit?_eq_some_iff.2 ⟨small d List.mem_cons_self, (List.cons.inj spelled).1⟩]
    rfl

theorem not_isNumeral_plus (rest : List Char) : ¬ IsNumeral ('+' :: rest) n :=
  fun numeral => Bool.false_ne_true numeral.isDigit

theorem IsNumeral.unique {k : Nat} (left : IsNumeral cs n) (right : IsNumeral cs k) : n = k :=
  Option.some.inj ((numeral?_eq_some_iff.2 left).symm.trans (numeral?_eq_some_iff.2 right))

theorem spells_plus (rest : List Char) : Spells ('+' :: rest) n ↔ IsNumeral rest n := by
  refine ⟨?_, fun numeral => .inr ⟨rest, rfl, numeral⟩⟩
  rintro (numeral | ⟨digits, same, numeral⟩)
  · exact absurd numeral (not_isNumeral_plus rest)
  · obtain ⟨-, rfl⟩ := List.cons.inj same
    exact numeral

theorem spells_of_no_plus (no_plus : cs.head? ≠ some '+') : Spells cs n ↔ IsNumeral cs n := by
  refine ⟨?_, .inl⟩
  rintro (numeral | ⟨digits, rfl, -⟩)
  · exact numeral
  · exact absurd rfl no_plus

theorem isNumeral_zero_iff : IsNumeral cs 0 ↔ ∃ more, cs = List.replicate (more + 1) '0' := by
  constructor
  · rintro ⟨digits, nonempty, -, rfl, value⟩
    have zeros : ∀ d ∈ digits, d = 0 := by
      intro d mem
      exact Nat.digits_zero_of_eq_zero (by decide) value d (List.mem_reverse.2 mem)
    obtain ⟨length, rfl⟩ : ∃ length, digits = List.replicate length 0 :=
      ⟨_, List.eq_replicate_of_mem zeros⟩
    cases length with
    | zero => exact absurd rfl nonempty
    | succ more => exact ⟨more, List.map_replicate⟩
  · rintro ⟨more, rfl⟩
    refine ⟨List.replicate (more + 1) 0, nofun, ?_, ?_, ?_⟩
    · intro d mem
      rw [List.eq_of_mem_replicate mem]
      decide
    · rw [List.map_replicate]
      rfl
    · rw [List.reverse_replicate, Nat.ofDigits_replicate_zero]

theorem Spells.unique {k : Nat} (left : Spells cs n) (right : Spells cs k) : n = k := by
  obtain numeral | ⟨digits, rfl, numeral⟩ := left
  · obtain numeral' | ⟨digits, rfl, -⟩ := right
    · exact numeral.unique numeral'
    · exact absurd numeral (not_isNumeral_plus digits)
  · exact numeral.unique ((spells_plus digits).1 right)

theorem spells_zero_iff : Spells cs 0 ↔ ∃ more,
    cs = List.replicate (more + 1) '0' ∨ cs = '+' :: List.replicate (more + 1) '0' := by
  simp only [Spells, isNumeral_zero_iff, exists_or]
  refine or_congr_right ?_
  constructor
  · rintro ⟨_, rfl, more, rfl⟩
    exact ⟨more, rfl⟩
  · rintro ⟨more, rfl⟩
    exact ⟨_, rfl, more, rfl⟩

end ObjectRuntime.Text
