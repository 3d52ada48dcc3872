import ObjectRuntime.Call
import ObjectRuntime.Proofs.Text.Spellings

/-!
# The limit on nested calls as it is written

The word of the depth variable names no limit, or it spells a number of 64 bits, or it is refused
with the whole text. Zero stands for no limit, but only as the word `0` itself: another spelling of
zero becomes a limit of zero, under which no call is allowed. Apart from these spellings the reading
is the one that the message of a refusal asks for.
-/

set_option autoImplicit false

namespace ObjectRuntime.Settings

open Text

variable {lookup : String → Option String} {text : String} {word : List Char} {profile : Bool}
  {limit : Option Nat} {n : Nat}

/-! ### Counts -/

theorem count?_eq_some_iff : count? word = some n ↔ Spells word n ∧ n < 2 ^ 64 := by
  have room : Nat.pow 2 64 = 2 ^ 64 := rfl
  have kept {digits : List Char} : ((numeral? digits).filter fun n => n < Nat.pow 2 64) = some n ↔
      IsNumeral digits n ∧ n < 2 ^ 64 := by
    rw [Option.filter_eq_some_iff, numeral?_eq_some_iff, room, decide_eq_true_iff]
  unfold count?
  split
  next rest => rw [kept, spells_plus]
  next no_plus =>
    rw [kept, spells_of_no_plus]
    intro starts
    obtain ⟨rest, is⟩ := List.head?_eq_some_iff.1 starts
    exact no_plus rest is

def NamesNoLimit (word : List Char) : Prop := word = "none".toList ∨ word = "unlimited".toList

theorem NamesNoLimit.not_spells (names : NamesNoLimit word) : ¬ Spells word n := by
  intro spells
  obtain rfl | rfl := names
  · rw [spells_of_no_plus (by decide)] at spells
    cases spells.isDigit
  · rw [spells_of_no_plus (by decide)] at spells
    cases spells.isDigit

theorem depthLimit?_eq_unlimited_iff :
    depthLimit? word = some none ↔ NamesNoLimit word ∨ word = "0".toList := by
  unfold depthLimit?
  split
  next named => exact iff_of_true rfl named.symm
  next other =>
    refine iff_of_false ?_ fun named => other named.symm
    intro counted
    obtain ⟨n, -, differs⟩ := Option.map_eq_some_iff.1 counted
    cases differs

theorem depthLimit?_eq_limited_iff :
    depthLimit? word = some (some n) ↔ word ≠ "0".toList ∧ Spells word n ∧ n < 2 ^ 64 := by
  unfold depthLimit?
  split
  next named =>
    refine iff_of_false nofun ?_
    rintro ⟨no_zero, spells, -⟩
    exact NamesNoLimit.not_spells (named.resolve_left no_zero) spells
  next other =>
    have no_zero : word ≠ "0".toList := fun zero => other (.inl zero)
    rw [← count?_eq_some_iff, and_iff_right no_zero, Option.map_eq_some_iff]
    simp only [Option.some.injEq, exists_eq_right]

theorem depthLimit?_eq_none_iff :
    depthLimit? word = none ↔ ¬ NamesNoLimit word ∧ ∀ n, Spells word n → 2 ^ 64 ≤ n := by
  have zero : Spells "0".toList 0 := spells_zero_iff.2 ⟨0, .inl rfl⟩
  unfold depthLimit?
  split
  next named =>
    refine iff_of_false nofun ?_
    rintro ⟨no_name, beyond⟩
    obtain rfl : word = "0".toList := named.resolve_right no_name
    have := beyond 0 zero
    omega
  next other =>
    have no_name : ¬ NamesNoLimit word := fun named => other (.inr named)
    rw [Option.map_eq_none_iff, and_iff_right no_name, Option.eq_none_iff_forall_ne_some]
    refine forall_congr' fun n => ?_
    rw [ne_eq, count?_eq_some_iff, not_and, Nat.not_lt]

/-! ### Settings -/

/-- What the second variable says; it is as good as off when it is absent. -/
def flagOf (lookup : String → Option String) : Except Fault Bool :=
  match lookup profileVariable with
  | some text => readProfile text
  | none => .ok standard.profile

def ofDepth (limit : Option Nat) (profile : Bool) : Settings :=
  { standard with callDepthLimit := limit, profile }

theorem ofDepth_inj {limit' : Option Nat} :
    ofDepth limit profile = ofDepth limit' profile ↔ limit = limit' :=
  ⟨congrArg callDepthLimit, fun same => same ▸ rfl⟩

theorem read_eq (given : lookup depthVariable = some text) (flagged : flagOf lookup = .ok profile) :
    read lookup = (readDepth text).map (ofDepth · profile) := by
  unfold flagOf at flagged
  unfold read
  rw [given]
  dsimp only
  cases readDepth text with
  | error fault => rfl
  | ok limit =>
    cases second : lookup profileVariable with
    | none =>
      rw [second] at flagged
      cases flagged
      rfl
    | some flag =>
      rw [second] at flagged
      change readProfile flag = .ok profile at flagged
      change (readProfile flag >>= fun profile => pure (ofDepth limit profile)) = _
      rw [flagged]
      rfl

def depthFault (text : String) : Fault :=
  ⟨depthVariable, text, "a positive integer or \"unlimited\""⟩

theorem read_eq_ok_iff (given : lookup depthVariable = some text)
    (flagged : flagOf lookup = .ok profile) :
    read lookup = .ok (ofDepth limit profile) ↔ depthLimit? (trim text.toList) = some limit := by
  rw [read_eq given flagged, readDepth]
  cases depthLimit? (trim text.toList) with
  | none => exact iff_of_false nofun nofun
  | some found =>
    change Except.ok (ofDepth found profile) = .ok (ofDepth limit profile) ↔ _
    rw [Except.ok.injEq, ofDepth_inj, Option.some.injEq]

theorem read_eq_error_iff (given : lookup depthVariable = some text)
    (flagged : flagOf lookup = .ok profile) (fault : Fault) :
    read lookup = .error fault ↔
      fault = depthFault text ∧ depthLimit? (trim text.toList) = none := by
  rw [read_eq given flagged, readDepth]
  cases depthLimit? (trim text.toList) with
  | none =>
    change Except.error (depthFault text) = .error fault ↔ _
    rw [Except.error.injEq, eq_comm, and_iff_left rfl]
  | some found => exact iff_of_false nofun fun both => nomatch both.2

theorem ofDepth_of_read {s : Settings} (given : lookup depthVariable = some text)
    (flagged : flagOf lookup = .ok profile) (reads : read lookup = .ok s) :
    ∃ limit, depthLimit? (trim text.toList) = some limit ∧ s = ofDepth limit profile := by
  rw [read_eq given flagged, readDepth] at reads
  cases found : depthLimit? (trim text.toList) with
  | none =>
    rw [found] at reads
    cases reads
  | some limit =>
    rw [found] at reads
    exact ⟨limit, rfl, (Except.ok.inj reads).symm⟩

/-- The reading that asks for a positive integer or for no limit: zero is no limit however it is
spelled, any other number of 64 bits is the limit, and nothing else is accepted. -/
structure ReadsPositive (lookup : String → Option String) (text : String) (word : List Char)
    (profile : Bool) : Prop where
  never_zero : ∀ s, read lookup = .ok s → s.callDepthLimit ≠ some 0
  unlimited : read lookup = .ok (ofDepth none profile) ↔ NamesNoLimit word ∨ Spells word 0
  limited : ∀ n, read lookup = .ok (ofDepth (some n) profile) ↔
    Spells word n ∧ 1 ≤ n ∧ n < 2 ^ 64
  refused : ∀ fault, read lookup = .error fault ↔
    fault = depthFault text ∧ ¬ NamesNoLimit word ∧ ∀ n, Spells word n → 2 ^ 64 ≤ n

/-- With the flag absent or in order, the word of the depth variable decides what is read. There is
no limit exactly for the two words and for `0`; the limit is `n` exactly for the other spellings of
a number `n` of 64 bits; anything else is refused, with the whole text. This is the reading that
asks for a positive integer unless the word is a spelling of zero other than `0`. -/
theorem call_depth_read_by_word (given : lookup depthVariable = some text)
    (flagged : flagOf lookup = .ok profile) :
    ∃ word, (∀ other, IsWordOf text.toList other ↔ other = word) ∧
    (read lookup = .ok (ofDepth none profile) ↔ NamesNoLimit word ∨ word = "0".toList) ∧
    (∀ n, read lookup = .ok (ofDepth (some n) profile) ↔
      word ≠ "0".toList ∧ Spells word n ∧ n < 2 ^ 64) ∧
    (∀ fault, read lookup = .error fault ↔
      fault = ⟨depthVariable, text, "a positive integer or \"unlimited\""⟩ ∧
        ¬ NamesNoLimit word ∧ ∀ n, Spells word n → 2 ^ 64 ≤ n) ∧
    (ReadsPositive lookup text word profile ↔ ¬ (Spells word 0 ∧ word ≠ "0".toList)) := by
  have unlimited : read lookup = .ok (ofDepth none profile) ↔
      NamesNoLimit (trim text.toList) ∨ trim text.toList = "0".toList :=
    (read_eq_ok_iff given flagged).trans depthLimit?_eq_unlimited_iff
  have limited (n : Nat) : read lookup = .ok (ofDepth (some n) profile) ↔
      trim text.toList ≠ "0".toList ∧ Spells (trim text.toList) n ∧ n < 2 ^ 64 :=
    (read_eq_ok_iff given flagged).trans depthLimit?_eq_limited_iff
  have refused (fault : Fault) : read lookup = .error fault ↔ fault = depthFault text ∧
      ¬ NamesNoLimit (trim text.toList) ∧ ∀ n, Spells (trim text.toList) n → 2 ^ 64 ≤ n :=
    (read_eq_error_iff given flagged fault).trans (and_congr_right' depthLimit?_eq_none_iff)
  refine ⟨trim text.toList, fun _ => isWordOf_iff, unlimited, limited, refused, ?_, ?_⟩
  · rintro positive ⟨zero, other⟩
    exact positive.never_zero _ ((limited 0).2 ⟨other, zero, by decide⟩) rfl
  · intro no_other_zero
    have zero_iff : Spells (trim text.toList) 0 ↔ trim text.toList = "0".toList := by
      constructor
      · exact fun zero => not_not.1 fun other => no_other_zero ⟨zero, other⟩
      · intro plain
        exact spells_zero_iff.2 ⟨0, .inl plain⟩
    refine ⟨?_, ?_, ?_, refused⟩
    · intro s reads no_call
      obtain ⟨limit, -, rfl⟩ := ofDepth_of_read given flagged reads
      obtain rfl : limit = some 0 := no_call
      obtain ⟨other, zero, -⟩ := (limited 0).1 reads
      exact no_other_zero ⟨zero, other⟩
    · rw [unlimited, zero_iff]
    · intro n
      rw [limited]
      constructor
      · rintro ⟨other, spells, small⟩
        refine ⟨spells, Nat.pos_of_ne_zero ?_, small⟩
        rintro rfl
        exact other (zero_iff.1 spells)
      · rintro ⟨spells, positive, small⟩
        refine ⟨fun plain => ?_, spells, small⟩
        have := spells.unique (zero_iff.2 plain)
        omega

def depthOnly (text : String) : String → Option String :=
  fun name => if name = depthVariable then some text else none

/-- Blanks around it, a plus sign and leading zeros are nothing to the limit. -/
theorem call_depth_read_by_word_padded :
    depthOnly " +007 " depthVariable = some " +007 " ∧ flagOf (depthOnly " +007 ") = .ok false ∧
    read (depthOnly " +007 ") = .ok (ofDepth (some 7) false) ∧
    ReadsPositive (depthOnly " +007 ") " +007 " "+007".toList false := by
  have given : depthOnly " +007 " depthVariable = some " +007 " := rfl
  have flagged : flagOf (depthOnly " +007 ") = .ok false := rfl
  have is_word : IsWordOf " +007 ".toList "+007".toList := isWordOf_iff.2 (by decide)
  have seven : Spells "+007".toList 7 := .inr ⟨"007".toList, rfl, [0, 0, 7], by decide⟩
  obtain ⟨word, only_word, -, limited, -, positive_iff⟩ := call_depth_read_by_word given flagged
  obtain rfl := (only_word _).1 is_word
  refine ⟨given, flagged, (limited 7).2 ⟨by decide, seven, by decide⟩, positive_iff.2 ?_⟩
  rintro ⟨zero, -⟩
  cases seven.unique zero

/-- Two zeros spell zero, and they become a limit under which no call is allowed. -/
theorem two_zeros_allow_no_call :
    depthOnly "00" depthVariable = some "00" ∧ flagOf (depthOnly "00") = .ok false ∧
    IsWordOf "00".toList "00".toList ∧ Spells "00".toList 0 ∧
    read (depthOnly "00") = .ok (ofDepth (some 0) false) ∧
    (∀ m : Machine, m.settings = ofDepth (some 0) false → Run.allowsCall m = false) ∧
    ¬ ReadsPositive (depthOnly "00") "00" "00".toList false := by
  have reads : read (depthOnly "00") = .ok (ofDepth (some 0) false) := by decide
  refine ⟨rfl, rfl, isWordOf_iff.2 (by decide), spells_zero_iff.2 ⟨1, .inl rfl⟩, reads, ?_, ?_⟩
  · intro m settings
    rw [Run.allowsCall, settings]
    exact decide_eq_false (Nat.not_lt_zero _)
  · exact fun positive => positive.never_zero _ reads rfl

end ObjectRuntime.Settings
