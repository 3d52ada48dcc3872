import Mathlib.Data.Rat.Floor
import Mathlib.Tactic.Linarith
import ObjectRuntime.Number.Integer

/-!
# Division that rounds down

Division of 64-bit integers truncates; the quotient and the rest are corrected where the rest is not
zero and the signs of the operands differ. The corrected quotient is the floor of the exact one, and
the corrected rest is what the floor leaves. With a divisor that is not zero no step on the way
leaves the range, except for the one quotient that does not fit.
-/

set_option autoImplicit false

namespace ObjectRuntime.Number

def Fits (i : Int) : Prop := -2 ^ 63 ≤ i ∧ i < 2 ^ 63

theorem fits_toInt (a : Int64) : Fits a.toInt := ⟨a.le_toInt, a.toInt_lt⟩

theorem toInt_ofInt_of_fits {i : Int} (fits : Fits i) : (Int64.ofInt i).toInt = i :=
  Int64.toInt_ofInt_of_le fits.1 fits.2

theorem exact_of_fits {i : Int} (fits : Fits i) : exact i = some (Int64.ofInt i) := by
  rw [exact, if_pos]
  have least : Int64.minValue.toInt = -2 ^ 63 := by decide
  have greatest : Int64.maxValue.toInt = 2 ^ 63 - 1 := by decide
  obtain ⟨above, below⟩ := fits
  omega

theorem exact_toInt (a : Int64) : exact a.toInt = some a := by
  rw [exact_of_fits (fits_toInt a), Int64.ofInt_toInt]

theorem exact_of_not_fits {i : Int} (beyond : ¬ Fits i) : exact i = none := by
  rw [exact, if_neg]
  have least : Int64.minValue.toInt = -2 ^ 63 := by decide
  have greatest : Int64.maxValue.toInt = 2 ^ 63 - 1 := by decide
  rintro ⟨above, below⟩
  exact beyond ⟨by omega, by omega⟩

/-! ### Floors of quotients -/

def floorQuotient (a b : Int) : Int := ⌊(a / b : ℚ)⌋

theorem floorQuotient_eq {a b q : Int}
    (rest : 0 ≤ a - b * q ∧ a - b * q < b ∨ b < a - b * q ∧ a - b * q ≤ 0) :
    floorQuotient a b = q := by
  rw [floorQuotient, Int.floor_eq_iff]
  rcases rest with ⟨low, high⟩ | ⟨low, high⟩
  · have positive : (0 : ℚ) < b := by exact_mod_cast low.trans_lt high
    have low : (0 : ℚ) ≤ a - b * q := by exact_mod_cast low
    have high : (a - b * q : ℚ) < b := by exact_mod_cast high
    rw [le_div_iff₀ positive, div_lt_iff₀ positive]
    constructor <;> linarith
  · have negative : (b : ℚ) < 0 := by exact_mod_cast low.trans_le high
    have low : (b : ℚ) < a - b * q := by exact_mod_cast low
    have high : (a - b * q : ℚ) ≤ 0 := by exact_mod_cast high
    rw [le_div_iff_of_neg negative, div_lt_iff_of_neg negative]
    constructor <;> linarith

/-- The truncating division leaves a rest, and the operands differ in sign. -/
def Uneven (a b : Int) : Prop := a.tmod b ≠ 0 ∧ (a < 0 ↔ 0 < b)

theorem tmod_bounds (a : Int) {b : Int} (nonzero : b ≠ 0) :
    (0 ≤ a → 0 ≤ a.tmod b) ∧ (a ≤ 0 → a.tmod b ≤ 0) ∧ |a.tmod b| < |b| := by
  refine ⟨Int.tmod_nonneg b, ?_, ?_⟩
  · intro nonpositive
    have opposite := Int.tmod_nonneg b (Int.neg_nonneg_of_nonpos nonpositive)
    rw [Int.neg_tmod] at opposite
    omega
  · rw [Int.abs_eq_natAbs, Int.abs_eq_natAbs, Int.natAbs_tmod]
    exact_mod_cast Nat.mod_lt _ (Int.natAbs_pos.2 nonzero)

theorem floorQuotient_of_uneven {a b : Int} (nonzero : b ≠ 0) (uneven : Uneven a b) :
    floorQuotient a b = a.tdiv b - 1 := by
  obtain ⟨rest, differ⟩ := uneven
  obtain ⟨up, down, small⟩ := tmod_bounds a nonzero
  have whole := Int.mul_tdiv_add_tmod a b
  apply floorQuotient_eq
  -- the rest has the sign of the dividend, so the divisor takes it across zero
  have left : a - b * (a.tdiv b - 1) = a.tmod b + b := by
    rw [Int.mul_sub, Int.mul_one]
    omega
  rw [left]
  rw [abs_lt] at small
  rcases abs_cases b with ⟨size, sign⟩ | ⟨size, sign⟩ <;> rw [size] at small <;> omega

theorem floorQuotient_of_even {a b : Int} (nonzero : b ≠ 0) (even : ¬ Uneven a b) :
    floorQuotient a b = a.tdiv b := by
  obtain ⟨up, down, small⟩ := tmod_bounds a nonzero
  have whole := Int.mul_tdiv_add_tmod a b
  apply floorQuotient_eq
  have left : a - b * a.tdiv b = a.tmod b := by omega
  rw [left]
  rw [abs_lt] at small
  rw [Uneven, not_and'] at even
  rcases abs_cases b with ⟨size, sign⟩ | ⟨size, sign⟩ <;> rw [size] at small <;> omega

theorem floor_rest (a : Int) {b : Int} (nonzero : b ≠ 0) :
    0 ≤ a - b * floorQuotient a b ∧ a - b * floorQuotient a b < b ∨
      b < a - b * floorQuotient a b ∧ a - b * floorQuotient a b ≤ 0 := by
  have below : (floorQuotient a b : ℚ) ≤ a / b := Int.floor_le _
  have above : (a / b : ℚ) < floorQuotient a b + 1 := Int.lt_floor_add_one _
  rcases Int.lt_or_gt_of_ne nonzero with negative | positive
  · right
    have negative : (b : ℚ) < 0 := by exact_mod_cast negative
    rw [le_div_iff_of_neg negative] at below
    rw [div_lt_iff_of_neg negative] at above
    norm_cast at below above
    constructor <;> linarith
  · left
    have positive : (0 : ℚ) < b := by exact_mod_cast positive
    rw [le_div_iff₀ positive] at below
    rw [div_lt_iff₀ positive] at above
    norm_cast at below above
    constructor <;> linarith

theorem floor_rest_sign (a : Int) {b : Int} (nonzero : b ≠ 0) :
    (a - b * floorQuotient a b = 0 ∨ (a - b * floorQuotient a b < 0 ↔ b < 0)) ∧
      |a - b * floorQuotient a b| < |b| := by
  rcases floor_rest a nonzero with ⟨low, high⟩ | ⟨low, high⟩
  · rw [abs_of_nonneg low, abs_of_pos (low.trans_lt high)]
    omega
  · rw [abs_of_nonpos high, abs_of_neg (low.trans_le high)]
    omega

/-! ### 64 bits -/

theorem bmod_of_fits {i : Int} (fits : Fits i) : i.bmod (2 ^ 64) = i :=
  Int.bmod_eq_of_le fits.1 fits.2

theorem add?_of_fits {a b : Int64} (fits : Fits (a.toInt + b.toInt)) : add? a b = some (a + b) := by
  rw [add?, exact_of_fits fits, Int64.ofInt_add, Int64.ofInt_toInt, Int64.ofInt_toInt]

theorem sub?_of_fits {a b : Int64} (fits : Fits (a.toInt - b.toInt)) : sub? a b = some (a - b) := by
  rw [sub?, exact_of_fits fits, Int64.ofInt_sub, Int64.ofInt_toInt, Int64.ofInt_toInt]

theorem toInt_ne_zero {b : Int64} (nonzero : b ≠ 0) : b.toInt ≠ 0 := by
  rintro zero
  exact nonzero (Int64.toInt_inj.1 (zero.trans Int64.toInt_zero.symm))

theorem toInt_div {a b : Int64} (ordinary : ¬ (a = Int64.minValue ∧ b = -1)) :
    (a / b).toInt = a.toInt.tdiv b.toInt := by
  by_cases least : a = Int64.minValue
  · exact Int64.toInt_div_of_ne_right a b fun minus_one => ordinary ⟨least, minus_one⟩
  · exact Int64.toInt_div_of_ne_left a b least

/-- The only quotient of 64-bit integers without a place among them. -/
theorem floorQuotient_least : floorQuotient Int64.minValue.toInt (-1 : Int64).toInt = 2 ^ 63 :=
  floorQuotient_eq (by decide)

theorem uneven_iff {a b : Int64} (nonzero : b ≠ 0) :
    a % b ≠ 0 ∧ (decide (a < 0) ≠ decide (b < 0)) ↔ Uneven a.toInt b.toInt := by
  have nonzero := toInt_ne_zero nonzero
  rw [Uneven, ← Int64.toInt_mod, ne_eq, ne_eq, ne_eq, ← Int64.toInt_inj, Int64.toInt_zero,
    decide_eq_decide, Int64.lt_iff_toInt_lt, Int64.lt_iff_toInt_lt, Int64.toInt_zero]
  apply and_congr_right
  intro _
  omega

/-- The rest has the sign of the dividend, so it may stand for it. -/
theorem uneven_rest_iff {a b : Int64} (nonzero : b ≠ 0) :
    a % b ≠ 0 ∧ (decide (a % b < 0) ≠ decide (b < 0)) ↔ Uneven a.toInt b.toInt := by
  rw [← uneven_iff nonzero]
  apply and_congr_right
  intro rest
  have rest : (a % b).toInt ≠ 0 := toInt_ne_zero rest
  obtain ⟨up, down, -⟩ := tmod_bounds a.toInt (toInt_ne_zero nonzero)
  have sign : a % b < 0 ↔ a < 0 := by
    rw [Int64.lt_iff_toInt_lt, Int64.lt_iff_toInt_lt, Int64.toInt_zero]
    rw [Int64.toInt_mod] at rest ⊢
    omega
  rw [decide_eq_decide.2 sign]

/-- Where the quotient is corrected, the divisor is not one, so there is room below. -/
theorem fits_corrected {a b : Int64} (nonzero : b ≠ 0) (uneven : Uneven a.toInt b.toInt) :
    Fits (a.toInt.tdiv b.toInt - 1) := by
  obtain ⟨-, -, small⟩ := tmod_bounds a.toInt (toInt_ne_zero nonzero)
  have large : 2 ≤ b.toInt.natAbs := by
    have rest := uneven.1
    rw [Int.abs_eq_natAbs, Int.abs_eq_natAbs] at small
    omega
  have halved : (a.toInt.tdiv b.toInt).natAbs ≤ a.toInt.natAbs / 2 := by
    rw [Int.natAbs_tdiv]
    exact Nat.div_le_div_left large (by decide)
  obtain ⟨above, below⟩ := fits_toInt a
  constructor <;> omega

theorem tmod_add_of_uneven {a b : Int} (nonzero : b ≠ 0) (uneven : Uneven a b) :
    a.tmod b + b = a - b * floorQuotient a b := by
  have whole := Int.mul_tdiv_add_tmod a b
  rw [floorQuotient_of_uneven nonzero uneven, Int.mul_sub, Int.mul_one]
  omega

theorem fits_corrected_rest {a b : Int64} (nonzero : b ≠ 0) (uneven : Uneven a.toInt b.toInt) :
    Fits (a.toInt.tmod b.toInt + b.toInt) := by
  obtain ⟨above, below⟩ := fits_toInt b
  rw [tmod_add_of_uneven (toInt_ne_zero nonzero) uneven]
  rcases floor_rest a.toInt (toInt_ne_zero nonzero) with ⟨low, high⟩ | ⟨low, high⟩
  · constructor <;> omega
  · constructor <;> omega

theorem floorDiv?_eq (a : Int64) {b : Int64} (nonzero : b ≠ 0) :
    floorDiv? a b = exact (floorQuotient a.toInt b.toInt) := by
  rw [floorDiv?]
  split
  next extreme =>
    obtain ⟨rfl, rfl⟩ := extreme
    rw [floorQuotient_least]
    rfl
  next ordinary =>
    split
    next corrected =>
      have uneven := (uneven_iff nonzero).1 corrected
      have exactly : (a / b - 1).toInt = a.toInt.tdiv b.toInt - 1 := by
        rw [Int64.toInt_sub, toInt_div ordinary, Int64.toInt_one,
          bmod_of_fits (fits_corrected nonzero uneven)]
      rw [floorQuotient_of_uneven (toInt_ne_zero nonzero) uneven, ← exactly, exact_toInt]
    next as_is =>
      have even := mt (uneven_iff nonzero).2 as_is
      rw [floorQuotient_of_even (toInt_ne_zero nonzero) even, ← toInt_div ordinary, exact_toInt]

example : floorDiv? (-7) 2 = some (-4) ∧ floorDiv? Int64.minValue (-1) = none := by decide

theorem toInt_floorMod (a : Int64) {b : Int64} (nonzero : b ≠ 0) :
    (floorMod a b).toInt = a.toInt - b.toInt * floorQuotient a.toInt b.toInt := by
  rw [floorMod]
  split
  next corrected =>
    have uneven := (uneven_rest_iff nonzero).1 corrected
    rw [Int64.toInt_add, Int64.toInt_mod, bmod_of_fits (fits_corrected_rest nonzero uneven),
      tmod_add_of_uneven (toInt_ne_zero nonzero) uneven]
  next as_is =>
    have even := mt (uneven_rest_iff nonzero).2 as_is
    have whole := Int.mul_tdiv_add_tmod a.toInt b.toInt
    rw [floorQuotient_of_even (toInt_ne_zero nonzero) even, Int64.toInt_mod]
    omega

example : floorMod (-7) 2 = 1 ∧ floorMod 7 (-2) = -1 := by decide

/-! ### One step at a time -/

/-- The truncated quotient; absent if the divisor is zero or the quotient does not fit. -/
def quotient? (a b : Int64) : Option Int64 :=
  if b = 0 then none else exact (a.toInt.tdiv b.toInt)

def rest? (a b : Int64) : Option Int64 := do
  let _ ← quotient? a b
  exact (a.toInt.tmod b.toInt)

/-- The rest of a division whose quotient is not looked at. -/
def wrappingRest? (a b : Int64) : Option Int64 :=
  if b = 0 then none else exact (a.toInt.tmod b.toInt)

/-- Division in single steps. A quotient that is absent is an answer; after that a step that divides
by zero or leaves the range is the end, which is `none`. -/
def floorDivSteps (a b : Int64) : Option (Option Int64) :=
  match quotient? a b with
  | none => some none
  | some quotient => do
    let rest ← rest? a b
    if rest ≠ 0 ∧ (decide (a < 0) ≠ decide (b < 0)) then return some (← sub? quotient 1)
    else return some quotient

def floorModSteps (a b : Int64) : Option Int64 := do
  let rest ← wrappingRest? a b
  if rest ≠ 0 ∧ (decide (rest < 0) ≠ decide (b < 0)) then add? rest b else return rest

theorem quotient?_least : quotient? Int64.minValue (-1) = none := by decide

theorem quotient?_eq {a b : Int64} (nonzero : b ≠ 0)
    (ordinary : ¬ (a = Int64.minValue ∧ b = -1)) : quotient? a b = some (a / b) := by
  rw [quotient?, if_neg nonzero, ← toInt_div ordinary, exact_toInt]

theorem wrappingRest?_eq (a : Int64) {b : Int64} (nonzero : b ≠ 0) :
    wrappingRest? a b = some (a % b) := by
  rw [wrappingRest?, if_neg nonzero, ← Int64.toInt_mod, exact_toInt]

theorem rest?_eq {a b : Int64} (nonzero : b ≠ 0) (ordinary : ¬ (a = Int64.minValue ∧ b = -1)) :
    rest? a b = some (a % b) := by
  rw [rest?, quotient?_eq nonzero ordinary, ← Int64.toInt_mod, exact_toInt]
  rfl

theorem floorDivSteps_eq (a : Int64) {b : Int64} (nonzero : b ≠ 0) :
    floorDivSteps a b = some (floorDiv? a b) := by
  by_cases extreme : a = Int64.minValue ∧ b = -1
  · obtain ⟨rfl, rfl⟩ := extreme
    rw [floorDivSteps, quotient?_least]
    rfl
  · rw [floorDivSteps, quotient?_eq nonzero extreme, rest?_eq nonzero extreme, floorDiv?,
      if_neg extreme]
    dsimp only [Option.bind_eq_bind, Option.bind_some]
    split
    next corrected =>
      have fits := fits_corrected nonzero ((uneven_iff nonzero).1 corrected)
      rw [← toInt_div extreme, ← Int64.toInt_one] at fits
      rw [sub?_of_fits fits]
      rfl
    next => rfl

theorem floorModSteps_eq (a : Int64) {b : Int64} (nonzero : b ≠ 0) :
    floorModSteps a b = some (floorMod a b) := by
  rw [floorModSteps, wrappingRest?_eq a nonzero, floorMod]
  dsimp only [Option.bind_eq_bind, Option.bind_some]
  split
  next corrected =>
    have fits := fits_corrected_rest nonzero ((uneven_rest_iff nonzero).1 corrected)
    rw [← Int64.toInt_mod] at fits
    exact add?_of_fits fits
  next => rfl

end ObjectRuntime.Number
