import ObjectRuntime.Proofs.Dispatch.Direct
import ObjectRuntime.Proofs.Number.Division

/-!
# Operators on integers

Whether the operands are immediate or objects, and whether dispatch applies an operator itself or
calls its method, two integers give what the integers of any size give, or an exception that says
why not. Sums, differences, products and quotients may not fit, a remainder always does, and only
quotients and remainders mind a divisor of zero.
-/

set_option autoImplicit false

namespace ObjectRuntime

open Number Run

namespace Run

/-- The two ways in which an operator meets its operands: dispatch applies it at once, or the method
of the left operand runs. -/
inductive Applies (env : FrameId) (op : Operator) (left right : Value) : Run Value → Prop where
  | direct (run : Runner) (kind : SendKind) (selector : String) (args : List Value)
      (block : Option Block) :
      Applies env op left right (follow run env kind selector args block (.direct op left right))
  | method (run : Runner) (block : Option Block) :
      Applies env op left right (Builtin.perform run env left [right] block (.operator op))

end Run

abbrev Run.Result : Type := Except Exit Value × Machine

namespace Run.Result

variable (env : FrameId) (m : Machine)

/-- A new exception of the class with the message, on its way from the frame to its rescue. -/
def Raises (cls : ModuleId) (message : String) (result : Result) : Prop :=
  result.1 = .error (.signal (.raise m.heap.next (m.frames.findTarget env isRescue))) ∧
    result.2.exceptionKind? m.heap.next = some (cls, message)

def Gives (v : Value) (result : Result) : Prop := result = (.ok v, m)

def GivesInt (i : Int) (result : Result) : Prop :=
  ∃ r : Int64, r.toInt = i ∧ Gives m (.int r) result

structure GivesOrOverflows (i : Int) (result : Result) : Prop where
  fitting : Fits i → GivesInt m i result
  beyond : ¬ Fits i → Raises env m Core.rangeError.id "integer overflow" result

/-- What is owed unless the divisor is zero; then, and only then, a ZeroDivisionError. -/
structure UnlessZero (b : Int) (owed : Prop) (result : Result) : Prop where
  nonzero : b ≠ 0 → owed
  raises_iff : Raises env m Core.zeroDivisionError.id "divided by 0" result ↔ b = 0

end Run.Result

/-- What an operator owes to two integers. -/
def Operator.Exact (env : FrameId) (m : Machine) (a b : Int) (result : Result) : Operator → Prop
  | add => result.GivesOrOverflows env m (a + b)
  | sub => result.GivesOrOverflows env m (a - b)
  | mul => result.GivesOrOverflows env m (a * b)
  | div => result.UnlessZero env m b (result.GivesOrOverflows env m (floorQuotient a b))
  | rem => result.UnlessZero env m b (∃ r, result.GivesInt m r ∧ r = a - b * floorQuotient a b ∧
      (r = 0 ∨ (r < 0 ↔ b < 0)) ∧ |r| < |b|)
  | lt => result.Gives m (.bool (a < b))
  | le => result.Gives m (.bool (a ≤ b))
  | gt => result.Gives m (.bool (b < a))
  | ge => result.Gives m (.bool (b ≤ a))
  | eq => result.Gives m (.bool (a = b))
  | cmp => result.Gives m (.int (if a < b then -1 else if a = b then 0 else 1))

/-- An operator in single steps; `none` where a division divides by zero, or a step of it or of the
correction after it leaves the range. The other operators are a check of the exact result or a
comparison. -/
def Operator.onIntsSteps (op : Operator) (a b : Int64) : Option (Except Fault Value) :=
  match op with
  | div => if b = 0 then some (.error .zeroDivision) else (floorDivSteps a b).map exactly
  | rem => if b = 0 then some (.error .zeroDivision) else (floorModSteps a b).map (.ok <| .int ·)
  | op => some (op.onInts a b)

theorem Operator.onIntsSteps_eq (op : Operator) (a b : Int64) :
    op.onIntsSteps a b = some (op.onInts a b) := by
  cases op with
  | div =>
    by_cases zero : b = 0
    · rw [onIntsSteps, onInts, if_pos zero, if_pos zero]
    · rw [onIntsSteps, onInts, if_neg zero, if_neg zero, floorDivSteps_eq a zero]
      rfl
  | rem =>
    by_cases zero : b = 0
    · rw [onIntsSteps, onInts, if_pos zero, if_pos zero]
    · rw [onIntsSteps, onInts, if_neg zero, if_neg zero, floorModSteps_eq a zero]
      rfl
  | add | sub | mul | lt | le | gt | ge | eq | cmp => rfl

/-! ### How the operators end -/

theorem Run.Applies.eq {env : FrameId} {op : Operator} {left right : Value} {x : Run Value}
    (applies : Applies env op left right x) : x = applyOperator env op left right := by
  cases applies with
  | direct => rfl
  | method => rfl

namespace Machine

variable {m : Machine} {left right : Value} {a b : Int64}

theorem num?_of_int? {v : Value} (number : m.int? v = some a) : m.num? v = some (.int a) := by
  rw [num?, number]

theorem apply_of_int? (op : Operator) (first : m.int? left = some a)
    (second : m.int? right = some b) : m.apply op left right = op.onInts a b := by
  rw [apply, num?_of_int? first, num?_of_int? second]

end Machine

namespace Run.Result

variable (env : FrameId) (m : Machine)

theorem raises_fail (fault : Fault) :
    Raises env m fault.cls fault.message (orFail env (.error fault) m) := by
  obtain ⟨m', failed, kind⟩ := fail_eq (α := Value) env fault m
  rw [orFail, failed]
  exact ⟨rfl, kind⟩

theorem not_raises_of_gives {v : Value} {result : Result} (gives : Gives m v result)
    (cls : ModuleId) (message : String) : ¬ Raises env m cls message result := by
  rintro ⟨raised, -⟩
  rw [gives] at raised
  cases raised

theorem Raises.cls_eq {env : FrameId} {m : Machine} {cls cls' : ModuleId}
    {message message' : String} {result : Result} (first : Raises env m cls message result)
    (second : Raises env m cls' message' result) : cls = cls' := by
  have same := first.2.symm.trans second.2
  exact (Prod.mk.inj (Option.some.inj same)).1

theorem givesOrOverflows (i : Int) :
    GivesOrOverflows env m i (orFail env (Operator.exactly (exact i)) m) := by
  constructor
  · intro fits
    rw [exact_of_fits fits]
    exact ⟨Int64.ofInt i, toInt_ofInt_of_fits fits, rfl⟩
  · intro beyond
    rw [exact_of_not_fits beyond]
    exact raises_fail env m .integerOverflow

theorem GivesOrOverflows.not_zeroDivision {env : FrameId} {m : Machine} {i : Int}
    {result : Result} (gives : GivesOrOverflows env m i result) (message : String) :
    ¬ Raises env m Core.zeroDivisionError.id message result := by
  intro raised
  by_cases fits : Fits i
  · obtain ⟨r, -, given⟩ := gives.fitting fits
    exact not_raises_of_gives env m given _ _ raised
  · have same := raised.cls_eq (gives.beyond fits)
    revert same
    decide

theorem unlessZero_zero (owed : Prop) :
    UnlessZero env m (0 : Int64).toInt owed (orFail env (.error .zeroDivision) m) := by
  constructor
  · intro nonzero
    exact absurd Int64.toInt_zero nonzero
  · exact ⟨fun _ => Int64.toInt_zero, fun _ => raises_fail env m .zeroDivision⟩

theorem unlessZero_of_nonzero {b : Int} {owed : Prop} {result : Result} (nonzero : b ≠ 0)
    (given : owed) (quiet : ¬ Raises env m Core.zeroDivisionError.id "divided by 0" result) :
    UnlessZero env m b owed result :=
  ⟨fun _ => given, fun raised => absurd raised quiet, fun zero => absurd zero nonzero⟩

end Run.Result

namespace Operator

variable (env : FrameId) (m : Machine) (a b : Int64)

theorem exact_div : div.Exact env m a.toInt b.toInt (orFail env (div.onInts a b) m) := by
  by_cases zero : b = 0
  · subst zero
    exact Result.unlessZero_zero env m _
  · have gives := Result.givesOrOverflows env m (floorQuotient a.toInt b.toInt)
    rw [← floorDiv?_eq a zero] at gives
    rw [onInts, if_neg zero]
    exact Result.unlessZero_of_nonzero env m (toInt_ne_zero zero) gives (gives.not_zeroDivision _)

theorem exact_rem : rem.Exact env m a.toInt b.toInt (orFail env (rem.onInts a b) m) := by
  by_cases zero : b = 0
  · subst zero
    exact Result.unlessZero_zero env m _
  · have nonzero := toInt_ne_zero zero
    have gives : Result.Gives m (.int (floorMod a b))
        (orFail env (.ok (.int (floorMod a b))) m) := rfl
    rw [onInts, if_neg zero]
    apply Result.unlessZero_of_nonzero env m nonzero
    · exact ⟨_, ⟨floorMod a b, toInt_floorMod a zero, gives⟩, rfl, floor_rest_sign a.toInt nonzero⟩
    · exact Result.not_raises_of_gives env m gives _ _

theorem orderValue_compare :
    orderValue (compare a b) =
      .int (if a.toInt < b.toInt then -1 else if a.toInt = b.toInt then 0 else 1) := by
  change orderValue (compareOfLessAndEq a b) = _
  rw [compareOfLessAndEq]
  simp only [Int64.lt_iff_toInt_lt, ← Int64.toInt_inj]
  split
  · rfl
  · split
    · rfl
    · rfl

theorem exact_onInts (op : Operator) :
    op.Exact env m a.toInt b.toInt (orFail env (op.onInts a b) m) := by
  have truth : ∀ {p q : Prop} [Decidable p] [Decidable q], (p ↔ q) →
      Result.Gives m (.bool q) (orFail env (.ok (.bool p)) m) := by
    intro p q _ _ same
    rw [decide_eq_decide.2 same]
    rfl
  cases op with
  | add => exact Result.givesOrOverflows env m (a.toInt + b.toInt)
  | sub => exact Result.givesOrOverflows env m (a.toInt - b.toInt)
  | mul => exact Result.givesOrOverflows env m (a.toInt * b.toInt)
  | div => exact exact_div env m a b
  | rem => exact exact_rem env m a b
  | lt => exact truth Int64.lt_iff_toInt_lt
  | le => exact truth Int64.le_iff_toInt_le
  | gt => exact truth Int64.lt_iff_toInt_lt
  | ge => exact truth Int64.le_iff_toInt_le
  | eq => exact truth Int64.toInt_inj.symm
  | cmp =>
    rw [onInts, orderValue_compare]
    rfl

end Operator

/-- Two integers, immediate or not, under any operator that meets them: sums, differences, products
and floors of quotients are exact or raise a RangeError if they do not fit, remainders are exact,
only a divisor of zero raises a ZeroDivisionError, comparisons follow the order of the integers, and
no single step on the way divides by zero or leaves the range. -/
theorem integers_exact {m : Machine} {env : FrameId} {op : Operator} {left right : Value}
    {a b : Int64} (first : m.int? left = some a) (second : m.int? right = some b) {x : Run Value}
    (applies : Applies env op left right x) :
    op.Exact env m a.toInt b.toInt (x m) ∧ op.onIntsSteps a b = some (op.onInts a b) := by
  refine ⟨?_, op.onIntsSteps_eq a b⟩
  have ends : x m = orFail env (op.onInts a b) m := by
    rw [applies.eq, ← Machine.apply_of_int? op first second]
    rfl
  rw [ends]
  exact Operator.exact_onInts env m a b op

/-- The least integer as an object and the immediate minus one, on a new machine: the quotient does
not fit, the remainder is zero. -/
theorem integers_exact_least :
    ∃ id m, hydrate (.int Int64.minValue) (.boot .standard) = (.ok id, m) ∧
      Result.Raises .main m Core.rangeError.id "integer overflow"
        (applyOperator .main .div (.object id) (.int (-1)) m) ∧
      Result.Gives m (.int 0) (applyOperator .main .rem (.object id) (.int (-1)) m) := by
  obtain ⟨id, m, made, first⟩ : ∃ id m,
      hydrate (.int Int64.minValue) (.boot .standard) = (.ok id, m) ∧
        m.int? (.object id) = some Int64.minValue := ⟨_, _, rfl, by decide +kernel⟩
  have second : m.int? (.int (-1)) = some (-1) := rfl
  have applies (op : Operator) : Applies .main op (.object id) (.int (-1))
      (applyOperator .main op (.object id) (.int (-1))) :=
    .direct (runEntry 0) .anyMethod op.selector [] none
  have nonzero : (-1 : Int64).toInt ≠ 0 := by decide
  refine ⟨id, m, made, ?_, ?_⟩
  · obtain ⟨division, -⟩ := integers_exact first second (applies .div)
    apply (division.nonzero nonzero).beyond
    rw [floorQuotient_least]
    rintro ⟨-, below⟩
    exact absurd below (by decide)
  · obtain ⟨remainder, -⟩ := integers_exact first second (applies .rem)
    obtain ⟨r, ⟨value, same, gives⟩, left, -⟩ := remainder.nonzero nonzero
    rw [floorQuotient_least] at left
    have zero : value = 0 := Int64.toInt_inj.1 (same.trans left)
    rw [zero] at gives
    exact gives

end ObjectRuntime
