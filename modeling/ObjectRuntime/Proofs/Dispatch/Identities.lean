import ObjectRuntime.Proofs.Dispatch.Replies

/-!
# Being equal and having the same identity

`object_id` looks through the box of an integer and gives the same odd number for all copies of it;
every other object has an even number of its own. `equal?` does not look through boxes: two values
are equal if they are one object. `identity_coherent` says how the two answers are related. Of two
integers that are both immediate and the same, it says nothing.
-/

set_option autoImplicit false

namespace ObjectRuntime

open Run

def Machine.identity (m : Machine) (v : Value) : Int64 :=
  match m.int? v, v.object? with
  | some i, _ => i * 2 + 1
  | none, some id => objectNumber id
  | none, none => 0

/-- The value answers the name, with so many arguments, by the built-in method. -/
def Machine.Performs (m : Machine) (v : Value) (name : String) (count : Nat) (b : Builtin) : Prop :=
  ∃ method, m.definition? v name = some method ∧ method.body = .native (.builtin b) ∧
    method.arity.accepts count = true

/-- The objects from this number on have one identity, the last. -/
def lastNumber : Nat := Nat.pow 2 63 - 1

theorem lastNumber_eq : lastNumber = 9223372036854775807 := rfl

def Machine.SharesLast (m : Machine) (a b : Value) : Prop :=
  m.int? a = none ∧ m.int? b = none ∧
    ∃ x y, a = .object x ∧ b = .object y ∧ lastNumber ≤ x.number ∧ lastNumber ≤ y.number

def TellsEqual (run : Runner) (env : FrameId) (m : Machine) (a b : Value) : Prop :=
  (send run env .anyMethod a "equal?" [b] none m).1 = .ok (.bool true)

def TellsSame (run : Runner) (env : FrameId) (m : Machine) (a b : Value) : Prop :=
  ∃ n, (send run env .anyMethod a "object_id" [] none m).1 = .ok (.int n) ∧
    (send run env .anyMethod b "object_id" [] none m).1 = .ok (.int n)

/-! ### Numbers of 64 bits -/

theorem odd_eq_iff (i j : Int64) :
    i * 2 + 1 = j * 2 + 1 ↔ i = j ∨ i = j + Int64.minValue := by
  have two : (2 : Int64).toBitVec = 2#64 := rfl
  have one : (1 : Int64).toBitVec = 1#64 := rfl
  have least : Int64.minValue.toBitVec = 9223372036854775808#64 := rfl
  simp only [← Int64.toBitVec_inj, Int64.toBitVec_add, Int64.toBitVec_mul, two, one, least]
  bv_omega

theorem odd_ne_even (i j : Int64) : i * 2 + 1 ≠ j * 2 := by
  have two : (2 : Int64).toBitVec = 2#64 := rfl
  have one : (1 : Int64).toBitVec = 1#64 := rfl
  simp only [ne_eq, ← Int64.toBitVec_inj, Int64.toBitVec_add, Int64.toBitVec_mul, two, one]
  bv_omega

theorem toNat_objectNumber (id : ObjectId) :
    (objectNumber id).toBitVec.toNat = 2 * min id.number lastNumber := by
  have two : (2 : Int64).toBitVec = 2#64 := rfl
  have factor : (2#64).toNat = 2 := rfl
  have most : Int64.maxValue.toBitVec.toNat = lastNumber := rfl
  unfold objectNumber
  rw [Int64.toBitVec_mul, two, BitVec.toNat_mul, factor]
  split
  next small =>
    change id.number < 9223372036854775808 at small
    rw [Int64.toBitVec_ofNat', BitVec.toNat_ofNat, lastNumber_eq]
    omega
  next large =>
    change ¬ id.number < 9223372036854775808 at large
    rw [most, lastNumber_eq]
    omega

theorem objectNumber_eq_iff (x y : ObjectId) :
    objectNumber x = objectNumber y ↔
      x = y ∨ lastNumber ≤ x.number ∧ lastNumber ≤ y.number := by
  rw [← Int64.toBitVec_inj, BitVec.toNat_eq, toNat_objectNumber, toNat_objectNumber, lastNumber_eq]
  constructor
  · intro same
    by_cases beyond : 9223372036854775807 ≤ x.number ∧ 9223372036854775807 ≤ y.number
    · exact .inr beyond
    · exact .inl (ObjectId.number_injective (by omega))
  · rintro (rfl | beyond)
    · rfl
    · omega

/-! ### What the two messages give -/

namespace Machine

variable {m ready : Machine} {v : Value} {id : ObjectId}

theorem int?_of_num? {m m' : Machine} {v w : Value} (same : m'.num? w = m.num? v) :
    m'.int? w = m.int? v := by
  unfold num? at same
  cases left : m'.int? w with
  | some i =>
    rw [left] at same
    cases right : m.int? v with
    | some j => rw [right] at same; cases same; rfl
    | none =>
      rw [right] at same
      obtain ⟨x, -, differs⟩ := Option.map_eq_some_iff.1 same.symm
      cases differs
  | none =>
    rw [left] at same
    cases right : m.int? v with
    | none => rfl
    | some j =>
      rw [right] at same
      obtain ⟨x, -, differs⟩ := Option.map_eq_some_iff.1 same
      cases differs

theorem Receives.int? (receives : m.Receives v ready id) (knows : m.Knows v) :
    ready.int? (.object id) = m.int? v := by
  obtain rfl | ⟨-, -, number⟩ := receives.stands
  · exact int?_of_num? (receives.toExtends.num? knows)
  · exact int?_of_num? number

theorem Receives.eq_object_iff (receives : m.Receives v ready id) {w : Value} (knows : m.Knows w)
    (differs : v.isImmediate = true → v ≠ w) : w = .object id ↔ v = w := by
  obtain rfl | ⟨immediate, is_new, -⟩ := receives.stands
  · exact eq_comm
  · refine iff_of_false ?_ (differs immediate)
    rintro rfl
    obtain ⟨o, at_id⟩ := knows id rfl
    rw [is_new] at at_id
    cases at_id

theorem identity_object (m : Machine) (id : ObjectId) :
    m.identity (.object id) =
      match m.int? (.object id) with
      | some i => i * 2 + 1
      | none => objectNumber id := by
  unfold identity
  cases m.int? (.object id) <;> rfl

end Machine

namespace Run

variable {m : Machine} {v : Value} {name : String} {b : Builtin}

/-- A message that a built-in method answers ends as that method does, in a frame of its own on the
object that stands for the receiver, if the limit on nested calls leaves room for it. -/
theorem send_builtin (args : List Value) (performs : m.Performs v name args.length b)
    (general : directOperator? m v name args = none) (env : FrameId) (calls : Nat) :
    ∃ id ready, m.Receives v ready id ∧
      (allowsCall m = false → send (runEntry (calls + 1)) env .anyMethod v name args none m =
        fail env .stackTooDeep ready) ∧
      (allowsCall m = true → ∃ f, send (runEntry (calls + 1)) env .anyMethod v name args none m =
        afterward (b.perform (runEntry calls) ready.frames.next (.object id) args none)
          (leaveCall ready.frames.next ready.current) (ready.entered f)) := by
  obtain ⟨method, found, body, accepted⟩ := performs
  obtain ⟨id, ready, routed, receives⟩ := route_general general
  have resolved : Method.defined? (ready.resolve id name) = some method :=
    (receives.same name).trans found
  have called : send (runEntry (calls + 1)) env .anyMethod v name args none m =
      inNewFrame (runEntry (calls + 1)) env
        { Frame.fresh .method (ownerFrame ready method.owner) with
          method := some method, block := none, ancestorIndex := none }
        (.builtin b) (.object id) args none ready := by
    have sent : send (runEntry (calls + 1)) env .anyMethod v name args none m =
        sendToObject (runEntry (calls + 1)) env .anyMethod id name args none ready := by
      rw [send, run_bind, routed]
      rfl
    have invoked : sendToObject (runEntry (calls + 1)) env .anyMethod id name args none ready =
        invokeAt (runEntry (calls + 1)) env method (.object id) args none none ready := by
      unfold sendToObject
      rw [run_bind, run_read, resolved]
      rfl
    rw [sent, invoked, invokeAt, body]
    simp only [run_bind, run_read]
    rw [invokeAt.enter, if_pos accepted]
  have room : allowsCall ready = allowsCall m := by
    rw [allowsCall, allowsCall, receives.settings, receives.depth]
  refine ⟨id, ready, receives, ?_, ?_⟩
  · intro full
    rw [called, inNewFrame_of_full (room.trans full)]
  · intro allowed
    exact ⟨_, called.trans (inNewFrame_of_allowed (room.trans allowed))⟩

theorem fail_ne_ok {α : Type} (env : FrameId) (fault : Fault) (m : Machine) (a : α) :
    (fail env fault m).1 ≠ .ok a := by
  obtain ⟨m', failing, -⟩ := fail_eq (α := α) env fault m
  rw [failing]
  nofun

theorem directOperator?_of_no_operator
    (ints : Operator.find? Operator.onIntegers name = none)
    (floats : Operator.find? Operator.onFloats name = none) (m : Machine) (v : Value)
    (args : List Value) : directOperator? m v name args = none := by
  cases v with
  | object id => rfl
  | int i => simp [directOperator?, directTable, ints]
  | float x => simp [directOperator?, directTable, floats]

variable {a : Value} (env : FrameId) (calls : Nat)

theorem send_same_eq (performs : m.Performs a "equal?" 1 .same) {w : Value} (knows : m.Knows w)
    (differs : a.isImmediate = true → a ≠ w) :
    TellsEqual (runEntry (calls + 1)) env m a w ↔ allowsCall m = true ∧ a = w := by
  obtain ⟨id, ready, receives, full, room⟩ := send_builtin [w] performs
    (directOperator?_of_no_operator (by decide) (by decide) m a [w]) env calls
  unfold TellsEqual
  cases allowed : allowsCall m with
  | false =>
    rw [full allowed]
    exact iff_of_false (fail_ne_ok env .stackTooDeep ready _) nofun
  | true =>
    obtain ⟨f, sent⟩ := room allowed
    have ending : (send (runEntry (calls + 1)) env .anyMethod a "equal?" [w] none m).1 =
        .ok (.bool (Value.object id == w)) := by
      rw [sent]
      rfl
    rw [ending, ← receives.eq_object_iff knows differs]
    cases same : (Value.object id == w) with
    | true => simp [(beq_iff_eq.1 same).symm]
    | false =>
      have apart : w ≠ .object id := fun is => by simp [is] at same
      simp [apart, Value.bool, ObjectId.true, ObjectId.false]

theorem send_objectId_eq (performs : m.Performs a "object_id" 0 .objectId) (knows : m.Knows a)
    (no_float : ∀ x, a ≠ .float x) (n : Int64) :
    (send (runEntry (calls + 1)) env .anyMethod a "object_id" [] none m).1 = .ok (.int n) ↔
      allowsCall m = true ∧ m.identity a = n := by
  obtain ⟨id, ready, receives, full, room⟩ := send_builtin [] performs
    (directOperator?_of_no_operator (by decide) (by decide) m a []) env calls
  cases allowed : allowsCall m with
  | false =>
    rw [full allowed]
    exact iff_of_false (fail_ne_ok env .stackTooDeep ready _) nofun
  | true =>
    obtain ⟨f, sent⟩ := room allowed
    have number : (ready.entered f).int? (.object id) = m.int? a := receives.int? knows
    have same : (ready.entered f).identity (.object id) = m.identity a := by
      rw [Machine.identity_object, number]
      unfold Machine.identity
      cases a with
      | int i => rfl
      | float x => exact absurd rfl (no_float x)
      | object other =>
        obtain is | ⟨immediate, -⟩ := receives.stands
        · cases is
          cases m.int? (.object id) <;> rfl
        · cases immediate
    have ending : (send (runEntry (calls + 1)) env .anyMethod a "object_id" [] none m).1 =
        .ok (.int (m.identity a)) := by
      rw [sent, ← same, Machine.identity_object]
      change ((do return .int (← identityOf (.object id)).1 : Run Value) (ready.entered f)).1 = _
      unfold identityOf
      simp only [run_bind, run_read]
      cases (ready.entered f).int? (.object id) <;> rfl
    rw [ending]
    simp

theorem allowsCall_of_tellsEqual (performs : m.Performs a "equal?" 1 .same) {w : Value}
    (tells : TellsEqual (runEntry (calls + 1)) env m a w) : allowsCall m = true := by
  obtain ⟨id, ready, -, full, -⟩ := send_builtin [w] performs
    (directOperator?_of_no_operator (by decide) (by decide) m a [w]) env calls
  cases allowed : allowsCall m with
  | true => rfl
  | false =>
    rw [TellsEqual, full allowed] at tells
    exact absurd tells (fail_ne_ok env .stackTooDeep ready _)

theorem tellsSame_iff {w : Value} (performs : m.Performs a "object_id" 0 .objectId)
    (performs' : m.Performs w "object_id" 0 .objectId) (knows : m.Knows a) (knows' : m.Knows w)
    (no_float : ∀ x, a ≠ .float x) (no_float' : ∀ x, w ≠ .float x) :
    TellsSame (runEntry (calls + 1)) env m a w ↔
      allowsCall m = true ∧ m.identity a = m.identity w := by
  unfold TellsSame
  simp only [send_objectId_eq env calls performs knows no_float,
    send_objectId_eq env calls performs' knows' no_float']
  constructor
  · rintro ⟨n, ⟨allowed, first⟩, -, second⟩
    exact ⟨allowed, first.trans second.symm⟩
  · rintro ⟨allowed, same⟩
    exact ⟨_, ⟨allowed, same⟩, allowed, rfl⟩

end Run

namespace Machine

variable {m : Machine} {a b : Value}

theorem identity_int {i : Int64} (number : m.int? a = some i) : m.identity a = i * 2 + 1 := by
  unfold identity
  rw [number]

theorem identity_no_int (no_float : ∀ x, a ≠ .float x) (no_int : m.int? a = none) :
    ∃ id, a = .object id ∧ m.identity a = objectNumber id := by
  cases a with
  | int i => cases no_int
  | float x => exact absurd rfl (no_float x)
  | object id => exact ⟨id, rfl, by rw [identity_object, no_int]⟩

theorem identity_eq_iff (no_float : ∀ x, a ≠ .float x) (no_float' : ∀ x, b ≠ .float x)
    (not_both : m.int? a = none ∨ m.int? b = none) :
    m.identity a = m.identity b ↔ a = b ∨ m.SharesLast a b := by
  cases left : m.int? a with
  | some i =>
    obtain right : m.int? b = none := not_both.resolve_left (by rw [left]; nofun)
    obtain ⟨y, rfl, second⟩ := identity_no_int no_float' right
    rw [identity_int left, second]
    refine iff_of_false (odd_ne_even i _) ?_
    rintro (rfl | ⟨no_int, -⟩)
    · rw [left] at right
      cases right
    · rw [left] at no_int
      cases no_int
  | none =>
    obtain ⟨x, rfl, first⟩ := identity_no_int no_float left
    cases right : m.int? b with
    | some j =>
      rw [identity_int right, first]
      refine iff_of_false (odd_ne_even j _).symm ?_
      rintro (rfl | ⟨-, no_int, -⟩)
      · rw [left] at right
        cases right
      · rw [right] at no_int
        cases no_int
    | none =>
      obtain ⟨y, rfl, second⟩ := identity_no_int no_float' right
      rw [first, second, objectNumber_eq_iff]
      constructor
      · rintro (rfl | ⟨x_beyond, y_beyond⟩)
        · exact .inl rfl
        · exact .inr ⟨left, right, x, y, rfl, rfl, x_beyond, y_beyond⟩
      · rintro (same | ⟨-, -, _, _, ⟨⟩, ⟨⟩, beyond⟩)
        · exact .inl (Value.object.inj same)
        · exact .inr beyond

end Machine

/-- Of two known values whose messages the built-in methods answer: if they are equal they have the
same identity, and neither is told where no call more is allowed. If they are not both integers the
converse holds as well, as long as the identities have not run out. Integers have the same identity
if they agree modulo `2 ^ 63`, boxed or not; different integers are not equal, and if at least one
is boxed, only one and the same box is. -/
theorem identity_coherent {m : Machine} {a b : Value} (knows : m.Knows a) (knows' : m.Knows b)
    (no_float : ∀ x, a ≠ .float x) (no_float' : ∀ x, b ≠ .float x)
    (equal : m.Performs a "equal?" 1 .same) (identity : m.Performs a "object_id" 0 .objectId)
    (identity' : m.Performs b "object_id" 0 .objectId) (env : FrameId) (calls : Nat) :
    (TellsEqual (runEntry (calls + 1)) env m a b → TellsSame (runEntry (calls + 1)) env m a b) ∧
    (TellsSame (runEntry (calls + 1)) env m a b → allowsCall m = true) ∧
    (m.int? a = none ∨ m.int? b = none →
      (TellsSame (runEntry (calls + 1)) env m a b ↔
        TellsEqual (runEntry (calls + 1)) env m a b ∨
          allowsCall m = true ∧ m.SharesLast a b)) ∧
    ∀ i j, m.int? a = some i → m.int? b = some j →
      (TellsSame (runEntry (calls + 1)) env m a b ↔
        allowsCall m = true ∧ (i = j ∨ i = j + Int64.minValue)) ∧
      (i ≠ j → ¬ TellsEqual (runEntry (calls + 1)) env m a b) ∧
      (a.isImmediate = false ∨ b.isImmediate = false →
        (TellsEqual (runEntry (calls + 1)) env m a b ↔ allowsCall m = true ∧ a = b)) := by
  have same := tellsSame_iff env calls identity identity' knows knows'
    no_float no_float'
  have boxed (differs : a.isImmediate = true → a ≠ b) :=
    send_same_eq env calls equal knows' differs
  refine ⟨?_, fun tells => (same.1 tells).1, ?_, ?_⟩
  · intro tells
    have allowed := allowsCall_of_tellsEqual env calls equal tells
    by_cases one : a = b
    · exact same.2 ⟨allowed, congrArg m.identity one⟩
    · exact absurd ((boxed fun _ => one).1 tells).2 one
  · intro not_both
    have differs : a.isImmediate = true → a ≠ b := by
      rintro immediate rfl
      cases a with
      | int i => obtain no_int | no_int := not_both <;> cases no_int
      | float x => exact no_float x rfl
      | object id => cases immediate
    rw [same, boxed differs, Machine.identity_eq_iff no_float no_float' not_both, and_or_left]
  · intro i j left right
    refine ⟨?_, ?_, ?_⟩
    · rw [same, Machine.identity_int left, Machine.identity_int right, odd_eq_iff]
    · intro apart tells
      have differs : a ≠ b := by
        rintro rfl
        rw [left] at right
        exact apart (Option.some.inj right)
      exact differs ((boxed fun _ => differs).1 tells).2
    · intro some_box
      refine boxed ?_
      rintro immediate rfl
      obtain box | box := some_box <;> rw [immediate] at box <;> cases box

def twoBoxes : Machine :=
  { Machine.boot .standard with
    heap := ((Machine.boot .standard).heap.push (.ofPayload Core.integer.id (.int 5))).push
      (.ofPayload Core.integer.id (.int 5)) }

theorem twoBoxes_reachable : twoBoxes.Reachable :=
  ⟨.standard, (Relation.ReflTransGen.single (.change (.make Core.integer.id (.int 5) trivial
    nofun))).tail (.change (.make Core.integer.id (.int 5) trivial nofun))⟩

theorem Machine.performs_of_any {m : Machine} {v : Value} {name : String} {count : Nat}
    {b : Builtin}
    (any : ((m.definition? v name).any fun method =>
      (match method.body with
        | .native (.builtin other) => other == b
        | _ => false) && method.arity.accepts count) = true) : m.Performs v name count b := by
  obtain ⟨method, found, holds⟩ := (Option.any_eq_true _ _).1 any
  obtain ⟨is_builtin, accepted⟩ := Bool.and_eq_true_iff.1 holds
  split at is_builtin
  next other body => exact ⟨method, found, beq_iff_eq.1 is_builtin ▸ body, accepted⟩
  next => cases is_builtin

theorem twoBoxes_answer {id : ObjectId} (boxes : id = ⟨40⟩ ∨ id = ⟨41⟩) :
    twoBoxes.Knows (.object id) ∧ twoBoxes.int? (.object id) = some 5 ∧
    twoBoxes.Performs (.object id) "equal?" 1 .same ∧
    twoBoxes.Performs (.object id) "object_id" 0 .objectId := by
  have knows (present : (twoBoxes.heap.get? id).isSome = true) : twoBoxes.Knows (.object id) := by
    rintro _ ⟨⟩
    exact Option.isSome_iff_exists.1 present
  obtain rfl | rfl := boxes
  · exact ⟨knows (by decide +kernel), by decide +kernel,
      Machine.performs_of_any (by decide +kernel), Machine.performs_of_any (by decide +kernel)⟩
  · exact ⟨knows (by decide +kernel), by decide +kernel,
      Machine.performs_of_any (by decide +kernel), Machine.performs_of_any (by decide +kernel)⟩

theorem identity_coherent_boxes :
    TellsSame (runEntry 1) .main twoBoxes (.object ⟨40⟩) (.object ⟨41⟩) ∧
    ¬ TellsEqual (runEntry 1) .main twoBoxes (.object ⟨40⟩) (.object ⟨41⟩) ∧
    TellsEqual (runEntry 1) .main twoBoxes (.object ⟨41⟩) (.object ⟨41⟩) := by
  obtain ⟨knows, number, equal, identity⟩ := twoBoxes_answer (.inl rfl)
  obtain ⟨knows', number', equal', identity'⟩ := twoBoxes_answer (.inr rfl)
  obtain ⟨-, -, -, integers⟩ :=
    identity_coherent knows knows' nofun nofun equal identity identity' .main 0
  obtain ⟨-, -, -, integers'⟩ :=
    identity_coherent knows' knows' nofun nofun equal' identity' identity' .main 0
  obtain ⟨same, -, boxed⟩ := integers 5 5 number number'
  obtain ⟨-, -, boxed'⟩ := integers' 5 5 number' number'
  have apart : ¬ (Value.object ⟨40⟩ = .object ⟨41⟩) := by decide
  refine ⟨same.2 ⟨by decide, .inl rfl⟩, ?_, (boxed' (.inl rfl)).2 ⟨by decide, rfl⟩⟩
  exact fun tells => apart ((boxed (.inl rfl)).1 tells).2

/-- `equal?` does not give true wherever the identities are the same. -/
theorem same_identity_not_equal :
    twoBoxes.Reachable ∧
    twoBoxes.Knows (.object ⟨40⟩) ∧ twoBoxes.Knows (.object ⟨41⟩) ∧
    twoBoxes.Performs (.object ⟨40⟩) "equal?" 1 .same ∧
    twoBoxes.Performs (.object ⟨40⟩) "object_id" 0 .objectId ∧
    twoBoxes.Performs (.object ⟨41⟩) "object_id" 0 .objectId ∧
    ¬ (TellsEqual (runEntry 1) .main twoBoxes (.object ⟨40⟩) (.object ⟨41⟩) ↔
      TellsSame (runEntry 1) .main twoBoxes (.object ⟨40⟩) (.object ⟨41⟩)) := by
  obtain ⟨knows, number, equal, identity⟩ := twoBoxes_answer (.inl rfl)
  obtain ⟨knows', number', -, identity'⟩ := twoBoxes_answer (.inr rfl)
  refine ⟨twoBoxes_reachable, knows, knows', equal, identity, identity', fun agree => ?_⟩
  have same : TellsSame (runEntry 1) .main twoBoxes (.object ⟨40⟩) (.object ⟨41⟩) := by
    refine (tellsSame_iff .main 0 identity identity' knows knows' nofun nofun).2 ⟨by decide, ?_⟩
    rw [Machine.identity_int number, Machine.identity_int number']
  have one := ((send_same_eq .main 0 equal knows' nofun).1 (agree.2 same)).2
  revert one
  decide

end ObjectRuntime
