import ObjectRuntime.Proofs.Dispatch.Identities
import ObjectRuntime.Proofs.Machine.Formed

/-!
# Identities of their own

An integer has an odd identity that its value gives, boxed or not. Anything else has an even one,
that of its object, and a float becomes an object when it is asked. An identity that has been told
is told again, whatever runs in between. Objects never share one while their numbers fit; integers
that differ by `2 ^ 63` do, since twice the value is taken in 64 bits.
-/

set_option autoImplicit false

namespace ObjectRuntime

open Run Machine

def Payload.int? : Payload → Option Int64
  | .int i => some i
  | _ => none

theorem Payload.Becomes.int? {p p' : Payload} (becomes : p.Becomes p') : p'.int? = p.int? := by
  obtain rfl | ⟨data, data', rfl, rfl⟩ := becomes
  · rfl
  · rfl

namespace Machine

variable {m m' : Machine} {v w : Value} {n : Int64}

theorem int?_object (m : Machine) (id : ObjectId) :
    m.int? (.object id) = (m.heap.get? id).bind fun o => o.payload.int? := by
  have held : m.payload? (.object id) = (m.heap.get? id).map (·.payload) := rfl
  unfold int?
  dsimp only
  rw [held]
  cases m.heap.get? id with
  | none => rfl
  | some o =>
    rw [Option.map_some, Option.bind_some]
    cases o.payload <;> rfl

/-! ### Asking -/

theorem identityOf_int {i : Int64} (number : m.int? v = some i) :
    identityOf v m = (.ok (i * 2 + 1, v), m) := by
  unfold identityOf
  rw [run_bind, run_read, number]
  rfl

theorem identityOf_other (no_int : m.int? v = none) :
    ∃ id m', hydrate v m = (.ok id, m') ∧
      identityOf v m = (.ok (objectNumber id, .object id), m') := by
  unfold identityOf
  rw [run_bind, run_read, no_int]
  cases v with
  | int i => cases no_int
  | float x => exact ⟨_, _, rfl, rfl⟩
  | object id => exact ⟨_, _, rfl, rfl⟩

theorem identityOf_ends (m : Machine) (v : Value) :
    ∃ n w m', identityOf v m = (.ok (n, w), m') := by
  cases number : m.int? v with
  | some i => exact ⟨_, _, _, identityOf_int number⟩
  | none =>
    obtain ⟨id, m', -, asks⟩ := identityOf_other number
    exact ⟨_, _, _, asks⟩

theorem identityOf_cases (asks : identityOf v m = (.ok (n, w), m')) :
    (∃ i, m.int? v = some i ∧ n = i * 2 + 1 ∧ w = v ∧ m' = m) ∨
      ∃ id, m.int? v = none ∧ n = objectNumber id ∧ w = .object id ∧
        Run.hydrate v m = (.ok id, m') := by
  cases number : m.int? v with
  | some i =>
    cases (identityOf_int number).symm.trans asks
    exact .inl ⟨i, rfl, rfl, rfl, rfl⟩
  | none =>
    obtain ⟨id, after, hydrates, tells⟩ := identityOf_other number
    cases tells.symm.trans asks
    exact .inr ⟨id, rfl, rfl, rfl, hydrates⟩

theorem knows_of_int? {i : Int64} (number : m.int? v = some i) : m.Knows v := by
  rintro id rfl
  rw [int?_object] at number
  obtain ⟨o, at_id, -⟩ := Option.bind_eq_some_iff.1 number
  exact ⟨o, at_id⟩

theorem Knows.kept (knows : m.Knows v) (deeds : Deeds true m m') : m'.Knows v := by
  intro id is
  obtain ⟨o, at_id⟩ := knows id is
  obtain ⟨o', at_id', -⟩ := deeds.object_kept at_id
  exact ⟨o', at_id'⟩

theorem Knows.int?_kept (knows : m.Knows v) (deeds : Deeds true m m') : m'.int? v = m.int? v := by
  cases v with
  | int i => rfl
  | float x => rfl
  | object id =>
    obtain ⟨o, at_id⟩ := knows id rfl
    obtain ⟨o', at_id', -, becomes⟩ := deeds.object_kept at_id
    rw [int?_object, int?_object, at_id, at_id']
    exact becomes.int?

theorem int?_hydrate {id : ObjectId} (hydrates : Run.hydrate v m = (.ok id, m')) :
    m'.int? (.object id) = m.int? v := by
  cases v with
  | object other =>
    cases hydrates
    rfl
  | int i =>
    cases hydrates
    rw [int?_object, Heap.get?_push_next]
    rfl
  | float x =>
    cases hydrates
    rw [int?_object, Heap.get?_push_next]
    rfl

theorem knows_hydrate {id : ObjectId} (knows : m.Knows v)
    (hydrates : Run.hydrate v m = (.ok id, m')) : m'.Knows (.object id) := by
  rintro _ ⟨⟩
  cases v with
  | object other =>
    cases hydrates
    exact knows id rfl
  | int i =>
    cases hydrates
    exact ⟨_, Heap.get?_push_next ..⟩
  | float x =>
    cases hydrates
    exact ⟨_, Heap.get?_push_next ..⟩

theorem Knows.asked (knows : m.Knows v) (asks : identityOf v m = (.ok (n, w), m')) :
    m'.Knows w := by
  obtain ⟨i, -, -, rfl, rfl⟩ | ⟨id, -, -, rfl, hydrates⟩ := identityOf_cases asks
  · exact knows
  · exact knows_hydrate knows hydrates

/-! ### Settled identities -/

inductive Settled (m : Machine) (v : Value) : Int64 → Prop where
  | int (i : Int64) (number : m.int? v = some i) : Settled m v (i * 2 + 1)
  | object (id : ObjectId) (is : v = .object id) (no_int : m.int? v = none)
      (knows : m.Knows v) : Settled m v (objectNumber id)

theorem Settled.asked (settled : m.Settled v n) : identityOf v m = (.ok (n, v), m) := by
  cases settled with
  | int i number => exact identityOf_int number
  | object id is no_int knows =>
    subst is
    obtain ⟨other, m', hydrates, asks⟩ := identityOf_other no_int
    cases hydrates
    exact asks

theorem Settled.work (settled : m.Settled v n) (deeds : Deeds true m m') : m'.Settled v n := by
  cases settled with
  | int i number => exact .int i (((knows_of_int? number).int?_kept deeds).trans number)
  | object id is no_int knows =>
    exact .object id is ((knows.int?_kept deeds).trans no_int) (knows.kept deeds)

theorem Settled.hydrate (settled : m.Settled v n) {id : ObjectId}
    (hydrates : Run.hydrate v m = (.ok id, m')) : m'.Settled (.object id) n := by
  have same := int?_hydrate hydrates
  cases settled with
  | int i number => exact .int i (same.trans number)
  | object other is no_int knows =>
    subst is
    cases hydrates
    exact .object id rfl no_int knows

theorem Knows.settled (knows : m.Knows v) (asks : identityOf v m = (.ok (n, w), m')) :
    m'.Settled w n := by
  obtain ⟨i, number, rfl, rfl, rfl⟩ | ⟨id, no_int, rfl, rfl, hydrates⟩ := identityOf_cases asks
  · exact .int i number
  · exact .object id rfl ((int?_hydrate hydrates).trans no_int) (knows_hydrate knows hydrates)

end Machine

/-! ### Slots -/

/-- A place that holds a value, in a machine that works on. -/
structure Slot where
  machine : Machine
  value : Value

/-- The machine does anything, or the value is made an object in its place, or asked for its
identity. -/
inductive Slot.Step : Slot → Slot → Prop where
  | work {m m' : Machine} {v : Value} (deeds : Deeds true m m') : Step ⟨m, v⟩ ⟨m', v⟩
  | hydrate {m m' : Machine} {v : Value} {id : ObjectId}
      (hydrates : Run.hydrate v m = (.ok id, m')) : Step ⟨m, v⟩ ⟨m', .object id⟩
  | ask {m m' : Machine} {v w : Value} {n : Int64}
      (asks : identityOf v m = (.ok (n, w), m')) : Step ⟨m, v⟩ ⟨m', w⟩

abbrev Slot.Steps : Slot → Slot → Prop := Relation.ReflTransGen Slot.Step

theorem Slot.Step.settled {s t : Slot} {n : Int64} (step : Step s t)
    (settled : s.machine.Settled s.value n) : t.machine.Settled t.value n := by
  cases step with
  | work deeds => exact settled.work deeds
  | hydrate hydrates => exact settled.hydrate hydrates
  | ask asks =>
    cases settled.asked.symm.trans asks
    exact settled

theorem Slot.Steps.settled {s t : Slot} {n : Int64} (steps : Steps s t)
    (settled : s.machine.Settled s.value n) : t.machine.Settled t.value n := by
  induction steps with
  | refl => exact settled
  | tail _ last ih => exact last.settled ih

/-! ### Odd and even identities -/

theorem toInt_odd (i : Int64) : (i * 2 + 1).toInt % 2 = 1 := by
  have two : (2 : Int64).toInt = 2 := rfl
  have one : (1 : Int64).toInt = 1 := rfl
  rw [Int64.toInt_add, Int64.toInt_mul, two, one, Int.bmod, Int.bmod]
  omega

theorem toInt_objectNumber (id : ObjectId) : (objectNumber id).toInt % 2 = 0 := by
  have two : (2 : Int64).toInt = 2 := rfl
  unfold objectNumber
  rw [Int64.toInt_mul, two, Int.bmod]
  omega

namespace Machine

variable {m m' : Machine} {v w : Value} {n k : Int64}

theorem Knows.number_le (knows : m.Knows v) {id : ObjectId}
    (hydrates : Run.hydrate v m = (.ok id, m')) : id.number ≤ m.heap.size + 1 := by
  cases v with
  | object other =>
    cases hydrates
    obtain ⟨o, at_id⟩ := knows id rfl
    obtain ⟨present, -⟩ := Array.getElem?_eq_some_iff.1 at_id
    change id.index < m.heap.size at present
    change id.index + 1 ≤ _
    omega
  | int i =>
    cases hydrates
    exact Nat.le_refl _
  | float x =>
    cases hydrates
    exact Nat.le_refl _

end Machine

/-- Twice the number of an object fits if there are fewer objects than this. -/
def numberRoom : Nat := Nat.pow 2 62

theorem numberRoom_eq : numberRoom = 4611686018427387904 := rfl

theorem Machine.told_eq_iff {m m' m₂ m₃ : Machine} {a a' b b' : Value} {n k : Int64}
    (asks : identityOf a m = (.ok (n, a'), m')) (knows : m₂.Knows a')
    (asks' : identityOf b m₂ = (.ok (k, b'), m₃)) (few : m₂.heap.size < numberRoom) :
    (∀ i j, m.int? a = some i → m₂.int? b = some j →
      (n = k ↔ i = j ∨ i = j + Int64.minValue)) ∧
    (m.int? a = none → m₂.int? b = none → (n = k ↔ a' = b')) ∧
    ((m.int? a).isSome ≠ (m₂.int? b).isSome → n ≠ k) := by
  obtain ⟨i, number, rfl, -⟩ | ⟨x, no_int, rfl, rfl, -⟩ := identityOf_cases asks
  · obtain ⟨j, number', rfl, -⟩ | ⟨y, no_int', rfl, -⟩ := identityOf_cases asks'
    · rw [number, number']
      refine ⟨?_, nofun, fun differ => absurd rfl differ⟩
      rintro _ _ ⟨⟩ ⟨⟩
      exact odd_eq_iff i j
    · rw [number, no_int']
      exact ⟨nofun, nofun, fun _ => odd_ne_even i _⟩
  · obtain ⟨j, number', rfl, -⟩ | ⟨y, no_int', rfl, rfl, -⟩ := identityOf_cases asks'
    · rw [no_int, number']
      exact ⟨nofun, nofun, fun _ => (odd_ne_even j _).symm⟩
    · rw [no_int, no_int']
      refine ⟨nofun, fun _ _ => ?_, fun differ => absurd rfl differ⟩
      -- the first object is one of the few, so its number is none of those that share the last
      have x_le := knows.number_le rfl
      rw [numberRoom_eq] at few
      rw [objectNumber_eq_iff, lastNumber_eq, Value.object.injEq]
      exact or_iff_left (by omega)

/-- A known value always has an identity: an odd number if it is an integer, which it stays, and
otherwise the even number of an object, which the value is or becomes. The slot tells the same
number again after anything that may happen in between. Of any other value that is asked then or
later, as long as the machine has fewer than `2 ^ 62` objects: two integers have the same identity
exactly if they are equal or differ by `2 ^ 63`, two other values exactly if they are one object,
and an integer never has the identity of anything else. -/
theorem identities_apart {m : Machine} {a : Value} (knows : m.Knows a) :
    ∃ n a' m', identityOf a m = (.ok (n, a'), m') ∧
    (∀ i, m.int? a = some i → n.toInt % 2 = 1 ∧ a' = a ∧ m' = m) ∧
    (m.int? a = none → n.toInt % 2 = 0 ∧
      ∃ id, a' = .object id ∧ (a.isImmediate = false → a = .object id)) ∧
    (∀ t, Slot.Steps ⟨m', a'⟩ t → identityOf t.value t.machine = (.ok (n, t.value), t.machine)) ∧
    ∀ m₂ b, Deeds true m' m₂ → m₂.heap.size < numberRoom →
      ∃ k b' m₃, identityOf b m₂ = (.ok (k, b'), m₃) ∧
      (∀ i j, m.int? a = some i → m₂.int? b = some j →
        (n = k ↔ i = j ∨ i = j + Int64.minValue)) ∧
      (m.int? a = none → m₂.int? b = none → (n = k ↔ a' = b')) ∧
      ((m.int? a).isSome ≠ (m₂.int? b).isSome → n ≠ k) := by
  obtain ⟨n, a', m', asks⟩ := identityOf_ends m a
  have settled := knows.settled asks
  refine ⟨n, a', m', asks, ?_, ?_, fun t steps => (steps.settled settled).asked, ?_⟩
  · intro i number
    obtain ⟨j, -, rfl, same⟩ | ⟨id, no_int, -⟩ := identityOf_cases asks
    · exact ⟨toInt_odd j, same⟩
    · cases number.symm.trans no_int
  · intro no_int
    obtain ⟨i, number, -⟩ | ⟨id, -, rfl, rfl, hydrates⟩ := identityOf_cases asks
    · cases number.symm.trans no_int
    · refine ⟨toInt_objectNumber id, id, rfl, fun boxed => ?_⟩
      cases a with
      | object other =>
        cases hydrates
        rfl
      | int _ => cases boxed
      | float _ => cases boxed
  · intro m₂ b deeds few
    obtain ⟨k, b', m₃, asks'⟩ := identityOf_ends m₂ b
    exact ⟨k, b', m₃, asks', told_eq_iff asks ((knows.asked asks).kept deeds) asks' few⟩

theorem identities_apart_nil :
    (boot .standard).Knows .nil ∧ (boot .standard).heap.size < numberRoom ∧
    ∃ n, identityOf .nil (boot .standard) = (.ok (n, .nil), boot .standard) ∧ n.toInt % 2 = 0 ∧
    (∀ t, Slot.Steps ⟨boot .standard, .nil⟩ t →
      identityOf t.value t.machine = (.ok (n, t.value), t.machine)) ∧
    ∀ i, ∃ k b m, identityOf (.int i) (boot .standard) = (.ok (k, b), m) ∧ n ≠ k := by
  have knows : (boot .standard).Knows .nil := by
    rintro _ ⟨⟩
    exact ⟨_, rfl⟩
  have few : (boot .standard).heap.size < numberRoom := by decide
  have no_int : (boot .standard).int? .nil = none := rfl
  have told : identityOf .nil (boot .standard) = (.ok (76, .nil), boot .standard) := rfl
  obtain ⟨n, a', m', asks, -, even, again, apart⟩ := identities_apart knows
  obtain ⟨ended, rfl⟩ := Prod.mk.inj (told.symm.trans asks)
  obtain ⟨rfl, rfl⟩ := Prod.mk.inj (Except.ok.inj ended)
  refine ⟨knows, few, 76, told, (even no_int).1, again, fun i => ?_⟩
  obtain ⟨k, b, m, asks', -, -, differ⟩ := apart (boot .standard) (.int i) .refl few
  exact ⟨k, b, m, asks', differ (by rw [no_int]; nofun)⟩

theorem identity_of_least :
    (boot .standard).Reachable ∧ (boot .standard).heap.size < numberRoom ∧
    ¬ ((∃ n, (identityOf (.int 0) (boot .standard)).1 = .ok (n, .int 0) ∧
        (identityOf (.int Int64.minValue) (boot .standard)).1 = .ok (n, .int Int64.minValue)) ↔
      (0 : Int64) = Int64.minValue) := by
  have zero : identityOf (.int 0) (boot .standard) = (.ok (1, .int 0), boot .standard) := rfl
  have least : identityOf (.int Int64.minValue) (boot .standard) =
      (.ok (1, .int Int64.minValue), boot .standard) := rfl
  refine ⟨⟨_, .refl⟩, by decide, fun agree => ?_⟩
  have same : (0 : Int64) = Int64.minValue :=
    agree.1 ⟨1, congrArg Prod.fst zero, congrArg Prod.fst least⟩
  revert same
  decide

end ObjectRuntime
