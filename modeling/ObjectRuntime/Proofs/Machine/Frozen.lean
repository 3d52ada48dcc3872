import ObjectRuntime.Arithmetic
import ObjectRuntime.Proofs.Machine.Kinds

/-!
# Numbers are frozen

A number that was made an object is an ordinary entry of the heap, with a table of variables and one
of methods. Nothing ever writes to either, or changes its class: it stays the object that was made.
So whoever reads or sets its variables, or asks for a method of its own, learns the same as of the
immediate number, down to the message. Any other object takes a variable, and no other variable
changes.
-/

set_option autoImplicit false

namespace ObjectRuntime

open Run

/-! ### Numbers, immediate and boxed -/

namespace Num

def value : Num → Value
  | int i => .int i
  | float x => .float x

def cls : Num → Core
  | int _ => .integer
  | float _ => .float

def payload : Num → Payload
  | int i => .int i
  | float x => .float x

def boxed (n : Num) : Object := .ofPayload n.cls.id n.payload

def text : Num → String
  | int i => toString i.toInt
  | float x => Number.inspectStyle.render x

theorem exists_of_isImmediate {v : Value} (immediate : v.isImmediate = true) :
    ∃ n : Num, v = n.value := by
  cases v with
  | int i => exact ⟨.int i, rfl⟩
  | float x => exact ⟨.float x, rfl⟩
  | object id => cases immediate

theorem className_eq (n : Num) : n.className = n.cls.name := by
  cases n <;> rfl

end Num

def Payload.num? : Payload → Option Num
  | .int i => some (.int i)
  | .float x => some (.float x)
  | _ => none

theorem Payload.num?_eq_some_iff {p : Payload} {n : Num} : p.num? = some n ↔ p = n.payload := by
  cases p <;> cases n <;> simp [num?, Num.payload]

theorem Payload.Becomes.num? {p p' : Payload} (becomes : p.Becomes p') : p'.num? = p.num? := by
  obtain rfl | ⟨data, data', rfl, rfl⟩ := becomes
  · rfl
  · rfl

theorem Object.isBoxedNumber_iff {o : Object} :
    o.isBoxedNumber = true ↔ ∃ n, o.payload.num? = some n := by
  unfold isBoxedNumber Payload.num?
  cases o.payload <;> simp

theorem Object.mapException_of_num? {o : Object} {n : Num} (number : o.payload.num? = some n)
    (f : ExceptionData → ExceptionData) : o.mapException f = o := by
  unfold mapException
  split
  next data payload =>
    rw [payload] at number
    cases number
  next => rfl

namespace Machine

variable {free : Bool} {m m' : Machine} {v : Value} {id : ObjectId} {o : Object} {n : Num}

theorem num?_object (m : Machine) (id : ObjectId) :
    m.num? (.object id) = (m.heap.get? id).bind fun o => o.payload.num? := by
  have held : m.payload? (.object id) = (m.heap.get? id).map (·.payload) := rfl
  unfold num? int? float?
  dsimp only
  rw [held]
  cases m.heap.get? id with
  | none => rfl
  | some o =>
    rw [Option.map_some, Option.bind_some]
    cases o.payload <;> rfl

theorem num?_eq_some_iff : m.num? v = some n ↔
    v = n.value ∨ ∃ id o, v = .object id ∧ m.heap.get? id = some o ∧ o.payload = n.payload := by
  cases v with
  | object id =>
    rw [num?_object, Option.bind_eq_some_iff]
    cases n <;> simp [Num.value, Payload.num?_eq_some_iff]
  | int i => cases n <;> simp [num?, int?, Num.value, eq_comm]
  | float x => cases n <;> simp [num?, int?, float?, Num.value, eq_comm]

theorem num?_value (n : Num) : m.num? n.value = some n := num?_eq_some_iff.2 (.inl rfl)

theorem unboxed?_object : m.unboxed? (.object id) = some id ↔
    ∃ o, m.heap.get? id = some o ∧ o.isBoxedNumber = false := by
  rw [unboxed?, Option.filter_eq_some_iff]
  cases m.heap.get? id with
  | none => simp [Value.object?]
  | some o => simp [Value.object?]

theorem unboxed?_of_num? (number : m.num? v = some n) : m.unboxed? v = none := by
  cases v with
  | int i => rfl
  | float x => rfl
  | object id =>
    rw [num?_object] at number
    obtain ⟨o, at_id, payload⟩ := Option.bind_eq_some_iff.1 number
    have is_boxed : o.isBoxedNumber = true := Object.isBoxedNumber_iff.2 ⟨n, payload⟩
    simp [unboxed?, Value.object?, at_id, is_boxed]

/-! ### Boxed numbers stay as they were made -/

/-- Every boxed number is still the object that it was made. -/
def Boxed (m : Machine) : Prop :=
  ∀ id o n, m.heap.get? id = some o → o.payload.num? = some n → o = n.boxed

theorem Makes.boxed {cls : ModuleId} {payload : Payload} (makes : m.Makes free cls payload)
    (number : payload.num? = some n) : Object.ofPayload cls payload = n.boxed := by
  cases makes with
  | int value | float value =>
    obtain rfl := Option.some.inj number
    rfl
  | allocated =>
    unfold allocation at number
    split at number
    next => cases number
    next => split at number <;> cases number
  | _ => cases number

end Machine

open Machine

theorem Deed.boxed {free : Bool} {m m' : Machine} (deed : Deed free m m') (boxed : m.Boxed) :
    m'.Boxed := by
  intro id o n at_id number
  have of_unboxed {other : ObjectId} {before : Object} (at_other : m.heap.get? other = some before)
      (unboxed : m.unboxed? (.object other) = some other) : before.payload.num? ≠ some n := by
    intro was_number
    have is_number : m.num? (.object other) = some n := by
      rw [num?_object, at_other, Option.bind_some, was_number]
    cases (unboxed?_of_num? is_number).symm.trans unboxed
  cases deed with
  | make cls payload makes =>
    obtain rfl | before := Heap.get?_push_cases at_id
    · exact makes.boxed number
    · exact boxed id o n before number
  | symbol | create =>
    obtain rfl | before := Heap.get?_push_cases at_id
    · cases number
    · exact boxed id o n before number
  | setVariable other name value unboxed =>
    obtain ⟨before, rfl, was, rfl⟩ | before := Heap.get?_modify_cases at_id
    · cases of_unboxed was unboxed number
    · exact boxed id o n before number
  | singleton other method code written general unboxed =>
    obtain ⟨before, rfl, was, rfl⟩ | before := Heap.get?_modify_cases at_id
    · cases of_unboxed was unboxed number
    · exact boxed id o n before number
  | backtrace | message =>
    obtain ⟨before, rfl, was, rfl⟩ | before := Heap.get?_modify_cases at_id
    · have was_number : before.payload.num? = some n :=
        (Payload.Becomes.num? (before.mapException_alike _).payload).symm.trans number
      rw [Object.mapException_of_num? was_number]
      exact boxed id before n was was_number
    · exact boxed id o n before number
  | define | retag | defineClassMethod | remove | includeModule | call | observe =>
    exact boxed id o n at_id number

namespace Machine

variable {m m' : Machine} {v : Value} {id : ObjectId} {n : Num}

theorem boxed_boot (settings : Settings) : (boot settings).Boxed := by
  intro id o n at_id number
  have no_numbers : startObjects.all (fun o => !o.isBoxedNumber) = true := by decide
  have no_number := List.all_eq_true.1 no_numbers o (mem_startObjects at_id)
  rw [Object.isBoxedNumber_iff.2 ⟨n, number⟩] at no_number
  cases no_number

theorem Worked.boxed (worked : m.Worked) : m.Boxed :=
  worked.induction Boxed boxed_boot fun _ _ boxed deed => deed.boxed boxed

/-! ### What is said of a number -/

theorem Boxed.classOf (boxed : m.Boxed) (number : m.num? v = some n) : m.classOf v = n.cls.id := by
  obtain rfl | ⟨id, o, rfl, at_id, payload⟩ := num?_eq_some_iff.1 number
  · cases n <;> rfl
  · obtain rfl := boxed id o n at_id (Payload.num?_eq_some_iff.2 payload)
    rw [Machine.classOf, at_id]
    rfl

theorem inspect_of_num? (number : m.num? v = some n) : m.inspect v = n.text := by
  obtain rfl | ⟨id, o, rfl, at_id, payload⟩ := num?_eq_some_iff.1 number
  · cases n <;> rfl
  · rw [inspect, at_id]
    dsimp only
    rw [payload]
    cases n <;> rfl

/-! ### Reading and writing -/

/-- The variable of the value, nil if it was not set or cannot be. -/
def ivar (m : Machine) (v : Value) (name : String) : Value :=
  (((m.unboxed? v).bind m.heap.get?).bind fun o => o.ivars.get? name).getD .nil

theorem ivarGet_of_valid {name : String} (valid : isIvarName name = true) (env : FrameId)
    (v : Value) : ivarGet env v name m = (.ok (m.ivar v name), m) := by
  rw [ivarGet, checkIvarName, if_pos valid]
  rfl

theorem ivarGet_of_invalid {name : String} (invalid : isIvarName name = false) (env : FrameId)
    (v : Value) : ivarGet env v name m = fail env (.invalidIvarName name) m := by
  rw [ivarGet, checkIvarName, if_neg (by simp [invalid])]
  rfl

theorem ivarSet_of_invalid {name : String} (invalid : isIvarName name = false) (env : FrameId)
    (v value : Value) : ivarSet env v name value m = fail env (.invalidIvarName name) m := by
  rw [ivarSet, checkIvarName, if_neg (by simp [invalid])]
  rfl

/-- What variables and methods of its own are to a number: there is nothing to read, and nothing
may be set or defined. -/
structure Freezes (m : Machine) (n : Num) (v : Value) : Prop where
  get : ∀ env name, isIvarName name = true → ivarGet env v name m = (.ok .nil, m)
  set : ∀ env name value, isIvarName name = true →
    ivarSet env v name value m = fail env (.frozen n.className n.text) m
  define : ∀ env name arity body,
    defineSingleton env v name arity body m = fail env .noSingleton m
  invalid : ∀ env name, isIvarName name = false →
    ivarGet env v name m = fail env (.invalidIvarName name) m ∧
    ∀ value, ivarSet env v name value m = fail env (.invalidIvarName name) m

structure TreatsAlike (m : Machine) (v w : Value) : Prop where
  get : ∀ env name, ivarGet env v name m = ivarGet env w name m
  set : ∀ env name value, ivarSet env v name value m = ivarSet env w name value m
  define : ∀ env name arity body,
    defineSingleton env v name arity body m = defineSingleton env w name arity body m

theorem Freezes.alike {w : Value} (left : m.Freezes n v) (right : m.Freezes n w) :
    m.TreatsAlike v w := by
  refine ⟨?_, ?_, ?_⟩
  · intro env name
    cases valid : isIvarName name with
    | true => rw [left.get env name valid, right.get env name valid]
    | false => rw [(left.invalid env name valid).1, (right.invalid env name valid).1]
  · intro env name value
    cases valid : isIvarName name with
    | true => rw [left.set env name value valid, right.set env name value valid]
    | false => rw [(left.invalid env name valid).2, (right.invalid env name valid).2]
  · intro env name arity body
    rw [left.define, right.define]

theorem Worked.freezes (worked : m.Worked) (number : m.num? v = some n) : m.Freezes n v := by
  have bare : m.unboxed? v = none := unboxed?_of_num? number
  have shown : m.className (m.classOf v) = n.className := by
    rw [worked.boxed.classOf number, worked.reachable.className_core, n.className_eq]
  refine ⟨?_, ?_, ?_, ?_⟩
  · intro env name valid
    rw [ivarGet_of_valid valid, ivar, bare]
    rfl
  · intro env name value valid
    rw [ivarSet, checkIvarName, if_pos valid, run_bind, run_pure]
    dsimp only
    rw [run_bind, run_read, bare]
    dsimp only
    rw [run_bind, run_read, shown, inspect_of_num? number]
  · intro env name arity body
    rw [defineSingleton, run_bind, run_read, bare]
  · intro env name invalid
    exact ⟨ivarGet_of_invalid invalid env v, ivarSet_of_invalid invalid env v⟩

/-! ### Copies -/

theorem hydrate_value (n : Num) (m : Machine) :
    hydrate n.value m = (.ok m.heap.next, { m with heap := m.heap.push n.boxed }) := by
  cases n <;> rfl

theorem num?_boxed (n : Num) (deeds : Deeds true { m with heap := m.heap.push n.boxed } m') :
    m'.num? (.object m.heap.next) = some n := by
  have made : (m.heap.push n.boxed).get? m.heap.next = some n.boxed := Heap.get?_push_next ..
  obtain ⟨o, at_next, -, becomes⟩ := deeds.object_kept made
  rw [num?_object, at_next, Option.bind_some, becomes.num?]
  exact Payload.num?_eq_some_iff.2 rfl

/-! ### Objects that take variables -/

def withIvar (m : Machine) (id : ObjectId) (name : String) (value : Value) : Machine :=
  { m with heap := m.heap.modify id fun o => { o with ivars := o.ivars.insert name value } }

variable {o : Object} {name : String} {value : Value}

theorem ivarSet_of_unboxed (unboxed : m.unboxed? v = some id) (valid : isIvarName name = true)
    (env : FrameId) : ivarSet env v name value m = (.ok value, m.withIvar id name value) := by
  rw [ivarSet, checkIvarName, if_pos valid, run_bind, run_pure]
  dsimp only
  rw [run_bind, run_read, unboxed]
  rfl

theorem get?_withIvar (at_id : m.heap.get? id = some o) (other : ObjectId) :
    (m.withIvar id name value).heap.get? other =
      if other = id then some { o with ivars := o.ivars.insert name value }
      else m.heap.get? other := by
  change (m.heap.modify id _).get? other = _
  rw [Heap.get?_modify]
  by_cases same : other = id
  · subst same
    rw [if_pos rfl, if_pos rfl, at_id]
    rfl
  · rw [if_neg (Ne.symm same), if_neg same]

theorem ivar_of_unboxed (at_id : m.heap.get? id = some o) (no_number : o.isBoxedNumber = false)
    (name : String) : m.ivar (.object id) name = (o.ivars.get? name).getD .nil := by
  rw [ivar, unboxed?_object.2 ⟨o, at_id, no_number⟩, Option.bind_some, at_id, Option.bind_some]

theorem ivar_congr (same : m'.heap.get? id = m.heap.get? id) (name : String) :
    m'.ivar (.object id) name = m.ivar (.object id) name := by
  have unboxed : m'.unboxed? (.object id) = m.unboxed? (.object id) := by
    rw [unboxed?, unboxed?, Value.object?, Option.filter_some, Option.filter_some, same]
  rw [ivar, ivar, unboxed]
  cases reference : m.unboxed? (.object id) with
  | none => rfl
  | some other =>
    obtain ⟨is, -⟩ := Option.filter_eq_some_iff.1 reference
    obtain rfl := Option.some.inj is
    rw [Option.bind_some, Option.bind_some, same]

theorem ivar_withIvar (at_id : m.heap.get? id = some o) (no_number : o.isBoxedNumber = false)
    (v : Value) (other : String) :
    (m.withIvar id name value).ivar v other =
      if v = .object id ∧ other = name then value else m.ivar v other := by
  cases v with
  | int i => rfl
  | float x => rfl
  | object j =>
    have at_j : (m.withIvar id name value).heap.get? j = _ := get?_withIvar at_id j
    by_cases same : j = id
    · subst same
      rw [if_pos rfl] at at_j
      rw [ivar_of_unboxed at_j no_number, ivar_of_unboxed at_id no_number, Bindings.get?_insert]
      by_cases named : other = name
      · rw [if_pos named.symm, if_pos ⟨rfl, named⟩]
        rfl
      · rw [if_neg (Ne.symm named), if_neg fun both => named both.2]
    · rw [if_neg same] at at_j
      rw [ivar_congr at_j, if_neg]
      rintro ⟨is, -⟩
      exact same (Value.object.inj is)

/-- The object has taken the value under the name, and nothing else has changed. -/
structure Wrote (m : Machine) (id : ObjectId) (name : String) (value : Value) (m' : Machine) :
    Prop where
  written : ∀ env, ivarGet env (.object id) name m' = (.ok value, m')
  others : ∀ env v other, isIvarName other = true → (v, other) ≠ (.object id, name) →
    ∃ was, ivarGet env v other m = (.ok was, m) ∧ ivarGet env v other m' = (.ok was, m')
  objects : ∀ other o, m.heap.get? other = some o → ∃ ivars,
    m'.heap.get? other = some { o with ivars } ∧
      ∀ x, (other, x) ≠ (id, name) → ivars.get? x = o.ivars.get? x
  rest : m'.heap.size = m.heap.size ∧
    m' = { m with heap := { m.heap with objects := m'.heap.objects } }

theorem wrote_withIvar (at_id : m.heap.get? id = some o) (no_number : o.isBoxedNumber = false)
    (valid : isIvarName name = true) (value : Value) :
    m.Wrote id name value (m.withIvar id name value) := by
  refine ⟨?_, ?_, ?_, ?_, rfl⟩
  · intro env
    rw [ivarGet_of_valid valid, ivar_withIvar at_id no_number, if_pos ⟨rfl, rfl⟩]
  · intro env v other other_valid differs
    refine ⟨m.ivar v other, ivarGet_of_valid other_valid env v, ?_⟩
    rw [ivarGet_of_valid other_valid, ivar_withIvar at_id no_number, if_neg]
    rintro ⟨rfl, rfl⟩
    exact differs rfl
  · intro other before at_other
    rw [get?_withIvar at_id]
    by_cases same : other = id
    · subst same
      obtain rfl := Option.some.inj (at_id.symm.trans at_other)
      refine ⟨_, if_pos rfl, ?_⟩
      intro x differs
      refine Bindings.get?_insert_of_ne _ _ ?_
      rintro rfl
      exact differs rfl
    · exact ⟨before.ivars, (if_neg same).trans at_other, fun _ _ => rfl⟩
  · exact Heap.size_modify _ _ _

end Machine

/-- Whatever has run, a number that was made an object has no variables and no methods of its own.
A number, immediate or an object, has nothing to read, cannot be set and takes no method; the
refusals speak of it alike, and an object that a number is made is treated as the number for ever.
Every other object takes a variable under a name that is allowed: it reads as the value, and all
others as before. -/
theorem numbers_stay_frozen {m : Machine} (worked : m.Worked) :
    (∀ id o, m.heap.get? id = some o → o.isBoxedNumber = true →
      o.ivars = .empty ∧ o.singletonMethods = .empty) ∧
    (∀ v n, m.num? v = some n → m.Freezes n v) ∧
    (∀ v w n, m.num? v = some n → m.num? w = some n → m.TreatsAlike v w) ∧
    (∀ v, v.isImmediate = true → ∃ id m', hydrate v m = (.ok id, m') ∧
      ∀ m'', Deeds true m' m'' → m''.TreatsAlike v (.object id)) ∧
    ∀ id o name, m.heap.get? id = some o → o.isBoxedNumber = false → isIvarName name = true →
      ∀ env value, ∃ m', ivarSet env (.object id) name value m = (.ok value, m') ∧
        m.Wrote id name value m' := by
  refine ⟨?_, fun v n => worked.freezes, ?_, ?_, ?_⟩
  · intro id o at_id is_boxed
    obtain ⟨n, number⟩ := Object.isBoxedNumber_iff.1 is_boxed
    obtain rfl := worked.boxed id o n at_id number
    exact ⟨rfl, rfl⟩
  · intro v w n left right
    exact (worked.freezes left).alike (worked.freezes right)
  · intro v immediate
    obtain ⟨n, rfl⟩ := Num.exists_of_isImmediate immediate
    refine ⟨m.heap.next, _, hydrate_value n m, ?_⟩
    intro m'' deeds
    have later : m''.Worked := by
      have made := worked.performs (performs_hydrate n.value)
      rw [hydrate_value] at made
      exact made.deeds deeds
    exact (later.freezes (num?_value n)).alike (later.freezes (num?_boxed n deeds))
  · intro id o name at_id no_number valid env value
    have unboxed := unboxed?_object.2 ⟨o, at_id, no_number⟩
    exact ⟨_, ivarSet_of_unboxed unboxed valid env, wrote_withIvar at_id no_number valid value⟩

def boxedFive : Machine := (hydrate (.int 5) (boot .standard)).2

/-- The five and its object refuse alike, and the main object takes what they refuse. -/
theorem numbers_stay_frozen_five :
    boxedFive.Worked ∧ boxedFive.heap.get? ⟨40⟩ = some (Num.boxed (.int 5)) ∧
    (∀ env value, ivarSet env (.int 5) "@x" value boxedFive =
        fail env (.frozen "Integer" "5") boxedFive ∧
      ivarSet env (.object ⟨40⟩) "@x" value boxedFive =
        fail env (.frozen "Integer" "5") boxedFive) ∧
    (Fault.frozen "Integer" "5").message = "can't modify frozen Integer: 5" ∧
    ∃ m', ivarSet .main (.object .main) "@x" (.int 1) boxedFive = (.ok (.int 1), m') ∧
      boxedFive.Wrote .main "@x" (.int 1) m' := by
  have worked : boxedFive.Worked := Worked.performs ⟨.standard, .refl⟩ (performs_hydrate (.int 5))
  obtain ⟨-, freezes, -, -, writes⟩ := numbers_stay_frozen worked
  refine ⟨worked, rfl, ?_, by decide, writes .main _ "@x" rfl rfl (by decide) .main (.int 1)⟩
  intro env value
  exact ⟨(freezes (.int 5) (.int 5) rfl).set env "@x" value (by decide),
    (freezes (.object ⟨40⟩) (.int 5) rfl).set env "@x" value (by decide)⟩

end ObjectRuntime
