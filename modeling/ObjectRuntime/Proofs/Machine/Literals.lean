import ObjectRuntime.Proofs.Machine.Formed
import ObjectRuntime.Proofs.Machine.Kinds

/-!
# Objects that there is only one of

There is one object for nil, one for each truth value, and at most one for each name, which the
table of symbols holds. Tests of payloads and tests of identity therefore agree: on what is nil, on
what is true, and on which catch takes a throw whose tag is a symbol.
-/

set_option autoImplicit false

namespace ObjectRuntime

open Run

/-- What there is only one object of. -/
inductive Sole where
  | nil
  | bool (value : Bool)
  | symbol (name : String)
deriving DecidableEq

def Sole.payload : Sole → Payload
  | nil => .nil
  | bool b => if b then .true else .false
  | symbol name => .symbol name

def Sole.literal : Sole → Literal
  | nil => .nil
  | bool b => .bool b
  | symbol name => .symbol name

def Payload.sole? : Payload → Option Sole
  | .nil => some .nil
  | .true => some (.bool Bool.true)
  | .false => some (.bool Bool.false)
  | .symbol name => some (.symbol name)
  | _ => none

theorem Payload.sole?_eq_some_iff {p : Payload} {s : Sole} : p.sole? = some s ↔ p = s.payload := by
  constructor
  · intro is
    cases p <;> simp only [sole?, Option.some.injEq, reduceCtorEq] at is <;> subst is <;> rfl
  · rintro rfl
    cases s with
    | bool b => cases b <;> rfl
    | _ => rfl

theorem Payload.Becomes.sole? {p p' : Payload} (becomes : p.Becomes p') : p'.sole? = p.sole? := by
  obtain rfl | ⟨data, data', rfl, rfl⟩ := becomes
  · rfl
  · rfl

namespace Machine

variable {free : Bool} {m m' : Machine} {id : ObjectId} {s : Sole}

def soleAt? (m : Machine) (id : ObjectId) : Option Sole :=
  (m.heap.get? id).bind fun o => o.payload.sole?

def soleObject? (m : Machine) : Sole → Option ObjectId
  | .nil => some .nil
  | .bool b => some (if b then .true else .false)
  | .symbol name => m.symbols.get? name

/-- The objects that there is only one of are those that the machine knows as such. -/
def Unique (m : Machine) : Prop := ∀ id s, m.soleAt? id = some s ↔ m.soleObject? s = some id

theorem Unique.of_same (unique : m.Unique) (objects : ∀ id, m'.soleAt? id = m.soleAt? id)
    (symbols : m'.symbols = m.symbols) : m'.Unique := by
  intro id s
  have same : m'.soleObject? s = m.soleObject? s := by
    cases s with
    | nil => rfl
    | bool b => rfl
    | symbol name => exact congrArg (Bindings.get? · name) symbols
  rw [objects, same]
  exact unique id s

/-! ### New objects and edits -/

theorem soleAt?_next : m.soleAt? m.heap.next = none := by
  rw [soleAt?, Heap.get?_next, Option.bind_none]

theorem soleAt?_push (o : Object) (id : ObjectId) :
    { m with heap := m.heap.push o }.soleAt? id =
      if id = m.heap.next then o.payload.sole? else m.soleAt? id := by
  rw [soleAt?, Heap.get?_push]
  split
  next => rfl
  next => rfl

theorem soleAt?_push_other {o : Object} (other : o.payload.sole? = none) (id : ObjectId) :
    { m with heap := m.heap.push o }.soleAt? id = m.soleAt? id := by
  rw [soleAt?_push]
  split
  next same => rw [same, soleAt?_next, other]
  next => rfl

theorem soleAt?_modify (id other : ObjectId) {f : Object → Object}
    (same : ∀ o, (f o).payload.sole? = o.payload.sole?) :
    { m with heap := m.heap.modify id f }.soleAt? other = m.soleAt? other :=
  m.heap.bind_get?_modify id other (fun o => o.payload.sole?) same

theorem Makes.not_sole {cls : ModuleId} {payload : Payload} (makes : m.Makes free cls payload) :
    payload.sole? = none := by
  cases makes with
  | allocated =>
    unfold allocation
    split
    next => rfl
    next => split <;> rfl
  | _ => rfl

theorem Unique.symbol (unique : m.Unique) {name : String} (unknown : m.symbols.get? name = none) :
    { m with
      heap := m.heap.push (.ofPayload Core.symbol.id (.symbol name))
      symbols := m.symbols.insert name m.heap.next }.Unique := by
  intro id s
  have objects :
      { m with heap := m.heap.push (.ofPayload Core.symbol.id (.symbol name)) }.soleAt? id =
        if id = m.heap.next then some (.symbol name) else m.soleAt? id := soleAt?_push ..
  have old : m.soleObject? s = some id → id ≠ m.heap.next := by
    rintro known rfl
    cases soleAt?_next.symm.trans ((unique _ s).2 known)
  change { m with heap := m.heap.push _ }.soleAt? id = some s ↔ _
  rw [objects]
  by_cases this : s = .symbol name
  · subst this
    change _ ↔ (m.symbols.insert name m.heap.next).get? name = some id
    rw [Bindings.get?_insert_self]
    split
    next same => simp [same]
    next differs =>
      refine iff_of_false ?_ fun is => differs (Option.some.inj is).symm
      intro there
      cases unknown.symm.trans ((unique id (.symbol name)).1 there)
  · have kept : { m with symbols := m.symbols.insert name m.heap.next }.soleObject? s =
        m.soleObject? s := by
      cases s with
      | nil => rfl
      | bool b => rfl
      | symbol wanted =>
        exact Bindings.get?_insert_of_ne _ _ fun same => this (congrArg Sole.symbol same.symm)
    change _ ↔ { m with symbols := m.symbols.insert name m.heap.next }.soleObject? s = some id
    rw [kept]
    split
    next same =>
      refine iff_of_false (fun is => this (Option.some.inj is).symm) fun known => old known same
    next => exact unique id s

end Machine

open Machine

theorem Deed.unique {free : Bool} {m m' : Machine} (deed : Deed free m m') (unique : m.Unique) :
    m'.Unique := by
  cases deed with
  | make cls payload makes =>
    exact unique.of_same (soleAt?_push_other (o := .ofPayload cls payload) makes.not_sole) rfl
  | symbol name unknown => exact unique.symbol unknown
  | create name kind superclass outer =>
    exact unique.of_same (soleAt?_push_other
      (o := .ofPayload kind.metaclass.id (.module m.hierarchy.next)) rfl) rfl
  | setVariable id | singleton id =>
    exact unique.of_same (soleAt?_modify id · fun _ => rfl) rfl
  | backtrace env id | message id =>
    exact unique.of_same (soleAt?_modify id · fun o =>
      Payload.Becomes.sole? (o.mapException_alike _).payload) rfl
  | define | retag | defineClassMethod | remove | includeModule | call | observe => exact unique

namespace Machine

variable {m m' : Machine} {v : Value} {s : Sole}

theorem soleAt?_boot (settings : Settings) (i : Nat) : (boot settings).soleAt? ⟨i⟩ =
    if i = 37 then some .nil else if i = 38 then some (.bool true)
    else if i = 39 then some (.bool false) else none := by
  have listed : (boot settings).soleAt? ⟨i⟩ = (startObjects.map (·.payload.sole?))[i]?.join := by
    rw [List.getElem?_map, ← Option.bind_id_eq_join, Option.bind_map]
    exact congrArg (Option.bind · fun o : Object => o.payload.sole?) List.getElem?_toArray
  rw [listed]
  by_cases present : i < 40
  · clear listed
    revert i
    decide
  · have length : (startObjects.map (·.payload.sole?)).length = 40 := rfl
    rw [List.getElem?_eq_none (by omega), if_neg (by omega), if_neg (by omega), if_neg (by omega)]
    rfl

theorem unique_boot (settings : Settings) : (boot settings).Unique := by
  rintro ⟨i⟩ s
  rw [soleAt?_boot]
  cases s with
  | nil => simp [soleObject?, ObjectId.nil]; grind
  | bool b => cases b <;> simp [soleObject?, ObjectId.true, ObjectId.false] <;> grind
  | symbol name => simp [soleObject?, boot]; grind

theorem Worked.unique (worked : m.Worked) : m.Unique :=
  worked.induction Unique unique_boot fun _ _ unique deed => deed.unique unique

/-! ### Values -/

def sole? (m : Machine) (v : Value) : Option Sole := (m.payload? v).bind Payload.sole?

theorem sole?_object (m : Machine) (id : ObjectId) : m.sole? (.object id) = m.soleAt? id :=
  Option.bind_map ..

theorem payload?_eq_some_iff : m.payload? v = some s.payload ↔ m.sole? v = some s := by
  rw [sole?, Option.bind_eq_some_iff]
  simp only [Payload.sole?_eq_some_iff, exists_eq_right]

theorem symbol?_eq_some_iff {name : String} :
    m.symbol? v = some name ↔ m.sole? v = some (.symbol name) := by
  rw [symbol?, sole?]
  cases m.payload? v with
  | none => exact iff_of_false nofun nofun
  | some payload => cases payload <;> simp [Payload.sole?]

theorem Unique.sole?_eq_iff (unique : m.Unique) :
    m.sole? v = some s ↔ ∃ id, v = .object id ∧ m.soleObject? s = some id := by
  cases v with
  | object id =>
    rw [sole?_object, unique id s]
    simp
  | int i => exact iff_of_false nofun nofun
  | float x => exact iff_of_false nofun nofun

theorem Unique.same_iff (unique : m.Unique) {a b : Value} {s' : Sole} (at_a : m.sole? a = some s)
    (at_b : m.sole? b = some s') : a.same b = true ↔ s = s' := by
  rw [Value.same, beq_iff_eq]
  constructor
  · rintro rfl
    exact Option.some.inj (at_a.symm.trans at_b)
  · rintro rfl
    obtain ⟨id, rfl, known⟩ := unique.sole?_eq_iff.1 at_a
    obtain ⟨id', rfl, known'⟩ := unique.sole?_eq_iff.1 at_b
    rw [Option.some.inj (known.symm.trans known')]

theorem isNil_iff : m.isNil v = true ↔ m.sole? v = some .nil := by
  rw [isNil, sole?]
  cases m.payload? v with
  | none => exact iff_of_false nofun nofun
  | some payload => cases payload <;> simp [Payload.sole?]

theorem truthy_eq_false_iff :
    m.truthy v = false ↔ m.sole? v = some .nil ∨ m.sole? v = some (.bool false) := by
  rw [truthy, sole?]
  cases m.payload? v with
  | none => simp
  | some payload => cases payload <;> simp [Payload.sole?]

theorem Unique.sole?_eq_iff_same (unique : m.Unique) {id : ObjectId}
    (known : m.soleObject? s = some id) : m.sole? v = some s ↔ v.same (.object id) = true := by
  rw [unique.sole?_eq_iff, known, Value.same, beq_iff_eq]
  simp only [Option.some.injEq, exists_eq_right']

theorem Unique.isNil_iff_same (unique : m.Unique) (v : Value) :
    m.isNil v = true ↔ v.same .nil = true :=
  isNil_iff.trans (unique.sole?_eq_iff_same rfl)

theorem Unique.truthy_eq_false_iff_same (unique : m.Unique) (v : Value) :
    m.truthy v = false ↔ v.same .nil = true ∨ v.same (.bool false) = true :=
  truthy_eq_false_iff.trans
    (or_congr (unique.sole?_eq_iff_same rfl) (unique.sole?_eq_iff_same rfl))

/-! ### Catches -/

theorem Unique.isCatchOf_iff (unique : m.Unique) {tag : Value} {name : String}
    (named : m.symbol? tag = some name) (thrown : Value) :
    isCatchOf thrown (.catching tag) = true ↔ m.symbol? thrown = some name := by
  change tag.same thrown = true ↔ _
  constructor
  · intro same
    rw [Value.same, beq_iff_eq] at same
    exact same ▸ named
  · intro named'
    exact (unique.same_iff (symbol?_eq_some_iff.1 named) (symbol?_eq_some_iff.1 named')).2 rfl

def isCatchNamed (m : Machine) (name : String) : TargetKind → Bool
  | .catching tag => m.symbol? tag == some name
  | .rescue => false

theorem Unique.isCatchOf_eq (unique : m.Unique) {thrown : Value} {name : String}
    (named : m.symbol? thrown = some name) : isCatchOf thrown = m.isCatchNamed name := by
  funext kind
  cases kind with
  | rescue => rfl
  | catching tag =>
    rw [Bool.eq_iff_iff, isCatchNamed, beq_iff_eq]
    constructor
    · intro same
      change tag.same thrown = true at same
      rw [Value.same, beq_iff_eq] at same
      exact same ▸ named
    · exact fun named' => (unique.isCatchOf_iff named' thrown).2 named

/-! ### For ever -/

theorem sole?_kept (deeds : Deeds true m m') (is : m.sole? v = some s) :
    m'.sole? v = some s := by
  cases v with
  | object id =>
    rw [sole?_object] at is ⊢
    obtain ⟨o, at_id, is⟩ := Option.bind_eq_some_iff.1 is
    obtain ⟨o', at_id', -, becomes⟩ := deeds.object_kept at_id
    rw [soleAt?, at_id']
    exact becomes.sole?.trans is
  | int _ => cases is
  | float _ => cases is

theorem Unique.ofLiteral_eq (unique : m.Unique) (is : m.sole? v = some s) :
    ofLiteral s.literal m = (.ok v, m) := by
  obtain ⟨id, rfl, known⟩ := unique.sole?_eq_iff.1 is
  cases s with
  | nil =>
    obtain rfl := Option.some.inj known
    rfl
  | bool b =>
    obtain rfl := Option.some.inj known
    rfl
  | symbol name =>
    change Run.symbol name m = _
    unfold Run.symbol
    rw [run_bind, run_read]
    change m.symbols.get? name = some id at known
    rw [known]
    rfl

end Machine

/-- Whatever has run, there is exactly one object of nil, one of each truth value, and for each name
the one that the table of symbols holds, if it holds one. Such values are the same exactly if they
are the same literal or name; payload and identity say alike what is nil and what is false; and a
catch of a symbol takes exactly the throws of symbols of its name. All this stays, and the literal
or the name denotes the same object from then on. -/
theorem literals_unique {m : Machine} (worked : m.Worked) :
    (∀ id, m.payload? (.object id) = some .nil ↔ id = .nil) ∧
    (∀ id, m.payload? (.object id) = some .true ↔ id = .true) ∧
    (∀ id, m.payload? (.object id) = some .false ↔ id = .false) ∧
    (∀ name id, m.payload? (.object id) = some (.symbol name) ↔ m.symbols.get? name = some id) ∧
    (∀ a b s s', m.sole? a = some s → m.sole? b = some s' → (a.same b = true ↔ s = s')) ∧
    (∀ v, (m.isNil v = true ↔ v.same .nil = true) ∧
      (m.truthy v = false ↔ v.same .nil = true ∨ v.same (.bool false) = true)) ∧
    (∀ tag name, m.symbol? tag = some name →
      (∀ thrown, isCatchOf thrown (.catching tag) = true ↔ m.symbol? thrown = some name) ∧
      ∀ env, m.frames.findTarget env (isCatchOf tag) =
        m.frames.findTarget env (m.isCatchNamed name)) ∧
    ∀ m', Deeds true m m' → ∀ v s, m.sole? v = some s →
      m'.sole? v = some s ∧ ofLiteral s.literal m' = (.ok v, m') := by
  have unique := worked.unique
  have one_object (s : Sole) (id : ObjectId) :
      m.payload? (.object id) = some s.payload ↔ m.soleObject? s = some id := by
    rw [payload?_eq_some_iff, sole?_object]
    exact unique id s
  have at_id {only id : ObjectId} : some only = some id ↔ id = only := by
    rw [Option.some.injEq, eq_comm]
  refine ⟨fun id => (one_object .nil id).trans at_id,
    fun id => (one_object (.bool true) id).trans at_id,
    fun id => (one_object (.bool false) id).trans at_id, fun name => one_object (.symbol name),
    fun a b s s' => unique.same_iff,
    fun v => ⟨unique.isNil_iff_same v, unique.truthy_eq_false_iff_same v⟩, ?_, ?_⟩
  · intro tag name named
    refine ⟨unique.isCatchOf_iff named, fun env => ?_⟩
    rw [unique.isCatchOf_eq named]
  · intro m' deeds v s is
    have kept := sole?_kept deeds is
    exact ⟨kept, (worked.deeds deeds).unique.ofLiteral_eq kept⟩

def tagged : Machine := ((boot .standard).runProgram (.literal (.symbol "done"))).2

theorem literals_unique_tagged :
    tagged.Worked ∧ tagged.symbol? (.object ⟨40⟩) = some "done" ∧
    ∀ thrown, isCatchOf thrown (.catching (.object ⟨40⟩)) = true ↔
      tagged.symbol? thrown = some "done" := by
  have worked : tagged.Worked := Worked.runProgram ⟨_, .refl⟩ _
  have named : tagged.symbol? (.object ⟨40⟩) = some "done" := by decide +kernel
  obtain ⟨-, -, -, -, -, -, catches, -⟩ := literals_unique worked
  exact ⟨worked, named, (catches _ _ named).1⟩

end ObjectRuntime
