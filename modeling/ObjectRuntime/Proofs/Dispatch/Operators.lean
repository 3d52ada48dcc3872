import ObjectRuntime.Dispatch
import ObjectRuntime.Proofs.Hierarchy.Growth
import ObjectRuntime.Proofs.Machine.Origins

/-!
# Methods that carry an operator

Dispatch applies an operator directly if the method found for it carries that operator. Every edit
of a table keeps it true that such a method is the built-in one: it is stored under the selector of
its operator, takes one argument and runs the operator itself. Such methods are found in the tables
of classes at or below `Integer` and `Float` only, so once the entry of `Integer` or `Float` is
another one, or gone, the operator is never applied directly again.
-/

set_option autoImplicit false

namespace ObjectRuntime

def Method.Runs (method : Method) (op : Operator) : Prop :=
  method.name = op.selector ∧ method.arity = .exactly 1 ∧
    method.body = .native (.builtin (.operator op))

namespace Hierarchy

/-- A method in the table of a class or module may carry an operator only if it runs it, and only at
or below the numeric classes. -/
def Admits (h : Hierarchy) (id : ModuleId) (method : Method) : Prop :=
  ∀ op, method.operator = some op →
    method.Runs op ∧ h.isClass id = true ∧ Core.integer.id.index ≤ id.index

structure Tagged (h : Hierarchy) : Prop where
  shaped : h.Shaped
  named : ∀ id name method, h.ownMethod? id name = some method → method.name = name
  admitted : ∀ id name method, h.ownMethod? id name = some method → h.Admits id method
  general : ∀ id name method, h.ownClassMethod? id name = some method → method.operator = none
  float_parent : h.superclass? Core.float.id = some Core.numeric.id
  core : 36 ≤ h.size

variable {h : Hierarchy}

theorem admits_of_general {id : ModuleId} {method : Method} (general : method.operator = none) :
    h.Admits id method := by
  intro op carries
  rw [general] at carries
  cases carries

theorem Tagged.admits_found (tagged : h.Tagged) {cls : ModuleId} {name : String} {method : Method}
    (found : h.findMethod cls name = some method) : h.Admits cls method := by
  intro op carries
  rw [findMethod_eq] at found
  obtain ⟨id, mem, own⟩ := List.exists_of_findSome?_eq_some found
  obtain ⟨runs, is_class, lower⟩ := tagged.admitted id name method own op carries
  refine ⟨runs, ?_⟩
  obtain rfl | ⟨above, has_superclass⟩ :=
    Hierarchy.mem_superclasses (tagged.shaped.mem_superclasses mem is_class)
  · exact ⟨is_class, lower⟩
  · exact ⟨tagged.shaped.roots cls has_superclass, by omega⟩

theorem index_lt_of_ownMethod? {id : ModuleId} {name : String} {method : Method}
    (own : h.ownMethod? id name = some method) : id.index < h.size := by
  obtain ⟨m, entry, -⟩ := Option.bind_eq_some_iff.1 own
  exact index_lt_of_get? entry

theorem Admits.grows {after : Hierarchy} {id : ModuleId} {method : Method}
    (admits : h.Admits id method) (grows : h.Grows after) (present : id.index < h.size) :
    after.Admits id method := by
  intro op carries
  obtain ⟨runs, is_class, lower⟩ := admits op carries
  exact ⟨runs, (grows.isClass id present).trans is_class, lower⟩

end Hierarchy

section Changes

variable {P : Expr → Prop} {m m' : Machine}

theorem Machine.Enters.admits {id : ModuleId} {method : Method} (enters : m.Enters P id method)
    (tagged : m.hierarchy.Tagged) : m.hierarchy.Admits id method := by
  cases enters with
  | new made code general => exact Hierarchy.admits_of_general general
  | copy owner name visibility source found =>
    intro op carries
    exact tagged.admits_found found op carries

theorem Change.tagged (change : Change P m m') (tagged : m.hierarchy.Tagged) :
    m'.hierarchy.Tagged := by
  have grows := change.grows
  refine ⟨change.shaped tagged.shaped, ?_, ?_, ?_, ?_, Nat.le_trans tagged.core grows.size⟩
  · intro id name method own
    obtain before | ⟨-, named, -⟩ := change.ownMethod?_cases own
    · exact tagged.named id name method before
    · exact named
  · intro id name method own
    obtain before | ⟨enters, -, rfl⟩ := change.ownMethod?_cases own
    · exact (tagged.admitted id name method before).grows grows
        (Hierarchy.index_lt_of_ownMethod? before)
    · have present := Hierarchy.index_lt_of_ownMethod? own
      rw [Hierarchy.size_defineMethod] at present
      exact (enters.admits tagged).grows grows present
  · intro id name method own
    obtain before | ⟨made, -, general, -, -, rfl, -⟩ := change.ownClassMethod?_cases own
    · exact tagged.general id name method before
    · exact general
  · have present : Core.float.id.index < m.hierarchy.size :=
      Nat.lt_of_lt_of_le (by decide) tagged.core
    exact (grows.superclass? _ present).trans tagged.float_parent

end Changes

namespace Machine

theorem startHierarchy_tagged : startHierarchy.Tagged := by
  have installed : ∀ i ∈ Installation.all, ∀ op, i.operator = some op →
      i.name = op.selector ∧ i.arity = .exactly 1 ∧ i.builtin = .operator op ∧
        (i.owner = .integer ∨ i.owner = .float) := by
    decide +kernel
  have size : startHierarchy.size = 36 := Installation.size_install ..
  refine ⟨startHierarchy_shaped, ?_, ?_, ?_, ?_, Nat.le_of_eq size.symm⟩
  · intro id name method own
    obtain ⟨i, -, number, -, -, rfl, rfl⟩ := ownMethod?_startHierarchy own
    rfl
  · intro id name method own op carries
    obtain ⟨i, mem, number, -, rfl, rfl, rfl⟩ := ownMethod?_startHierarchy own
    obtain ⟨named, arity, builtin, owner⟩ := installed i mem op carries
    refine ⟨⟨named, arity, congrArg (fun b => Body.native (.builtin b)) builtin⟩, ?_⟩
    rw [startHierarchy_eq, Installation.isClass_install]
    obtain at_integer | at_float := owner
    · rw [at_integer]
      exact ⟨by decide, by decide⟩
    · rw [at_float]
      exact ⟨by decide, by decide⟩
  · intro id name method own
    rw [ownClassMethod?_startHierarchy] at own
    cases own
  · rw [startHierarchy_eq, Installation.superclass?_install]
    decide

theorem Reachable.tagged {m : Machine} (reachable : m.Reachable) : m.hierarchy.Tagged :=
  reachable.hierarchy_induction Hierarchy.Tagged startHierarchy_tagged fun _ _ => Change.tagged

theorem Reachable.singleton_general {m : Machine} (reachable : m.Reachable) {id : ObjectId}
    {name : String} {method : Method} (own : m.singletonMethod? id name = some method) :
    method.operator = none := by
  revert id name method
  refine reachable.induction (fun m => ∀ {id : ObjectId} {name : String} {method : Method},
    m.singletonMethod? id name = some method → method.operator = none) ?_ ?_
  · intro settings id name method own
    obtain ⟨o, at_id, own⟩ := Option.bind_eq_some_iff.1 own
    rw [startObjects_bare at_id] at own
    cases own
  · intro m m' general step id name method own
    cases step with
    | call => exact general own
    | change change =>
      obtain ⟨o', at_id, own⟩ := Option.bind_eq_some_iff.1 own
      obtain bare | ⟨o, before, -, -, entries⟩ := change.object_origin at_id
      · rw [bare] at own
        cases own
      · obtain old | ⟨-, made, -⟩ := entries name method own
        · exact general (Option.bind_eq_some_iff.2 ⟨o, before, old⟩)
        · exact made

end Machine

/-! ### Entries that were given up -/

/-- The table of the class has no entry that carries an operator under this name: it was redefined,
undefined or removed. -/
def Hierarchy.Released (h : Hierarchy) (cls : ModuleId) (name : String) : Prop :=
  ∀ method, h.ownMethod? cls name = some method → method.operator = none

def IsNumeric (cls : ModuleId) : Prop := cls = Core.integer.id ∨ cls = Core.float.id

theorem isNumeric_of_directTable {receiver : Value} {cls : ModuleId} {table : List Operator}
    (at_receiver : Run.directTable receiver = some (cls, table)) : IsNumeric cls := by
  cases receiver with
  | int i =>
    obtain ⟨rfl, -⟩ := Prod.mk.inj (Option.some.inj at_receiver)
    exact .inl rfl
  | float x =>
    obtain ⟨rfl, -⟩ := Prod.mk.inj (Option.some.inj at_receiver)
    exact .inr rfl
  | object id => cases at_receiver

/-- Above a numeric class there is no class whose table may hold an operator. -/
theorem Hierarchy.Tagged.eq_of_mem_superclasses {h : Hierarchy} (tagged : h.Tagged)
    {cls id : ModuleId} (numeric : IsNumeric cls) (mem : id ∈ h.superclasses cls)
    (lower : Core.integer.id.index ≤ id.index) : id = cls := by
  obtain rfl | rfl := numeric
  · obtain same | ⟨below, -⟩ := mem_superclasses mem
    · exact same
    · omega
  · rw [superclasses, chain_eq, lower?, tagged.float_parent] at mem
    change id ∈ Core.float.id :: h.superclasses Core.numeric.id at mem
    obtain same | above := List.mem_cons.1 mem
    · exact same
    · have small : Core.numeric.id.index < Core.integer.id.index := by decide
      obtain rfl | ⟨below, -⟩ := mem_superclasses above
      · omega
      · omega

theorem Hierarchy.Tagged.released_found {h : Hierarchy} (tagged : h.Tagged) {cls : ModuleId}
    {name : String} (numeric : IsNumeric cls) (released : h.Released cls name) {method : Method}
    (found : h.findMethod cls name = some method) : method.operator = none := by
  cases carries : method.operator with
  | none => rfl
  | some op =>
    rw [findMethod_eq] at found
    obtain ⟨id, mem, own⟩ := List.exists_of_findSome?_eq_some found
    obtain ⟨-, is_class, lower⟩ := tagged.admitted id name method own op carries
    have at_cls : id = cls := tagged.eq_of_mem_superclasses numeric
      (tagged.shaped.mem_superclasses mem is_class) lower
    rw [at_cls] at own
    have general := released method own
    rw [carries] at general
    cases general

theorem Change.released {P : Expr → Prop} {m m' : Machine} (change : Change P m m')
    (tagged : m.hierarchy.Tagged) {cls : ModuleId} {name : String} (numeric : IsNumeric cls)
    (released : m.hierarchy.Released cls name) : m'.hierarchy.Released cls name := by
  intro method own
  obtain before | ⟨enters, named, -⟩ := change.ownMethod?_cases own
  · exact released method before
  · cases enters with
    | new made code general => exact general
    | copy owner wanted visibility source found =>
      have same : source.name = wanted := by
        rw [Hierarchy.findMethod_eq] at found
        obtain ⟨id, -, entry⟩ := List.exists_of_findSome?_eq_some found
        exact tagged.named id wanted source entry
      obtain rfl : wanted = name := same.symm.trans named
      have general : source.operator = none := tagged.released_found numeric released found
      exact general

theorem Steps.released {m m' : Machine} (steps : Steps m m') (reachable : m.Reachable)
    {cls : ModuleId} {name : String} (numeric : IsNumeric cls)
    (released : m.hierarchy.Released cls name) : m'.hierarchy.Released cls name := by
  induction steps with
  | refl => exact released
  | tail before last ih =>
    cases last with
    | call => exact ih
    | change change => exact change.released (reachable.steps before).tagged numeric ih

/-- An operator whose entry was given up is never applied directly again. -/
theorem directOperator?_of_released {m m' : Machine} (reachable : m.Reachable) (steps : Steps m m')
    {receiver : Value} {cls : ModuleId} {table : List Operator} {selector : String}
    (at_receiver : Run.directTable receiver = some (cls, table))
    (released : m.hierarchy.Released cls selector) (args : List Value) :
    Run.directOperator? m' receiver selector args = none := by
  have numeric := isNumeric_of_directTable at_receiver
  have still := steps.released reachable numeric released
  cases answers : Run.directOperator? m' receiver selector args with
  | none => rfl
  | some answer =>
    unfold Run.directOperator? at answers
    rw [at_receiver] at answers
    simp only [Option.bind_eq_bind, Option.bind_some, Option.bind_eq_some_iff] at answers
    obtain ⟨op, -, rest⟩ := answers
    split at rest
    next argument =>
      obtain ⟨method, found, guard⟩ := Option.bind_eq_some_iff.1 rest
      have general := (reachable.steps steps).tagged.released_found numeric still found
      rw [general] at guard
      simp at guard
    next => cases rest

end ObjectRuntime
