import ObjectRuntime.Proofs.Machine.Change

/-!
# Where methods come from

After a change every method of a table or of an object was there before or is the one method that
the change made, under the next serial number. A change makes a method of one kind only: in the
table of a module, at class level, or of one object.
-/

set_option autoImplicit false

namespace ObjectRuntime

variable {P : Expr → Prop} {m m' : Machine}

def Machine.Made (m m' : Machine) (method : Method) : Prop :=
  method.serial = m.methodsMade + 1 ∧ m'.methodsMade = m.methodsMade + 1

theorem Machine.Made.serial_le {method : Method} (made : m.Made m' method) :
    method.serial ≤ m'.methodsMade := Nat.le_of_eq (made.1.trans made.2.symm)

theorem Change.methodsMade_le (change : Change P m m') : m.methodsMade ≤ m'.methodsMade := by
  cases change with
  | make | edit | remove | includeModule | create | frame | observe => exact Nat.le_refl _
  | singleton | define | retag | defineClassMethod => exact Nat.le_succ _

theorem Change.ownMethod?_origin (change : Change P m m') {id : ModuleId} {name : String}
    {method : Method} (own : m'.hierarchy.ownMethod? id name = some method) :
    m.hierarchy.ownMethod? id name = some method ∨ m.Made m' method := by
  obtain before | ⟨enters, -, rfl⟩ := change.ownMethod?_cases own
  · exact .inl before
  · exact .inr ⟨enters.serial, rfl⟩

theorem Change.ownClassMethod?_origin (change : Change P m m') {id : ModuleId} {name : String}
    {method : Method} (own : m'.hierarchy.ownClassMethod? id name = some method) :
    m.hierarchy.ownClassMethod? id name = some method ∨
      m.Made m' method ∧ method.owner = id ∧ method.name = name ∧ m'.heap = m.heap ∧
        ∀ other name, m'.hierarchy.ownMethod? other name = m.hierarchy.ownMethod? other name := by
  obtain before | ⟨made, -, -, owner, named, rfl, rfl⟩ := change.ownClassMethod?_cases own
  · exact .inl before
  · exact .inr ⟨⟨rfl, rfl⟩, owner, named, rfl, fun _ _ => Hierarchy.ownMethod?_defineClassMethod ..⟩

/-- An object after a change is a new one without methods of its own, or was there with the same
class; its own methods were there before but for one that the change has made. -/
theorem Change.object_origin (change : Change P m m') {id : ObjectId} {o' : Object}
    (at_id : m'.heap.get? id = some o') :
    o'.singletonMethods = .empty ∨ ∃ o, m.heap.get? id = some o ∧ o'.cls = o.cls ∧
      o'.module? = o.module? ∧ ∀ name method, o'.singletonMethods.get? name = some method →
        o.singletonMethods.get? name = some method ∨
          m.Made m' method ∧ method.operator = none ∧ method.owner = o.cls ∧ method.name = name ∧
            o.module? = none := by
  cases change with
  | make | create =>
    obtain rfl | before := Heap.get?_push_cases at_id
    · exact .inl rfl
    · exact .inr ⟨o', before, rfl, rfl, fun _ _ own => .inl own⟩
  | edit other f alike =>
    obtain ⟨o, -, before, rfl⟩ | before := Heap.get?_modify_cases at_id
    · refine .inr ⟨o, before, (alike o).cls, (alike o).module?, ?_⟩
      intro name method own
      rw [(alike o).singletonMethods] at own
      exact .inl own
    · exact .inr ⟨o', before, rfl, rfl, fun _ _ own => .inl own⟩
  | singleton other method code general not_module owner =>
    obtain ⟨o, rfl, before, rfl⟩ | before := Heap.get?_modify_cases at_id
    · refine .inr ⟨o, before, rfl, rfl, ?_⟩
      intro name found own
      rw [Bindings.get?_insert] at own
      split at own
      next named =>
        obtain rfl := Option.some.inj own
        refine .inr ⟨⟨rfl, rfl⟩, general, owner o before, named, ?_⟩
        have no_module : (m.heap.get? id).bind Object.module? = none := not_module
        rw [before] at no_module
        exact no_module
      next => exact .inl own
    · exact .inr ⟨o', before, rfl, rfl, fun _ _ own => .inl own⟩
  | define | retag | defineClassMethod | remove | includeModule | frame | observe =>
    exact .inr ⟨o', at_id, rfl, rfl, fun _ _ own => .inl own⟩

end ObjectRuntime
