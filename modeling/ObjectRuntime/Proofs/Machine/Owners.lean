import ObjectRuntime.Proofs.Hierarchy.Order
import ObjectRuntime.Proofs.Machine.Origins

/-!
# Whose method it is

A method of one object is owned by the class of the object, and a class-level method by the module
in whose table it is. Serial numbers tell class-level methods from all others, so dispatch
recognises a running class-level method by its number.
-/

set_option autoImplicit false

namespace ObjectRuntime

structure Machine.Owned (m : Machine) : Prop where
  methods : ∀ id name method, m.hierarchy.ownMethod? id name = some method →
    method.serial ≤ m.methodsMade
  classMethods : ∀ id name method, m.hierarchy.ownClassMethod? id name = some method →
    method.serial ≤ m.methodsMade ∧ method.owner = id ∧ method.name = name
  singletons : ∀ id o name method, m.heap.get? id = some o →
    o.singletonMethods.get? name = some method →
      method.serial ≤ m.methodsMade ∧ method.owner = o.cls ∧ method.name = name ∧ o.module? = none
  apart : ∀ id name method, m.hierarchy.ownClassMethod? id name = some method →
    ∀ other wanted found, m.hierarchy.ownMethod? other wanted = some found →
      method.serial ≠ found.serial
  apart_singletons : ∀ id name method, m.hierarchy.ownClassMethod? id name = some method →
    ∀ other o wanted found, m.heap.get? other = some o →
      o.singletonMethods.get? wanted = some found → method.serial ≠ found.serial

theorem Change.owned {P : Expr → Prop} {m m' : Machine} (change : Change P m m') (owned : m.Owned) :
    m'.Owned := by
  have grows := change.methodsMade_le
  refine ⟨?_, ?_, ?_, ?_, ?_⟩
  · intro id name method own
    obtain before | made := change.ownMethod?_origin own
    · exact Nat.le_trans (owned.methods id name method before) grows
    · exact made.serial_le
  · intro id name method own
    obtain before | ⟨made, owner, named, -⟩ := change.ownClassMethod?_origin own
    · obtain ⟨le, rest⟩ := owned.classMethods id name method before
      exact ⟨Nat.le_trans le grows, rest⟩
    · exact ⟨made.serial_le, owner, named⟩
  · intro id o' name method at_id own
    obtain bare | ⟨o, before, cls, kind, entries⟩ := change.object_origin at_id
    · rw [bare] at own
      cases own
    · rw [cls, kind]
      obtain old | ⟨made, -, owner, named, no_module⟩ := entries name method own
      · obtain ⟨le, rest⟩ := owned.singletons id o name method before old
        exact ⟨Nat.le_trans le grows, rest⟩
      · exact ⟨made.serial_le, owner, named, no_module⟩
  · intro id name method own other wanted found entry
    obtain before | ⟨made, -, -, -, tables⟩ := change.ownClassMethod?_origin own
    · obtain was | new := change.ownMethod?_origin entry
      · exact owned.apart id name method before other wanted found was
      · have le := (owned.classMethods id name method before).1
        rw [new.1]
        omega
    · rw [tables] at entry
      have le := owned.methods other wanted found entry
      rw [made.1]
      omega
  · intro id name method own other o' wanted found at_other entry
    obtain before | ⟨made, -, -, heap, -⟩ := change.ownClassMethod?_origin own
    · have le := (owned.classMethods id name method before).1
      obtain bare | ⟨o, was, -, -, entries⟩ := change.object_origin at_other
      · rw [bare] at entry
        cases entry
      · obtain old | ⟨new, -⟩ := entries wanted found entry
        · exact owned.apart_singletons id name method before other o wanted found was old
        · rw [new.1]
          omega
    · rw [heap] at at_other
      have le := (owned.singletons other o' wanted found at_other entry).1
      rw [made.1]
      omega

theorem Machine.owned_boot (settings : Settings) : (boot settings).Owned := by
  have no_classMethods : ∀ id name method,
      (boot settings).hierarchy.ownClassMethod? id name = some method → False := by
    intro id name method own
    change startHierarchy.ownClassMethod? id name = some method at own
    rw [ownClassMethod?_startHierarchy] at own
    cases own
  refine ⟨?_, ?_, ?_, ?_, ?_⟩
  · intro id name method own
    obtain ⟨i, -, number, le, -, -, rfl⟩ := ownMethod?_startHierarchy own
    exact le
  · intro id name method own
    exact (no_classMethods id name method own).elim
  · intro id o name method at_id own
    rw [startObjects_bare at_id] at own
    cases own
  · intro id name method own
    exact (no_classMethods id name method own).elim
  · intro id name method own
    exact (no_classMethods id name method own).elim

theorem Machine.Reachable.owned {m : Machine} (reachable : m.Reachable) : m.Owned := by
  refine reachable.induction Machine.Owned owned_boot ?_
  intro m m' owned step
  cases step with
  | change change => exact change.owned owned
  | call =>
    exact ⟨owned.methods, owned.classMethods, owned.singletons, owned.apart, owned.apart_singletons⟩

end ObjectRuntime
