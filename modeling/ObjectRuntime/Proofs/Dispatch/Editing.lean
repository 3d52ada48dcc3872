import ObjectRuntime.Proofs.Dispatch.Upkeep
import ObjectRuntime.Proofs.Hierarchy.Reach
import ObjectRuntime.Proofs.Machine.Owners

/-!
# Which lookups an edit changes

Undefining a method puts a placeholder into the table of a module. The searches that come to that
table end there, and no others; removing the placeholder undoes that. Setting a visibility puts a
copy of the method that is found into the table, which leaves the other tables, and so what is not
below the module, as they were.
-/

set_option autoImplicit false

namespace ObjectRuntime

open Run

namespace Tables

structure Formed (t : Tables) : Prop where
  keyed : t.hierarchy.Keyed
  numbered : ∀ id name method, t.hierarchy.ownMethod? id name = some method →
    method.serial ≤ t.methodsMade

def placeholder (t : Tables) (owner : ModuleId) (name : String) : Method :=
  { Method.undefined name owner with serial := t.methodsMade + 1 }

def undefine (t : Tables) (owner : ModuleId) (name : String) : Tables :=
  t.enter owner (.undefined name owner)

variable {t t' : Tables} {owner : ModuleId} {name : String} {visibility : Visibility}

theorem Formed.findMethod_ne_placeholder (formed : t.Formed) (cls owner : ModuleId)
    (name : String) : t.hierarchy.findMethod cls name ≠ some (t.placeholder owner name) := by
  intro found
  rw [Hierarchy.findMethod_eq] at found
  obtain ⟨id, -, own⟩ := List.exists_of_findSome?_eq_some found
  have given : t.methodsMade + 1 ≤ t.methodsMade := formed.numbered id name _ own
  omega

/-- The number of the new placeholder tells it from all that could be found before. -/
theorem Formed.findMethod_undefine_iff (formed : t.Formed)
    (in_range : owner.index < t.hierarchy.size) (cls : ModuleId) (name : String) :
    (t.undefine owner name).hierarchy.findMethod cls name = some (t.placeholder owner name) ↔
      t.hierarchy.Reaches cls owner name := by
  refine ⟨?_, Hierarchy.findMethod_defineMethod_of_reaches (t.placeholder owner name) in_range⟩
  intro found
  by_contra hidden
  have kept : (t.undefine owner name).hierarchy.findMethod cls name =
      t.hierarchy.findMethod cls name :=
    Hierarchy.findMethod_defineMethod_of_not_reaches (t.placeholder owner name) hidden
  exact formed.findMethod_ne_placeholder cls owner name (kept.symm.trans found)

theorem removing_undefine (in_range : owner.index < t.hierarchy.size)
    (absent : t.hierarchy.ownMethod? owner name = none) :
    ∃ restored, (t.undefine owner name).grant owner (.removing name) = some restored ∧
      ∀ other, t.hierarchy.SameLookups restored.hierarchy other := by
  have own : (t.undefine owner name).hierarchy.ownMethod? owner name =
      some (t.placeholder owner name) :=
    Hierarchy.ownMethod?_defineMethod_self in_range (t.placeholder owner name)
  refine ⟨_, if_pos (Option.isSome_of_eq_some own), ?_⟩
  exact fun other => Hierarchy.sameLookups_remove_define (t.placeholder owner name) absent other

theorem Formed.of_retagging (formed : t.Formed)
    (granted : t.grant owner (.retagging name visibility) = some t') :
    ∃ method, t.hierarchy.findMethod owner name = some method ∧ method.name = name ∧
      t' = t.enter owner { method with visibility } := by
  obtain ⟨method, found, rfl⟩ := Option.map_eq_some_iff.1 granted
  have found := (Option.filter_eq_some_iff.1 found).1
  refine ⟨method, found, ?_, rfl⟩
  rw [Hierarchy.findMethod_eq] at found
  obtain ⟨id, -, own⟩ := List.exists_of_findSome?_eq_some found
  exact formed.keyed id name method own

end Tables

theorem Machine.Reachable.tables_formed {m : Machine} (reachable : m.Reachable) : m.tables.Formed :=
  ⟨reachable.keyed, reachable.owned.methods⟩

theorem Hierarchy.Made.tables_formed {h : Hierarchy} (made : h.Made) :
    ∃ methodsMade, (Tables.mk h methodsMade).Formed := by
  have bounded : ∃ bound, ∀ id name method, h.ownMethod? id name = some method →
      method.serial ≤ bound := by
    induction made with
    | empty =>
      refine ⟨0, ?_⟩
      intro id name method own
      obtain ⟨m, entry, -⟩ := Option.bind_eq_some_iff.1 own
      cases entry
    | create _ m _ _ _ no_methods _ ih =>
      obtain ⟨bound, below⟩ := ih
      exact ⟨bound, fun id name method own =>
        below id name method (ownMethod?_create no_methods own)⟩
    | includeModule _ target id _ _ done ih =>
      obtain ⟨bound, below⟩ := ih
      refine ⟨bound, ?_⟩
      intro other name method own
      exact below other name method ((ownMethod?_includeModule done other name).symm.trans own)
    | defineMethod _ owner method _ ih =>
      obtain ⟨bound, below⟩ := ih
      refine ⟨max bound method.serial, ?_⟩
      intro id name found own
      obtain ⟨-, -, rfl⟩ | before := ownMethod?_defineMethod own
      · exact Nat.le_max_right _ _
      · exact (below id name found before).trans (Nat.le_max_left _ _)
    | defineClassMethod _ owner method _ ih =>
      obtain ⟨bound, below⟩ := ih
      refine ⟨bound, ?_⟩
      intro id name found own
      exact below id name found ((ownMethod?_defineClassMethod ..).symm.trans own)
    | removeMethod _ owner name ih =>
      obtain ⟨bound, below⟩ := ih
      exact ⟨bound, fun id name method own => below id name method (ownMethod?_removeMethod own)⟩
  obtain ⟨bound, below⟩ := bounded
  exact ⟨bound, made.keyed, below⟩

/-- Once a name has been undefined in a module, the searches that find the placeholder are those
that come to the table of the module, and all others end as before; without an own entry before,
removing the placeholder puts every lookup back. A change of the visibility leaves the method as it
is found in the module but for the visibility and the number, the other tables as they are, and what
is found where the module is no ancestor. None of these edits changes a lookup of another name. They
are what the operations of a machine do with these tables. -/
theorem edits_show_where_they_reach {t : Tables} (formed : t.Formed) {owner : ModuleId}
    (in_range : owner.index < t.hierarchy.size) (name : String) :
    (∀ cls, (t.undefine owner name).hierarchy.findMethod cls name =
        some (t.placeholder owner name) ↔ t.hierarchy.Reaches cls owner name) ∧
    (∀ cls, ¬ t.hierarchy.Reaches cls owner name →
      (t.undefine owner name).hierarchy.findMethod cls name = t.hierarchy.findMethod cls name) ∧
    (t.hierarchy.ownMethod? owner name = none →
      ∃ restored, (t.undefine owner name).grant owner (.removing name) = some restored ∧
        ∀ other, t.hierarchy.SameLookups restored.hierarchy other) ∧
    (∀ visibility t', t.grant owner (.retagging name visibility) = some t' →
      (∃ method, t.hierarchy.findMethod owner name = some method ∧
        t'.hierarchy.findMethod owner name =
          some { method with visibility, serial := t.methodsMade + 1 }) ∧
      (∀ id other, id ≠ owner →
        t'.hierarchy.ownMethod? id other = t.hierarchy.ownMethod? id other) ∧
      ∀ cls, owner ∉ t.hierarchy.ancestors cls →
        t'.hierarchy.findMethod cls name = t.hierarchy.findMethod cls name) ∧
    (∀ other, other ≠ name →
      t.hierarchy.SameLookups (t.undefine owner name).hierarchy other ∧
      t.hierarchy.SameLookups (t.hierarchy.removeMethod owner name) other ∧
      ∀ visibility t', t.grant owner (.retagging name visibility) = some t' →
        t.hierarchy.SameLookups t'.hierarchy other) ∧
    ∀ m env, m.tables = t →
      Settles env m (undefMethod env owner name) (t.grant owner (.undefining name)) ∧
      Settles env m (removeMethod env owner name) (t.grant owner (.removing name)) ∧
      ∀ visibility, Settles env m (setVisibility env owner name visibility)
        (t.grant owner (.retagging name visibility)) := by
  refine ⟨fun cls => formed.findMethod_undefine_iff in_range cls name, ?_, ?_, ?_, ?_, ?_⟩
  · intro cls hidden
    exact Hierarchy.findMethod_defineMethod_of_not_reaches (t.placeholder owner name) hidden
  · exact Tables.removing_undefine in_range
  · intro visibility t' granted
    obtain ⟨method, found, rfl, rfl⟩ := formed.of_retagging granted
    refine ⟨⟨method, found, ?_⟩, ?_, ?_⟩
    · exact Hierarchy.findMethod_defineMethod_of_reaches _ in_range
        (Hierarchy.reaches_self in_range method.name)
    · intro id other apart
      exact Hierarchy.ownMethod?_defineMethod_of_ne _ fun same => (apart same).elim
    · intro cls no_ancestor
      exact Hierarchy.findMethod_defineMethod_of_not_reaches _ fun reaches =>
        no_ancestor reaches.mem_ancestors
  · intro other different
    refine ⟨Hierarchy.sameLookups_defineMethod _ _ different,
      Hierarchy.sameLookups_removeMethod _ _ different, ?_⟩
    intro visibility t' granted
    obtain ⟨method, found, rfl, rfl⟩ := formed.of_retagging granted
    exact Hierarchy.sameLookups_defineMethod _ _ different
  · rintro m env rfl
    exact ⟨settles_undefMethod env owner name m, settles_removeMethod env owner name m,
      fun visibility => settles_setVisibility env owner name visibility m⟩

namespace Machine

theorem string_reaches_object :
    (boot .standard).hierarchy.Reaches Core.string.id Core.object.id "to_s" := by
  refine ⟨[Core.string.id, Core.comparable.id], [Core.kernel.id, Core.basicObject.id],
    by decide +kernel, by decide +kernel, ?_⟩
  intro id mem
  obtain rfl | rfl : id = Core.string.id ∨ id = Core.comparable.id := by simpa using mem
  · exact Option.isNone_iff_eq_none.1 (by decide +kernel)
  · exact Option.isNone_iff_eq_none.1 (by decide +kernel)

theorem exception_hides_object :
    ¬ (boot .standard).hierarchy.Reaches Core.exception.id Core.object.id "to_s" := by
  rintro ⟨before, after, split, -, clear⟩
  have ancestors : (boot .standard).hierarchy.ancestors Core.exception.id =
      [Core.exception.id, Core.object.id, Core.kernel.id, Core.basicObject.id] := by
    decide +kernel
  rw [ancestors] at split
  cases before with
  | nil => cases split
  | cons first before =>
    obtain ⟨rfl, -⟩ := List.cons.inj split
    have own := Option.isNone_iff_eq_none.2 (clear _ List.mem_cons_self)
    revert own
    decide +kernel

/-- The class of all objects has `to_s` from a module. An edit of it there shows in strings, but not
in exceptions. -/
theorem edits_show_where_they_reach_text :
    (boot .standard).tables.Formed ∧
    ((boot .standard).tables.undefine Core.object.id "to_s").hierarchy.findMethod Core.string.id
      "to_s" = some ((boot .standard).tables.placeholder Core.object.id "to_s") ∧
    ((boot .standard).tables.undefine Core.object.id "to_s").hierarchy.findMethod Core.exception.id
      "to_s" = (boot .standard).hierarchy.findMethod Core.exception.id "to_s" ∧
    (∃ restored, ((boot .standard).tables.undefine Core.object.id "to_s").grant Core.object.id
        (.removing "to_s") = some restored ∧
      ∀ other, (boot .standard).hierarchy.SameLookups restored.hierarchy other) ∧
    ∃ t', (boot .standard).tables.grant Core.object.id (.retagging "to_s" .isPrivate) = some t' ∧
      t'.hierarchy.findMethod Core.kernel.id "to_s" =
        (boot .standard).hierarchy.findMethod Core.kernel.id "to_s" := by
  have formed : (boot .standard).tables.Formed := Reachable.tables_formed ⟨.standard, .refl⟩
  have in_range : Core.object.id.index < (boot .standard).tables.hierarchy.size := by
    decide +kernel
  obtain ⟨finds, keeps, restores, retags, -⟩ := edits_show_where_they_reach formed in_range "to_s"
  have absent : (boot .standard).hierarchy.ownMethod? Core.object.id "to_s" = none :=
    Option.isNone_iff_eq_none.1 (by decide +kernel)
  have granted : ((boot .standard).tables.grant Core.object.id
      (.retagging "to_s" .isPrivate)).isSome = true := by decide +kernel
  obtain ⟨t', retagged⟩ := Option.isSome_iff_exists.1 granted
  exact ⟨formed, (finds _).2 string_reaches_object, keeps _ exception_hides_object, restores absent,
    t', retagged, (retags _ _ retagged).2.2 _ (by decide +kernel)⟩

end Machine

end ObjectRuntime
