import ObjectRuntime.Proofs.Dispatch.Upkeep
import ObjectRuntime.Proofs.Hierarchy.Inherits
import ObjectRuntime.Proofs.Hierarchy.Insertion

/-!
# Includes by message

`include` serves its arguments from the last one to the first, and each module that is included
comes to stand directly behind the target. So all of them stand there in the order in which they
were given.
-/

set_option autoImplicit false

namespace ObjectRuntime

open Run
open Hierarchy (insertBehind)

variable {m : Machine} {target : ModuleId}

theorem serve_include {t t' : Tables} {arg : Value}
    (served : Builtin.includeModule.serve m target t arg = some t') :
    ∃ id, m.module? arg = some id ∧ t.hierarchy.includeModule target id = .ok t'.hierarchy := by
  obtain ⟨request, asked, granted⟩ := Option.bind_eq_some_iff.1 served
  obtain ⟨id, is_module, rfl⟩ := Option.map_eq_some_iff.1 asked
  refine ⟨id, is_module, ?_⟩
  unfold Tables.grant at granted
  dsimp only at granted
  split at granted
  next after done =>
    obtain rfl := Option.some.inj granted
    exact done
  next => cases granted

/-- The induction is along the arguments, of which the first is served last. -/
theorem serveAll_include {args : List Value} {t : Tables}
    (served : Builtin.includeModule.serveAll m target args.reverse = some t) :
    ∃ modules, args.map m.module? = modules.map some ∧
      m.hierarchy.includeEach target modules = .ok t.hierarchy := by
  rw [Builtin.serveAll, List.foldlM_reverse] at served
  induction args generalizing t with
  | nil =>
    obtain rfl := Option.some.inj served
    exact ⟨[], rfl, rfl⟩
  | cons arg rest ih =>
    rw [List.foldrM_cons] at served
    obtain ⟨middle, before, last⟩ := Option.bind_eq_some_iff.1 served
    obtain ⟨modules, named, included⟩ := ih before
    obtain ⟨id, is_module, done⟩ := serve_include last
    refine ⟨id :: modules, by rw [List.map_cons, List.map_cons, is_module, named], ?_⟩
    have earlier : modules.foldrM (fun id h => h.includeModule target id) m.hierarchy =
        .ok middle.hierarchy := included
    rw [Hierarchy.includeEach, List.foldrM_cons, earlier]
    exact done

theorem in_range_of_module? (valid : m.Valid fun _ => True) {args : List Value}
    {modules : List ModuleId} (named : args.map m.module? = modules.map some) :
    ∀ id ∈ modules, id.index < m.hierarchy.size := by
  intro id mem
  have listed : some id ∈ args.map m.module? := named ▸ List.mem_map_of_mem mem
  obtain ⟨arg, -, is_module⟩ := List.mem_map.1 listed
  exact valid.module is_module

theorem inserted_of_send {m' : Machine} (reachable : m.Reachable) {v : Value} {kind : SendKind}
    {name : String} {args : List Value} {method : Method} {block : Option Block} {calls : Nat}
    {env : FrameId} {answer : Value} (replies : m.reply kind v name args = .method method)
    (runs : method.body.builtin? = some .includeModule) (is_module : m.module? v = some target)
    (sent : send (runEntry calls) env kind v name args block m = (.ok answer, m')) :
    ∃ modules, args.map m.module? = modules.map some ∧
      m.hierarchy.Inserted target modules m'.hierarchy := by
  have upkept := upkept_send rfl replies runs is_module calls env block
  rw [sent] at upkept
  cases upkept with
  | served _ _ all =>
    obtain ⟨modules, named, included⟩ := serveAll_include all
    have valid := reachable.valid
    exact ⟨modules, named, reachable.layered.includeEach (valid.module is_module)
      (in_range_of_module? valid named) included⟩

/-- An include puts the expansion of the module directly behind each place where the target stands
among the ancestors of anything, and changes nothing else. The expansion of a module is the module
and then the expansions of what it includes, and what is included last comes first. `include` by
message does that with the expansions of all its arguments, in their order. -/
theorem include_inserts_behind_target :
    (∀ {h after : Hierarchy} {target id : ModuleId}, h.Layered → target.index < h.size →
      id.index < h.size → h.includeModule target id = .ok after →
      (∀ x, x.index < h.size →
        after.ancestors x = insertBehind target (h.expand id) (h.ancestors x)) ∧
      (∀ x, x.index < h.size → h.expand x = x :: (h.includesOf x).flatMap h.expand) ∧
      after.includesOf target = id :: h.includesOf target) ∧
    ∀ {m m' : Machine} {target : ModuleId} {v : Value} {kind : SendKind} {name : String}
      {args : List Value} {method : Method} {block : Option Block} {calls : Nat} {env : FrameId}
      {answer : Value}, m.Reachable → m.reply kind v name args = .method method →
      method.body.builtin? = some .includeModule → m.module? v = some target →
      send (runEntry calls) env kind v name args block m = (.ok answer, m') →
      ∃ modules, args.map m.module? = modules.map some ∧
        m'.hierarchy.includesOf target = modules ++ m.hierarchy.includesOf target ∧
        ∀ x, x.index < m.hierarchy.size → m'.hierarchy.ancestors x =
          insertBehind target (modules.flatMap m.hierarchy.expand) (m.hierarchy.ancestors x) := by
  refine ⟨?_, ?_⟩
  · intro h after target id layered in_range present done
    have inserted : h.Inserted target [id] after :=
      (layered.inserted_nil target).cons in_range present done
    refine ⟨?_, fun x x_present => layered.nested.expand_eq x_present, ?_⟩
    · intro x x_present
      rw [inserted.ancestors x_present, List.flatMap_singleton]
    · rw [inserted.includesOf, if_pos rfl]
      rfl
  · intro m m' target v kind name args method block calls env answer reachable replies runs
      is_module sent
    obtain ⟨modules, named, inserted⟩ := inserted_of_send reachable replies runs is_module sent
    refine ⟨modules, named, ?_, fun x x_present => inserted.ancestors x_present⟩
    rw [inserted.includesOf, if_pos rfl]

namespace Machine

def bothModules (m : Machine) : List Value :=
  [m.moduleObject Core.comparable.id, m.moduleObject Core.kernel.id]

theorem boot_includes_both : ∃ method answer m',
    (boot .standard).reply .anyMethod ((boot .standard).moduleObject Core.object.id) "include"
      (boot .standard).bothModules = .method method ∧
    method.body.builtin? = some .includeModule ∧
    send (runEntry 1) .main .anyMethod ((boot .standard).moduleObject Core.object.id) "include"
      (boot .standard).bothModules none (boot .standard) = (.ok answer, m') := by
  have told : (match (boot .standard).reply .anyMethod
      ((boot .standard).moduleObject Core.object.id) "include" (boot .standard).bothModules,
      send (runEntry 1) .main .anyMethod ((boot .standard).moduleObject Core.object.id) "include"
        (boot .standard).bothModules none (boot .standard) with
    | .method method, (.ok _, _) => method.body.builtin? == some .includeModule
    | _, _ => false) = true := by decide +kernel
  split at told
  next method answer m' replies ending =>
    exact ⟨method, answer, m', replies, beq_iff_eq.1 told, ending⟩
  next => cases told

/-- Above strings stands a module that the class of all objects includes as well, now directly
behind that class, and behind it what the class included before. -/
theorem include_inserts_behind_target_string :
    (∃ after, (boot .standard).hierarchy.includeModule Core.object.id Core.comparable.id =
        .ok after ∧
      after.ancestors Core.string.id = [Core.string.id, Core.comparable.id, Core.object.id,
        Core.comparable.id, Core.kernel.id, Core.basicObject.id]) ∧
    ∃ answer m',
      send (runEntry 1) .main .anyMethod ((boot .standard).moduleObject Core.object.id) "include"
        (boot .standard).bothModules none (boot .standard) = (.ok answer, m') ∧
      m'.hierarchy.ancestors Core.string.id = [Core.string.id, Core.comparable.id, Core.object.id,
        Core.comparable.id, Core.kernel.id, Core.kernel.id, Core.basicObject.id] := by
  obtain ⟨one, many⟩ := include_inserts_behind_target
  have reachable : (boot .standard).Reachable := ⟨.standard, .refl⟩
  refine ⟨?_, ?_⟩
  · cases done : (boot .standard).hierarchy.includeModule Core.object.id Core.comparable.id with
    | error refusal =>
      have granted : ((boot .standard).hierarchy.includeModule Core.object.id
        Core.comparable.id).isOk = true := by decide +kernel
      rw [done] at granted
      cases granted
    | ok after =>
      refine ⟨after, rfl, ?_⟩
      rw [(one reachable.layered (by decide +kernel) (by decide +kernel) done).1 _
        (by decide +kernel)]
      decide +kernel
  · obtain ⟨method, answer, m', replies, runs, sent⟩ := boot_includes_both
    refine ⟨answer, m', sent, ?_⟩
    have is_module : (boot .standard).module? ((boot .standard).moduleObject Core.object.id) =
        some Core.object.id := by decide +kernel
    obtain ⟨modules, named, -, places⟩ := many reachable replies runs is_module sent
    have in_order : (boot .standard).bothModules.map (boot .standard).module? =
        [Core.comparable.id, Core.kernel.id].map some := by decide +kernel
    obtain rfl : modules = [Core.comparable.id, Core.kernel.id] :=
      List.map_injective_iff.2 (Option.some_injective _) (named.symm.trans in_order)
    rw [places _ (by decide +kernel)]
    decide +kernel

end Machine

end ObjectRuntime
