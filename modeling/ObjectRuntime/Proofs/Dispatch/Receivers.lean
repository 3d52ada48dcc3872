import ObjectRuntime.Proofs.Dispatch.Direct
import ObjectRuntime.Proofs.Machine.Builtins
import ObjectRuntime.Proofs.Machine.Homes

/-!
# Receivers of built-in methods

Dispatch settles which method runs by the class of the receiver, and a built-in method looks at the
payload of it. For numbers and exceptions the two agree in every formed machine, so operators meet
numbers and the methods of exceptions meet exceptions.

For modules they need not. An allocation of `Module`, `Class` or a class below makes a plain object,
and a method of modules that is sent to it raises a fault. All other receivers that dispatch hands
to such a method stand for a module.
-/

set_option autoImplicit false

namespace ObjectRuntime

namespace Machine

variable {m m' : Machine} {id : ObjectId} {o : Object} {method : Method} {b : Builtin}

theorem Formed.receiver (formed : m.Formed) (finds : m.Finds id method)
    (native : method.body.builtin? = some b) (some_home : b.homes ≠ []) :
    ∃ o, m.heap.get? id = some o ∧ ∃ home ∈ b.homes, home.id ∈ m.hierarchy.superclasses o.cls := by
  obtain ⟨home, in_homes, above⟩ := formed.houses finds native some_home
  cases at_id : m.heap.get? id with
  | some o =>
    rw [classOf, at_id] at above
    exact ⟨o, rfl, home, in_homes, above⟩
  | none =>
    have rooted := formed.reachable.rooted
    rw [classOf, at_id] at above
    have above : home.id ∈ m.hierarchy.superclasses Core.object.id := above
    rw [rooted.core_superclasses, Core.mem_superclasses_iff _ home (b.homes_subset home in_homes)]
      at above
    cases above

theorem Formed.receiver_family (formed : m.Formed) (finds : m.Finds id method)
    (native : method.body.builtin? = some b) (some_home : b.homes ≠ [])
    (in_families : ∀ home ∈ b.homes, home ∈ Core.families) (deeds : Deeds false m m') :
    ∃ o, m'.heap.get? id = some o ∧ ∃ home ∈ b.homes, o.payload.family? = some home := by
  obtain ⟨o, at_id, home, in_homes, above⟩ := formed.receiver finds native some_home
  obtain ⟨o', at_id', -, becomes⟩ := deeds.object_kept at_id
  have family := ((formed.kinds.fits id o at_id).family home (in_families home in_homes)).1 above
  exact ⟨o', at_id', home, in_homes, becomes.family?.trans family⟩

/-! ### Numbers -/

theorem num?_of_family (at_id : m.heap.get? id = some o)
    (numeric : o.payload.family? = some .integer ∨ o.payload.family? = some .float) :
    m.num? (.object id) ≠ none := by
  have payload : m.payload? (.object id) = some o.payload := by
    change (m.heap.get? id).map (·.payload) = _
    rw [at_id]
    rfl
  cases kind : o.payload with
  | int value => simp [num?, int?, payload, kind]
  | float value => simp [num?, int?, float?, payload, kind]
  | _ =>
    rw [kind] at numeric
    obtain same | same := numeric <;> cases same

theorem apply_ne_notANumber {op : Operator} {left right : Value} (number : m.num? left ≠ none)
    (shown : String) : m.apply op left right ≠ .error (.notANumber shown) := by
  intro failed
  obtain ⟨no_number, -⟩ | other | other | ⟨_, _, other⟩ | ⟨_, _, other⟩ := m.apply_error failed
  · exact number no_number
  all_goals cases other

theorem num?_of_direct {receiver argument : Value} {selector : String} {args : List Value}
    {op : Operator}
    (direct : Run.directOperator? m receiver selector args = some (op, argument)) :
    m.num? receiver ≠ none := by
  cases receiver with
  | int value => exact nofun
  | float value => exact nofun
  | object id => cases direct

/-! ### Exceptions -/

theorem exceptionArg_of_family (at_id : m.heap.get? id = some o)
    (exceptional : o.payload.family? = some .exception) (env : FrameId) :
    ∃ data, Run.exceptionArg env (.object id) m = (.ok data, m) := by
  cases kind : o.payload with
  | exception data =>
    have is_exception : m.exception? (.object id) = some data := by
      change (m.heap.get? id).bind Object.exception? = _
      rw [at_id, Option.bind_some, Object.exception?, kind]
    refine ⟨data, ?_⟩
    unfold Run.exceptionArg
    rw [Run.run_bind, Run.run_read]
    simp only [is_exception]
    rfl
  | _ =>
    rw [kind] at exceptional
    cases exceptional

/-- Ordinary programs, and any part of one in any frame, lead from formed machines to formed
machines. There an object has the payload of a family exactly if the class of the family is among
the ancestors of its own class. So the left operand of an operator that is applied directly, or that
dispatch has found for the receiver, is a number, and the receiver of a method of exceptions is an
exception, also if the machine has gone on since the method was found. -/
theorem payloads_match_classes (formed : m.Formed) :
    (∀ program : Expr, program.isOrdinary = true → (m.runProgram program).2.Formed) ∧
    (∀ calls c e, CodedBlock false c.block → e.isOrdinary = true →
      (Run.eval (runEntry calls) c e m).2.Formed) ∧
    (∀ id o, m.heap.get? id = some o → ∀ F ∈ Core.families,
      (F.id ∈ m.hierarchy.ancestors o.cls ↔ o.payload.family? = some F)) ∧
    (∀ receiver selector args op argument,
      Run.directOperator? m receiver selector args = some (op, argument) →
        ∀ shown, m.apply op receiver argument ≠ .error (.notANumber shown)) ∧
    ∀ id method, m.Finds id method → ∀ m', Deeds false m m' →
      (∀ op, method.body.builtin? = some (.operator op) →
        ∀ argument shown, m'.apply op (.object id) argument ≠ .error (.notANumber shown)) ∧
      ∀ b, method.body.builtin? = some b → b.homes = [.exception] →
        ∀ env, ∃ data, Run.exceptionArg env (.object id) m' = (.ok data, m') := by
  refine ⟨fun program => formed.runProgram, fun calls _ _ code => formed.eval calls code, ?_, ?_,
    ?_⟩
  · exact fun id o at_id F mem => formed.family_iff at_id mem
  · exact fun receiver selector args op argument direct =>
      apply_ne_notANumber (num?_of_direct direct)
  · intro id method finds m' deeds
    refine ⟨?_, ?_⟩
    · intro op native argument
      have numeric : ∀ home ∈ (Builtin.operator op).homes, home ∈ Core.families := by
        simp [Builtin.homes, Core.families, Run.withoutAllocator]
      obtain ⟨o, at_id, home, in_homes, family⟩ :=
        formed.receiver_family finds native (by simp [Builtin.homes]) numeric deeds
      refine apply_ne_notANumber (num?_of_family at_id ?_)
      obtain rfl | rfl : home = .integer ∨ home = .float := by simpa [Builtin.homes] using in_homes
      · exact .inl family
      · exact .inr family
    · intro b native homes env
      obtain ⟨o, at_id, home, in_homes, family⟩ :=
        formed.receiver_family finds native (by simp [homes]) (by simp [homes, Core.families]) deeds
      obtain rfl : home = .exception := by simpa [homes] using in_homes
      exact exceptionArg_of_family at_id family env

/-- `E` below `StandardError` is opened, an exception of it is made, and an object of `Class` is
allocated. -/
def stocking : Expr :=
  .seq (.prim (.openClass "E" true .here) (.cons (.constant "StandardError") .nil))
    (.seq (.prim (.keep "e") (.cons (.send .anyMethod (.constant "E") "new" .nil .none) .nil))
      (.prim (.keep "k")
        (.cons (.send .anyMethod (.constant "Class") "allocate" .nil .none) .nil)))

def stocked : Machine :=
  ((boot { Settings.standard with callDepthLimit := some 3 }).runProgram stocking).2

theorem stocked_formed : stocked.Formed := (formed_boot _).runProgram (by decide)

theorem payloads_match_classes_stocked :
    stocked.Formed ∧
    (∃ o, stocked.heap.get? ⟨41⟩ = some o ∧ stocked.className o.cls = "E" ∧
      o.payload.family? = some .exception) ∧
    ∃ method, stocked.Finds ⟨41⟩ method ∧ method.body.builtin? = some .exceptionMessage ∧
      ∀ env, ∃ data, Run.exceptionArg env (.object ⟨41⟩) stocked = (.ok data, stocked) := by
  obtain ⟨-, -, kinds, -, dispatched⟩ := payloads_match_classes stocked_formed
  refine ⟨stocked_formed, ?_, ?_⟩
  · have of_E : (stocked.heap.get? ⟨41⟩).map (·.cls) = some ⟨36⟩ := by decide +kernel
    obtain ⟨o, at_id, cls⟩ := Option.map_eq_some_iff.1 of_E
    have below : Core.exception.id ∈ stocked.hierarchy.ancestors o.cls := by
      rw [cls]
      decide +kernel
    refine ⟨o, at_id, ?_, (kinds ⟨41⟩ o at_id .exception (by decide)).1 below⟩
    rw [cls]
    decide +kernel
  · have found : (stocked.resolve ⟨41⟩ "message").bind (·.body.builtin?) =
        some .exceptionMessage := by decide +kernel
    obtain ⟨method, resolved, native⟩ := Option.bind_eq_some_iff.1 found
    have finds : stocked.Finds ⟨41⟩ method := .send "message" resolved
    exact ⟨method, finds, native, (dispatched ⟨41⟩ method finds stocked .refl).2 _ native rfl⟩

/-! ### Modules -/

theorem module?_of_get? (at_id : m.heap.get? id = some o) :
    m.module? (.object id) = o.module? := by
  change (m.heap.get? id).bind Object.module? = _
  rw [at_id, Option.bind_some]

theorem module?_of_payload {cls : ModuleId} (at_id : m.heap.get? id = some o)
    (is_module : o.payload = .module cls) : m.module? (.object id) = some cls := by
  rw [module?_of_get? at_id, Object.module?, is_module]

theorem module?_of_plain (at_id : m.heap.get? id = some o) (is_plain : o.payload = .plain) :
    m.module? (.object id) = none := by
  rw [module?_of_get? at_id, Object.module?, is_plain]

theorem Formed.below_module_iff (formed : m.Formed) (cls : ModuleId) :
    Core.moduleClass.id ∈ m.hierarchy.ancestors cls ↔
      Core.moduleClass.id ∈ m.hierarchy.superclasses cls := by
  have rooted := formed.reachable.rooted
  exact formed.reachable.shaped.mem_ancestors_iff rooted.present (rooted.core_isClass rfl)

theorem Formed.standing (formed : m.Formed) (at_id : m.heap.get? id = some o)
    (below : Core.moduleClass.id ∈ m.hierarchy.ancestors o.cls) :
    o.payload = .plain ∨ ∃ cls, o.payload = .module cls ∧ cls.index < m.hierarchy.size := by
  rw [formed.below_module_iff] at below
  obtain family | is_plain := (formed.kinds.fits id o at_id).standing below
  · cases kind : o.payload with
    | module cls =>
      exact .inr ⟨cls, rfl, formed.coded.valid.modules id cls (module?_of_payload at_id kind)⟩
    | _ =>
      rw [kind] at family
      cases family
  · exact .inl is_plain

/-- An allocation does not look for `Module`: it makes a plain object of a class below. -/
theorem Formed.allocateObject_below_module (formed : m.Formed) {receiver : Value} {cls : ModuleId}
    (is_module : m.module? receiver = some cls)
    (below : Core.moduleClass.id ∈ m.hierarchy.ancestors cls) (env : FrameId) :
    Run.allocateObject env receiver m = Run.newObject cls .plain m := by
  have rooted := formed.reachable.rooted
  rw [formed.below_module_iff] at below
  -- a class below `Module` is in no family, since superclasses form a chain
  have fits : m.hierarchy.Fits cls (.module cls) :=
    rooted.fits_below List.mem_cons_self below rfl
  have outside : ∀ F ∈ Core.families, m.hierarchy.inherits cls F.id = false := by
    intro F mem
    rw [Bool.eq_false_iff, Ne, rooted.inherits_iff formed.reachable.shaped
      (List.mem_cons_of_mem _ mem), fits.family F mem]
    rintro ⟨⟩
    revert mem
    decide
  have no_special :
      Run.withoutAllocator.any (fun special => m.hierarchy.inherits cls special.id) = false := by
    rw [List.any_eq_false]
    intro special mem
    rw [outside special (List.mem_append_left _ mem)]
    exact Bool.false_ne_true
  unfold Run.allocateObject
  rw [Run.run_bind, Run.moduleArg_of_some is_module]
  simp only [Run.run_bind, Run.run_read, no_special, outside .exception (by decide),
    outside .string (by decide)]
  rfl

theorem moduleArg_raises {v : Value} (other : m.module? v = none) (env : FrameId) :
    ∃ raised m', Run.moduleArg env v m =
        (.error (.signal (.raise raised (m.frames.findTarget env Run.isRescue))), m') ∧
      m'.exceptionKind? raised =
        some (Core.typeError.id, m.inspect v ++ " is not a class/module") := by
  let fault : Fault := .receiverNotAModule (m.inspect v)
  obtain ⟨m', failing, kind⟩ := Run.fail_eq (α := ModuleId) env fault m
  exact ⟨_, m', (Run.moduleArg_of_none other env).trans failing, kind⟩

/-- In a formed machine an object of a class below `Module` stands for a module that is there, or it
is plain, and whatever stands for a module has such a class. An allocation of a class below `Module`
makes a plain object. A method of modules that dispatch has found gets one or the other as its
receiver, also if the machine has gone on since: with an object that stands for a module it finds
the module, and with a plain one it raises a `TypeError`. -/
theorem module_receivers (formed : m.Formed) :
    (∀ program : Expr, program.isOrdinary = true → (m.runProgram program).2.Formed) ∧
    (∀ calls c e, CodedBlock false c.block → e.isOrdinary = true →
      (Run.eval (runEntry calls) c e m).2.Formed) ∧
    (∀ id o, m.heap.get? id = some o →
      (Core.moduleClass.id ∈ m.hierarchy.ancestors o.cls →
        o.payload = .plain ∨ ∃ cls, o.payload = .module cls ∧ cls.index < m.hierarchy.size) ∧
      ∀ cls, o.payload = .module cls → Core.moduleClass.id ∈ m.hierarchy.ancestors o.cls) ∧
    (∀ env receiver cls, m.module? receiver = some cls →
      Core.moduleClass.id ∈ m.hierarchy.ancestors cls →
        Run.allocateObject env receiver m = Run.newObject cls .plain m) ∧
    ∀ id method b, m.Finds id method → method.body.builtin? = some b → b.homes = [.moduleClass] →
      ∀ m', Deeds false m m' → ∃ o, m'.heap.get? id = some o ∧
        Core.moduleClass.id ∈ m'.hierarchy.ancestors o.cls ∧
        (o.payload ≠ .plain → ∃ cls, ∀ env, Run.moduleArg env (.object id) m' = (.ok cls, m')) ∧
        (o.payload = .plain → ∀ env, ∃ raised m'', Run.moduleArg env (.object id) m' =
            (.error (.signal (.raise raised (m'.frames.findTarget env Run.isRescue))), m'') ∧
          m''.exceptionKind? raised =
            some (Core.typeError.id, m'.inspect (.object id) ++ " is not a class/module")) := by
  refine ⟨fun program => formed.runProgram, fun calls _ _ code => formed.eval calls code, ?_, ?_,
    ?_⟩
  · intro id o at_id
    refine ⟨formed.standing at_id, ?_⟩
    intro cls is_module
    rw [formed.below_module_iff]
    refine (formed.kinds.fits id o at_id).module ?_
    rw [is_module]
    rfl
  · intro env receiver cls is_module below
    exact formed.allocateObject_below_module is_module below env
  · intro id method b finds native homes m' deeds
    have formed' := formed.deeds deeds
    obtain ⟨o, before, home, in_homes, above⟩ := formed.receiver finds native (by simp [homes])
    obtain rfl : home = .moduleClass := by simpa [homes] using in_homes
    obtain ⟨o', at_id, cls, -⟩ := deeds.object_kept before
    have below : Core.moduleClass.id ∈ m'.hierarchy.ancestors o'.cls := by
      rw [formed'.below_module_iff, cls, deeds.steps.grows.superclasses
        (formed.kinds.present id o before)]
      exact above
    refine ⟨o', at_id, below, ?_, ?_⟩
    · intro not_plain
      obtain ⟨cls, is_module, -⟩ := (formed'.standing at_id below).resolve_left not_plain
      exact ⟨cls, Run.moduleArg_of_some (module?_of_payload at_id is_module)⟩
    · intro is_plain
      exact moduleArg_raises (module?_of_plain at_id is_plain)

theorem stocked_below : Core.moduleClass.id ∈ stocked.hierarchy.ancestors Core.classClass.id := by
  decide +kernel

theorem stocked_allocated :
    ∃ o, stocked.heap.get? ⟨42⟩ = some o ∧ o.cls = Core.classClass.id := by
  have of_class : (stocked.heap.get? ⟨42⟩).map (·.cls) = some Core.classClass.id := by
    decide +kernel
  exact Option.map_eq_some_iff.1 of_class

theorem stocked_no_module : stocked.module? (.object ⟨42⟩) = none := by decide +kernel

theorem module_receivers_stocked :
    stocked.Formed ∧
    (∃ cls, ∀ env,
      Run.moduleArg env (.object Core.classClass.objectId) stocked = (.ok cls, stocked)) ∧
    (∀ env, Run.allocateObject env (.object Core.classClass.objectId) stocked =
      Run.newObject Core.classClass.id .plain stocked) ∧
    ∃ o, stocked.heap.get? ⟨42⟩ = some o ∧ o.cls = Core.classClass.id ∧ o.payload = .plain := by
  obtain ⟨-, -, standing, allocates, dispatched⟩ := module_receivers stocked_formed
  have is_class : stocked.module? (.object Core.classClass.objectId) = some Core.classClass.id := by
    decide +kernel
  refine ⟨stocked_formed, ?_, fun env => allocates env _ _ is_class stocked_below, ?_⟩
  · have found : (stocked.resolve Core.classClass.objectId "name").bind (·.body.builtin?) =
        some .moduleName := by decide +kernel
    obtain ⟨method, resolved, native⟩ := Option.bind_eq_some_iff.1 found
    obtain ⟨o, at_id, -, finds_module, -⟩ :=
      dispatched _ method _ (.send "name" resolved) native rfl stocked .refl
    refine finds_module ?_
    intro is_plain
    cases is_class.symm.trans (module?_of_plain at_id is_plain)
  · obtain ⟨o, at_id, cls⟩ := stocked_allocated
    obtain is_plain | ⟨_, is_module, -⟩ := (standing ⟨42⟩ o at_id).1 (cls ▸ stocked_below)
    · exact ⟨o, at_id, cls, is_plain⟩
    · cases stocked_no_module.symm.trans (module?_of_payload at_id is_module)

/-- The object of `Class` that was allocated does not stand for a module. Dispatch finds the `name`
of modules for it, and there the receiver raises a `TypeError`. -/
theorem name_meets_no_module :
    stocked.Formed ∧
    (∃ o, stocked.heap.get? ⟨42⟩ = some o ∧
      Core.moduleClass.id ∈ stocked.hierarchy.ancestors o.cls ∧ ∀ cls, o.payload ≠ .module cls) ∧
    ∃ method, stocked.Finds ⟨42⟩ method ∧ method.body.builtin? = some .moduleName ∧
      ∀ env, ∃ raised m', Run.moduleArg env (.object ⟨42⟩) stocked =
          (.error (.signal (.raise raised (stocked.frames.findTarget env Run.isRescue))), m') ∧
        m'.exceptionKind? raised = some (Core.typeError.id, "#<Class> is not a class/module") := by
  refine ⟨stocked_formed, ?_, ?_⟩
  · obtain ⟨o, at_id, cls⟩ := stocked_allocated
    refine ⟨o, at_id, cls ▸ stocked_below, ?_⟩
    intro _ is_module
    cases stocked_no_module.symm.trans (module?_of_payload at_id is_module)
  · have found : (stocked.resolve ⟨42⟩ "name").bind (·.body.builtin?) = some .moduleName := by
      decide +kernel
    obtain ⟨method, resolved, native⟩ := Option.bind_eq_some_iff.1 found
    have shown : stocked.inspect (.object ⟨42⟩) ++ " is not a class/module" =
        "#<Class> is not a class/module" := by decide +kernel
    refine ⟨method, .send "name" resolved, native, ?_⟩
    rw [← shown]
    exact moduleArg_raises stocked_no_module

end Machine

end ObjectRuntime
