import ObjectRuntime.Evaluate
import ObjectRuntime.Proofs.Dispatch.Operators
import ObjectRuntime.Proofs.Frame.Targets
import ObjectRuntime.Proofs.Machine.Entering
import ObjectRuntime.Trial

/-!
# Direct application and general dispatch agree

Where dispatch applies an operator directly, the general route ends alike: with the same value, or
with an exception of the same class and message on its way to the same target. The general route
makes objects of the receiver and perhaps of the argument, resolves the method, enters a call and
aims its faults from the frame of that call, which has no targets of its own.
-/

set_option autoImplicit false

namespace ObjectRuntime

def Machine.exceptionKind? (m : Machine) (id : ObjectId) : Option (ModuleId × String) :=
  (m.heap.get? id).bind fun o => o.exception?.map fun data => (o.cls, data.message)

/-- The same value, or an exception of the same kind on its way to the same target. -/
inductive EndsAlike : Except Exit Value × Machine → Except Exit Value × Machine → Prop where
  | value (v : Value) (m m' : Machine) : EndsAlike (.ok v, m) (.ok v, m')
  | raised (i j : ObjectId) (target : Option Token) (kind : ModuleId × String) (m m' : Machine)
      (left : m.exceptionKind? i = some kind) (right : m'.exceptionKind? j = some kind) :
      EndsAlike (.error (.signal (.raise i target)), m) (.error (.signal (.raise j target)), m')

structure Machine.Extends (m m' : Machine) : Prop where
  objects : ∀ id o, m.heap.get? id = some o → m'.heap.get? id = some o
  hierarchy : m'.hierarchy = m.hierarchy

/-- Only new objects were made, and no call was entered. -/
structure Machine.Prepares (m m' : Machine) : Prop extends m.Extends m' where
  frames : m'.frames = m.frames
  settings : m'.settings = m.settings
  depth : m'.depth = m.depth

def Machine.Knows (m : Machine) (v : Value) : Prop :=
  ∀ id, v = .object id → ∃ o, m.heap.get? id = some o

namespace Machine

variable {m m' m'' : Machine} {v w : Value}

theorem Extends.trans (first : m.Extends m') (second : m'.Extends m'') : m.Extends m'' := by
  refine ⟨?_, second.hierarchy.trans first.hierarchy⟩
  intro id o at_id
  exact second.objects id o (first.objects id o at_id)

theorem Extends.knows (extend : m.Extends m') (knows : m.Knows v) : m'.Knows v := by
  intro id at_object
  obtain ⟨o, at_id⟩ := knows id at_object
  exact ⟨o, extend.objects id o at_id⟩

theorem resolve_bare {id : ObjectId} {o : Object} {name : String} (at_id : m.heap.get? id = some o)
    (bare : o.singletonMethods = .empty) (no_module : o.module? = none) :
    m.resolve id name = m.hierarchy.findMethod o.cls name := by
  have no_singleton : m.singletonMethod? id name = none := by
    rw [singletonMethod?, at_id, Option.bind_some, bare, Bindings.get?_empty]
  have not_module : m.module? (.object id) = none := by
    change (m.heap.get? id).bind Object.module? = none
    rw [at_id, Option.bind_some, no_module]
  have cls : m.classOf (.object id) = o.cls := by
    rw [classOf, at_id, Option.map_some, Option.getD_some]
  rw [resolve, no_singleton, not_module, cls]
  rfl

theorem Prepares.refl (m : Machine) : m.Prepares m := ⟨⟨fun _ _ at_id => at_id, rfl⟩, rfl, rfl, rfl⟩

theorem Prepares.trans (first : m.Prepares m') (second : m'.Prepares m'') : m.Prepares m'' :=
  ⟨first.toExtends.trans second.toExtends, second.frames.trans first.frames,
    second.settings.trans first.settings, second.depth.trans first.depth⟩

theorem prepares_push (m : Machine) (o : Object) :
    m.Prepares { m with heap := m.heap.push o } := by
  refine ⟨⟨?_, rfl⟩, rfl, rfl, rfl⟩
  intro id other at_id
  rw [Heap.get?_push, if_neg]
  · exact at_id
  · rintro rfl
    rw [Heap.get?_next] at at_id
    cases at_id

theorem Extends.object? (extend : m.Extends m') (knows : m.Knows v) :
    m'.object? v = m.object? v := by
  cases v with
  | int i => rfl
  | float x => rfl
  | object id =>
    obtain ⟨o, at_id⟩ := knows id rfl
    exact (extend.objects id o at_id).trans at_id.symm

theorem Extends.payload? (extend : m.Extends m') (knows : m.Knows v) :
    m'.payload? v = m.payload? v := by
  rw [Machine.payload?, Machine.payload?, extend.object? knows]

theorem num?_of_payload? {id id' : ObjectId}
    (same : m'.payload? (.object id') = m.payload? (.object id)) :
    m'.num? (.object id') = m.num? (.object id) := by
  simp only [num?, int?, float?, same]

theorem Extends.num? (extend : m.Extends m') (knows : m.Knows v) : m'.num? v = m.num? v := by
  cases v with
  | int i => rfl
  | float x => rfl
  | object id => exact num?_of_payload? (extend.payload? knows)

theorem Extends.className (extend : m.Extends m') (id : ModuleId) :
    m'.className id = m.className id := by
  rw [Machine.className, Machine.className, moduleName?, moduleName?, extend.hierarchy]

theorem Extends.classOf (extend : m.Extends m') (knows : m.Knows v) :
    m'.classOf v = m.classOf v := by
  cases v with
  | int i => rfl
  | float x => rfl
  | object id =>
    have same : m'.heap.get? id = m.heap.get? id := extend.object? knows
    rw [Machine.classOf, Machine.classOf, same]

theorem Extends.inspect (extend : m.Extends m') (knows : m.Knows v) :
    m'.inspect v = m.inspect v := by
  cases v with
  | int i => rfl
  | float x => rfl
  | object id =>
    have same : m'.heap.get? id = m.heap.get? id := extend.object? knows
    have names : m'.className = m.className := funext extend.className
    rw [Machine.inspect, Machine.inspect, same, names]

theorem Extends.describeOperand (extend : m.Extends m') (knows : m.Knows v) :
    m'.describeOperand v = m.describeOperand v := by
  rw [Machine.describeOperand, Machine.describeOperand, extend.payload? knows,
    extend.inspect knows, extend.classOf knows, extend.className]

/-- An operator sees the numbers in its operands and, if the right one is none, its description. -/
theorem apply_congr (op : Operator) {left right left' right' : Value} {x : Num}
    (number : m.num? left = some x) (left_same : m'.num? left' = m.num? left)
    (right_same : m'.num? right' = m.num? right)
    (described : m.num? right = none → m'.describeOperand right' = m.describeOperand right) :
    m'.apply op left' right' = m.apply op left right := by
  rw [apply, apply, left_same, right_same, number]
  cases other : m.num? right with
  | none => exact congrArg (op.onOther x) (described other)
  | some y => cases x <;> cases y <;> rfl

end Machine

namespace Run

variable {α : Type}

/-! ### Faults -/

theorem recordBacktrace_kind (env : FrameId) (id other : ObjectId) (m : Machine) :
    (recordBacktrace env id m).2.exceptionKind? other = m.exceptionKind? other := by
  obtain recorded | recorded := recordBacktrace_cases env id m
  · rw [recorded]
  · rw [recorded]
    refine m.heap.bind_get?_modify id other
      (fun o => o.exception?.map fun data => (o.cls, data.message)) ?_
    intro o
    unfold Object.mapException
    split
    next before payload =>
      rw [Object.exception?, Object.exception?, payload]
      rfl
    next => rfl

theorem fail_eq (env : FrameId) (fault : Fault) (m : Machine) :
    ∃ m', (fail env fault : Run α) m =
        (.error (.signal (.raise m.heap.next (m.frames.findTarget env isRescue))), m') ∧
      m'.exceptionKind? m.heap.next = some (fault.cls, fault.message) := by
  let made : Machine :=
    { m with heap := m.heap.push (.ofPayload fault.cls (.exception fault.data)) }
  let recorded : Machine := (recordBacktrace env m.heap.next made).2
  refine ⟨(count .raised recorded).2, ?_, ?_⟩
  · have frames : recorded.frames = m.frames := recordBacktrace_frames env m.heap.next made
    change (Except.error (Exit.signal (Signal.raise m.heap.next
      (recorded.frames.findTarget env isRescue))), (count .raised recorded).2) = _
    rw [frames]
  · change recorded.exceptionKind? m.heap.next = _
    rw [recordBacktrace_kind, Machine.exceptionKind?, Heap.get?_push_next]
    rfl

theorem orFail_endsAlike {env env' : FrameId} {m m' : Machine} (outcome : Except Fault Value)
    (aimed : m'.frames.findTarget env' isRescue = m.frames.findTarget env isRescue) :
    EndsAlike (orFail env outcome m) (orFail env' outcome m') := by
  cases outcome with
  | ok v => exact .value v m m'
  | error fault =>
    obtain ⟨left, left_eq, left_kind⟩ := fail_eq (α := Value) env fault m
    obtain ⟨right, right_eq, right_kind⟩ := fail_eq (α := Value) env' fault m'
    change EndsAlike ((fail env fault : Run Value) m) ((fail env' fault : Run Value) m')
    rw [left_eq, right_eq, aimed]
    exact .raised _ _ _ _ _ _ left_kind right_kind

theorem endsAlike_afterward {m m' : Machine} {x y : Run Value} (alike : EndsAlike (x m) (y m'))
    (f : Machine → Machine) (heap : ∀ m, (f m).heap = m.heap) :
    EndsAlike (x m) (Run.afterward y f m') := by
  unfold Run.afterward
  generalize x m = left at alike
  generalize y m' = right at alike
  cases alike with
  | value v m m' => exact .value v m (f m')
  | raised i j target kind m m' left right =>
    refine .raised i j target kind m (f m') left ?_
    rw [Machine.exceptionKind?, heap]
    exact right

/-! ### The general route -/

/-- The method of an operator, called on an object, is the operator applied in a frame that sees the
targets of the caller. -/
theorem sendToObject_operator (env : FrameId) (kind : SendKind) (id : ObjectId) (selector : String)
    (argument : Value) (block : Option Block) (calls : Nat) {m : Machine} {o : Object}
    {method : Method} {op : Operator} (at_id : m.heap.get? id = some o)
    (bare : o.singletonMethods = .empty) (no_module : o.module? = none)
    (found : m.hierarchy.findMethod o.cls selector = some method) (runs : method.Runs op)
    (visible : method.isPublic = true) (allowed : allowsCall m = true)
    (present : env.index < m.frames.size) :
    ∃ inside frame previous, m.Extends inside ∧
      inside.frames.findTarget frame isRescue = m.frames.findTarget env isRescue ∧
      sendToObject (runEntry (calls + 1)) env kind id selector [argument] block m =
        afterward (orFail frame (inside.apply op (.object id) argument))
          (leaveCall frame previous) inside := by
  obtain ⟨-, arity, body⟩ := runs
  have resolved : Method.defined? (m.resolve id selector) = some method := by
    rw [Machine.resolve_bare at_id bare no_module, found, Method.defined?, Option.filter_some,
      Method.isUndefined, body]
    rfl
  have shown : method.visibility = .isPublic := by simpa [Method.isPublic] using visible
  have accepted : refusal? kind method = none := by
    unfold refusal?
    rw [shown]
    cases kind <;> rfl
  let frame : Frame := m.callFrame env (.object id)
    { Frame.fresh .method (ownerFrame m method.owner) with
      method := some method, block, ancestorIndex := none }
  refine ⟨m.entered frame, m.frames.next, m.current, ⟨fun _ _ there => there, rfl⟩, ?_, ?_⟩
  · rw [Frames.findTarget_eq_active, Frames.findTarget_eq_active]
    exact congrArg _ (congrArg _ (Frames.active_push_call m.frames rfl rfl present))
  · have called : sendToObject (runEntry (calls + 1)) env kind id selector [argument] block m =
        invoke (runEntry (calls + 1)) env method (.object id) [argument] block m := by
      unfold sendToObject
      simp only [run_bind, run_read, resolved, accepted]
    have takes : method.arity.accepts [argument].length = true := by
      rw [arity]
      rfl
    rw [called, invoke, invokeAt, body]
    simp only [run_bind, run_read]
    rw [invokeAt.enter, if_pos takes, inNewFrame_of_allowed allowed]
    rfl

/-- A number that is made an object is a new object of its class, without methods, and the same
number still. -/
theorem hydrate_eq {receiver : Value} {cls : ModuleId} {table : List Operator} (m : Machine)
    (at_receiver : directTable receiver = some (cls, table)) :
    ∃ id o m', hydrate receiver m = (.ok id, m') ∧ m.Prepares m' ∧ m'.heap.get? id = some o ∧
      o.cls = cls ∧ o.singletonMethods = .empty ∧ o.module? = none ∧
      m'.num? (.object id) = m.num? receiver ∧ (m.num? receiver).isSome := by
  cases receiver with
  | object id => cases at_receiver
  | int i =>
    obtain ⟨rfl, -⟩ := Prod.mk.inj (Option.some.inj at_receiver)
    refine ⟨m.heap.next, .ofPayload Core.integer.id (.int i), _, rfl, m.prepares_push _, ?_, rfl,
      rfl, rfl, ?_, rfl⟩
    · exact Heap.get?_push_next ..
    · simp [Machine.num?, Machine.int?, Machine.payload?, Machine.object?, Value.object?,
        Heap.get?_push, Object.ofPayload]
  | float x =>
    obtain ⟨rfl, -⟩ := Prod.mk.inj (Option.some.inj at_receiver)
    refine ⟨m.heap.next, .ofPayload Core.float.id (.float x), _, rfl, m.prepares_push _, ?_, rfl,
      rfl, rfl, ?_, rfl⟩
    · exact Heap.get?_push_next ..
    · simp [Machine.num?, Machine.int?, Machine.float?, Machine.payload?, Machine.object?,
        Value.object?, Heap.get?_push, Object.ofPayload]

theorem box_eq (boxed : Bool) {v : Value} {m : Machine} (knows : m.Knows v) :
    ∃ v' m', Trial.box boxed v m = (.ok v', m') ∧ m.Prepares m' ∧ m'.Knows v' ∧
      m'.num? v' = m.num? v ∧ (m.num? v = none → m'.describeOperand v' = m.describeOperand v) := by
  have unchanged : ∃ v' m', (pure v : Run Value) m = (.ok v', m') ∧ m.Prepares m' ∧ m'.Knows v' ∧
      m'.num? v' = m.num? v ∧ (m.num? v = none → m'.describeOperand v' = m.describeOperand v) :=
    ⟨v, m, rfl, .refl m, knows, rfl, fun _ => rfl⟩
  cases boxed with
  | false => exact unchanged
  | true =>
    cases at_v : directTable v with
    | none =>
      cases v with
      | object id => exact unchanged
      | int i => cases at_v
      | float x => cases at_v
    | some entry =>
      obtain ⟨id, o, m', made, prepares, at_id, -, -, -, same, is_number⟩ := hydrate_eq m at_v
      refine ⟨.object id, m', ?_, prepares, ?_, same, ?_⟩
      · change (hydrate v >>= fun id => pure (Value.object id)) m = _
        rw [run_bind, made]
        rfl
      · rintro other ⟨⟩
        exact ⟨o, at_id⟩
      · intro no_number
        rw [no_number] at is_number
        cases is_number

theorem directOperator?_eq_some {m : Machine} {receiver argument answer : Value} {selector : String}
    {op : Operator} (answers : directOperator? m receiver selector [argument] = some (op, answer)) :
    ∃ cls table method, directTable receiver = some (cls, table) ∧ answer = argument ∧
      m.hierarchy.findMethod cls selector = some method ∧ method.operator = some op ∧
        method.isPublic = true := by
  obtain ⟨⟨cls, table⟩, at_receiver, answers⟩ := Option.bind_eq_some_iff.1 answers
  obtain ⟨found_op, -, answers⟩ := Option.bind_eq_some_iff.1 answers
  obtain ⟨method, found, answers⟩ := Option.bind_eq_some_iff.1 answers
  split at answers
  next guard =>
    obtain ⟨rfl, rfl⟩ := Prod.mk.inj (Option.some.inj answers)
    exact ⟨cls, table, method, at_receiver, rfl, found, guard.1, guard.2⟩
  next => cases answers

theorem send_object (run : Runner) (env : FrameId) (kind : SendKind) (id : ObjectId)
    (selector : String) (args : List Value) (block : Option Block) (m : Machine) :
    send run env kind (.object id) selector args block m =
      sendToObject run env kind id selector args block (count .send m).2 := rfl

theorem send_direct {m : Machine} {receiver argument answer : Value} {selector : String}
    {op : Operator} (answers : directOperator? m receiver selector [argument] = some (op, answer))
    (run : Runner) (env : FrameId) (kind : SendKind) (block : Option Block) :
    ∃ counters, route receiver selector [argument] m =
        (.ok (.direct op receiver argument), { m with counters }) ∧
      send run env kind receiver selector [argument] block m =
        orFail env (m.apply op receiver argument) { m with counters } := by
  obtain ⟨-, -, -, -, rfl, -⟩ := directOperator?_eq_some answers
  let counted : Machine := (count .send m).2
  have still : directOperator? counted receiver selector [answer] = some (op, answer) := answers
  have routed : route receiver selector [answer] m =
      (.ok (.direct op receiver answer), (count .direct counted).2) := by
    rw [route, run_bind]
    change ((read fun m => directOperator? m receiver selector [answer]) >>= _) counted = _
    rw [run_bind, run_read, still]
    rfl
  refine ⟨_, routed, ?_⟩
  rw [send, run_bind, routed]
  rfl

theorem direct_endsAlike {m : Machine} (reachable : m.Reachable) {receiver argument answer : Value}
    {selector : String} {op : Operator}
    (answers : directOperator? m receiver selector [argument] = some (op, answer)) {env : FrameId}
    (present : env.index < m.frames.size) (knows : m.Knows argument) (allowed : allowsCall m = true)
    (boxed : Bool) (run : Runner) (calls : Nat) (kind kind' : SendKind)
    (block block' : Option Block) :
    EndsAlike (send run env kind receiver selector [argument] block m)
      ((do
        let receiver ← hydrate receiver
        let argument ← Trial.box boxed argument
        send (runEntry (calls + 1)) env kind' (.object receiver) selector [argument]
          block') m) := by
  obtain ⟨cls, table, method, at_receiver, rfl, found, carries, visible⟩ :=
    directOperator?_eq_some answers
  obtain ⟨counters, -, direct⟩ := send_direct answers run env kind block
  obtain ⟨id, o, made, hydrated, made_prepares, at_id, rfl, bare, no_module, left_same,
    is_number⟩ := hydrate_eq m at_receiver
  obtain ⟨right, ready, boxes, ready_prepares, right_knows, right_same, described⟩ :=
    box_eq boxed (made_prepares.knows knows)
  let counted : Machine := (count .send ready).2
  have prepares : m.Prepares counted :=
    (made_prepares.trans ready_prepares).trans ⟨⟨fun _ _ there => there, rfl⟩, rfl, rfl, rfl⟩
  have runs : method.Runs op := by
    rw [Hierarchy.findMethod_eq] at found
    obtain ⟨at_class, -, own⟩ := List.exists_of_findSome?_eq_some found
    exact (reachable.tagged.admitted at_class selector method own op carries).1
  obtain ⟨inside, frame, previous, extend, aimed, general⟩ :
      ∃ inside frame previous, counted.Extends inside ∧
        inside.frames.findTarget frame isRescue = counted.frames.findTarget env isRescue ∧
        sendToObject (runEntry (calls + 1)) env kind' id selector [right] block' counted =
          afterward (orFail frame (inside.apply op (.object id) right))
            (leaveCall frame previous) inside := by
    refine sendToObject_operator env kind' id selector right block' calls
      (ready_prepares.objects id o at_id) bare no_module ?_ runs visible ?_ ?_
    · rw [prepares.hierarchy]
      exact found
    · rw [allowsCall, prepares.settings, prepares.depth]
      exact allowed
    · rw [prepares.frames]
      exact present
  have ready_inside : ready.Extends inside := ⟨extend.objects, extend.hierarchy⟩
  have made_inside : made.Extends inside := ready_prepares.toExtends.trans ready_inside
  have applied : inside.apply op (.object id) right = m.apply op receiver answer := by
    obtain ⟨x, number⟩ := Option.isSome_iff_exists.1 is_number
    have same_argument := made_prepares.num? knows
    refine Machine.apply_congr op number ?_ ?_ ?_
    · rw [made_inside.num?, left_same]
      rintro other ⟨⟩
      exact ⟨o, at_id⟩
    · rw [ready_inside.num? right_knows, right_same, same_argument]
    · intro no_number
      rw [ready_inside.describeOperand right_knows, described (same_argument.trans no_number),
        made_prepares.describeOperand knows]
  have boxed_send : (do
      let receiver ← hydrate receiver
      let argument ← Trial.box boxed answer
      send (runEntry (calls + 1)) env kind' (.object receiver) selector [argument] block' :
        Run Value) m =
        afterward (orFail frame (m.apply op receiver answer)) (leaveCall frame previous)
          inside := by
    simp only [run_bind, hydrated, boxes]
    rw [send_object, ← applied]
    exact general
  rw [direct, boxed_send]
  have same_target :
      inside.frames.findTarget frame isRescue = m.frames.findTarget env isRescue := by
    rw [aimed, prepares.frames]
  have alike : EndsAlike (orFail env (m.apply op receiver answer) { m with counters })
      (orFail frame (m.apply op receiver answer) inside) := orFail_endsAlike _ same_target
  exact endsAlike_afterward alike _ fun _ => rfl

end Run

open Run in
/-- In every reachable machine a method that carries an operator is the built-in one, under its
selector; an operator whose entry on a numeric class was replaced or removed is not applied directly
any more, whatever happens next; and where an operator is applied directly, the general route ends
alike, while the direct one makes nothing and leaves the receiver immediate. -/
theorem operators_agree {m : Machine} (reachable : m.Reachable) :
    (∀ id name method op, m.hierarchy.ownMethod? id name = some method →
      method.operator = some op → name = op.selector ∧ method.Runs op) ∧
    (∀ id name method, m.hierarchy.ownClassMethod? id name = some method →
      method.operator = none) ∧
    (∀ id name method, m.singletonMethod? id name = some method → method.operator = none) ∧
    (∀ m' receiver cls table selector args, Steps m m' → directTable receiver = some (cls, table) →
      m.hierarchy.Released cls selector → directOperator? m' receiver selector args = none) ∧
    ∀ receiver selector argument op answer, directOperator? m receiver selector [argument] =
        some (op, answer) →
      ∀ env : FrameId, env.index < m.frames.size → m.Knows argument → allowsCall m = true →
        ∀ boxed run calls kind kind' block block',
          EndsAlike (send run env kind receiver selector [argument] block m)
            ((do
              let receiver ← hydrate receiver
              let argument ← Trial.box boxed argument
              send (runEntry (calls + 1)) env kind' (.object receiver) selector [argument]
                block') m) ∧
          ∀ v m', send run env kind receiver selector [argument] block m = (.ok v, m') →
            m'.heap = m.heap ∧
              (route receiver selector [argument] m).1 = .ok (.direct op receiver argument) := by
  refine ⟨?_, reachable.tagged.general, fun _ _ _ own => reachable.singleton_general own, ?_, ?_⟩
  · intro id name method op own carries
    have runs := (reachable.tagged.admitted id name method own op carries).1
    have named := reachable.tagged.named id name method own
    exact ⟨named.symm.trans runs.1, runs⟩
  · intro m' receiver cls table selector args steps at_receiver released
    exact directOperator?_of_released reachable steps at_receiver released args
  · intro receiver selector argument op answer answers env present knows allowed boxed run calls
      kind kind' block block'
    refine ⟨direct_endsAlike reachable answers present knows allowed boxed run calls kind kind'
      block block', ?_⟩
    intro v m' ending
    obtain ⟨counters, routed, direct⟩ := send_direct answers run env kind block
    refine ⟨?_, congrArg Prod.fst routed⟩
    rw [direct] at ending
    cases outcome : m.apply op receiver argument with
    | ok w =>
      rw [outcome] at ending
      exact congrArg (fun pair => pair.2.heap) ending.symm
    | error fault =>
      rw [outcome] at ending
      obtain ⟨_, failed, -⟩ := fail_eq (α := Value) env fault { m with counters }
      rw [orFail, failed] at ending
      cases ending

open Run in
theorem operators_agree_new :
    EndsAlike (send (runEntry 0) .main .anyMethod (.int 1) "+" [.int 1] none (.boot .standard))
      ((do
        let receiver ← hydrate (.int 1)
        let argument ← Trial.box true (.int 1)
        send (runEntry 1) .main .publicOnly (.object receiver) "+" [argument] none)
          (.boot .standard)) :=
  ((operators_agree ⟨.standard, .refl⟩).2.2.2.2 (.int 1) "+" (.int 1) .add (.int 1)
    (by decide +kernel) .main (by decide) nofun (by decide) true (runEntry 0) 0 .anyMethod
    .publicOnly none none).1

end ObjectRuntime
