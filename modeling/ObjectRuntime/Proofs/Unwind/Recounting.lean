import ObjectRuntime.Proofs.Machine.Builtins
import ObjectRuntime.Proofs.Machine.Entering
import ObjectRuntime.Proofs.Unwind.Chronicles

/-!
# Computations that recount what they raise

A computation in a frame recounts what it raises if every chronicle of the machine that it starts on
goes on, step by step, to one of the machine that it leaves, and if the signal that ends it is one
that this chronicle tells of. Every way of composing computations keeps this, handlers and calls
among them, and so it is shown for one operation after the other.
-/

set_option autoImplicit false

namespace ObjectRuntime

open Chronicle (Path Reached)

/-! ### Moves without an incident -/

theorem Move.size_le {m m' : Machine} (move : Move m m') : m.frames.size ≤ m'.frames.size := by
  cases move with
  | operate calm => exact calm.keeps.size
  | enter f | openScope kind env linked =>
    exact Nat.le_trans (Nat.le_succ _) (Nat.le_of_eq (Frames.size_push ..).symm)
  | leave | register | withdraw | closeScope => exact Nat.le_of_eq (Frames.size_modify ..).symm

theorem Moves.size_le {m m' : Machine} (moves : Moves m m') : m.frames.size ≤ m'.frames.size := by
  induction moves with
  | refl => exact Nat.le_refl _
  | tail _ last ih => exact Nat.le_trans ih last.size_le

namespace Frames

variable {fs : Frames} {env id c : FrameId}

theorem caller?_push_cases {f : Frame} (calls : (fs.push f).caller? id = some c) :
    fs.caller? id = some c ∨ id = fs.next ∧ f.caller = some c := by
  rw [caller?, get?_push] at calls
  split at calls
  next same => exact .inr ⟨same, calls⟩
  next => exact .inl calls

theorem caller?_of_unlink {g : Frame → Frame} (unlinks : ∀ f : Frame, (g f).caller = none)
    (calls : (fs.modify env g).caller? id = some c) : fs.caller? id = some c := by
  obtain ⟨f', at_id, caller⟩ := Option.bind_eq_some_iff.1 calls
  obtain ⟨f, -, before, rfl⟩ | before := get?_modify_cases at_id
  · cases (unlinks f).symm.trans caller
  · exact Option.bind_eq_some_iff.2 ⟨f', before, caller⟩

end Frames

namespace Machine

variable {m m' : Machine} {env : FrameId}

namespace Passes

theorem of_calm (calm : Calm (fun _ => True) m m') (origin : ∀ id, m'.origin id = m.origin id)
    (kept : m'.desk.kept = m.desk.kept) : m.Passes m' where
  move := .operate calm
  origin := origin
  kept := kept
  older := fun id _ calls => .inl ((calm.keeps.caller id).symm.trans calls)

theorem of_tables (change : Change (fun _ => True) m m') (frames : m'.frames = m.frames)
    (heap : m'.heap = m.heap) (desk : m'.desk = m.desk) : m.Passes m' := by
  refine .of_calm ⟨change, frames ▸ .refl _⟩ ?_ (congrArg _ desk)
  intro id
  rw [Machine.origin, heap, Machine.origin]

theorem observe (globals : Bindings Value) (symbols : Bindings ObjectId) (missReason : MissReason)
    (counters : Option Counters) {desk : Desk} (gate : Gate) (kept : desk.kept = m.desk.kept) :
    m.Passes { m with globals, symbols, missReason, counters, desk, heap.gate := gate } :=
  .of_calm ⟨.observe globals symbols missReason counters desk gate, .refl _⟩ (fun _ => rfl) kept

theorem make (cls : ModuleId) {payload : Payload}
    (bare : (Object.ofPayload cls payload).origin = []) (other : ∀ id, payload ≠ .module id) :
    m.Passes { m with heap := m.heap.push (.ofPayload cls payload) } :=
  .of_calm ⟨.make cls payload (.of_all (fun _ => trivial) payload) other, .refl _⟩
    (origin_push bare) rfl

theorem edit (id : ObjectId) {f : Object → Object} (alike : ∀ o : Object, o.Alike (f o))
    (same : ∀ o : Object, (f o).origin = o.origin) :
    m.Passes { m with heap := m.heap.modify id f } :=
  .of_calm ⟨.edit id f alike, .refl _⟩ (origin_modify rfl same) rfl

theorem editFrame (id : FrameId) (f : Frame → Frame)
    (settled : ∀ frame : Frame, frame.Settled (f frame)) :
    m.Passes { m with frames := m.frames.modify id f } :=
  .of_calm ⟨.frame id f fun frame => (settled frame).toAlike, m.frames.keeps_modify id settled⟩
    (fun _ => rfl) rfl

theorem singleton (id : ObjectId) (method : Method) (general : method.operator = none)
    (other : m.module? (.object id) = none)
    (owner : ∀ o, m.heap.get? id = some o → method.owner = o.cls) :
    m.Passes { m with
      methodsMade := m.methodsMade + 1
      heap := m.heap.modify id fun o =>
        { o with singletonMethods := o.singletonMethods.insert method.name (m.stamped method) } } :=
  .of_calm ⟨.singleton id method (.of_all (fun _ => trivial) method) general other owner, .refl _⟩
    (origin_modify rfl fun _ => rfl) rfl

theorem withModule (name : String) (kind : ModuleKind) (superclass : Option ModuleId)
    (outer : Option FrameId) (metaclass : ModuleId)
    (root : kind = .moduleKind → superclass = none) :
    m.Passes (m.withModule name kind superclass outer metaclass) :=
  .of_calm ⟨.create name kind superclass outer metaclass root, m.frames.keeps_push ⟨rfl, rfl, rfl⟩⟩
    (origin_push rfl) rfl

theorem opened (m : Machine) (env : FrameId) (kind : TargetKind) :
    m.Passes (m.opened env kind) where
  move := .register env kind
  origin := fun _ => rfl
  kept := rfl
  older := fun id _ calls => .inl
    ((Frames.caller?_modify m.frames env id (fun f => f.pushTarget (m.nextTarget kind))
      fun _ => rfl).symm.trans calls)

theorem closed (m : Machine) (env : FrameId) (token : Token) : m.Passes (m.closed env token) where
  move := .withdraw env token
  origin := fun _ => rfl
  kept := rfl
  older := fun id _ calls => .inl
    ((Frames.caller?_modify m.frames env id (fun f => f.dropTarget token)
      fun _ => rfl).symm.trans calls)

theorem entered (present : env.index < m.frames.size) {f : Frame} (called : f.CalledFrom env) :
    m.Passes (m.entered f) where
  move := .enter f called.targets
  origin := fun _ => rfl
  kept := rfl
  older := by
    intro id c calls
    refine (Frames.caller?_push_cases calls).imp_right ?_
    rintro ⟨rfl, caller⟩
    cases called.caller.symm.trans caller
    exact present

theorem left (m : Machine) (frame : FrameId) (previous : Option FrameId) :
    m.Passes (Run.leaveCall frame previous m) where
  move := .leave frame previous
  origin := fun _ => rfl
  kept := rfl
  older := fun _ _ calls => .inl (Frames.caller?_of_unlink (fun _ => rfl) calls)

theorem scope (present : env.index < m.frames.size) (kind : FrameKind) (linked : Bool) :
    m.Passes (m.called (.scope kind env linked) m.current) where
  move := .openScope kind env linked
  origin := fun _ => rfl
  kept := rfl
  older := by
    intro id c calls
    refine (Frames.caller?_push_cases calls).imp_right ?_
    rintro ⟨rfl, caller⟩
    cases linked <;> cases caller
    exact present

theorem unlinked (m : Machine) (frame : FrameId) : m.Passes (Run.unlink frame m) where
  move := .closeScope frame
  origin := fun _ => rfl
  kept := rfl
  older := fun _ _ calls => .inl (Frames.caller?_of_unlink (fun _ => rfl) calls)

end Passes

end Machine

/-! ### Composing -/

namespace Run

variable {α β : Type} {env : FrameId} {c : Chronicle}

/-- From this chronicle the computation goes on to one that tells of the signal that ends it. -/
def RecountsAt (env : FrameId) (c : Chronicle) (x : Run α) : Prop :=
  c.Reached → env.index < c.machine.frames.size →
    ∃ d, Path c d ∧ d.machine = (x c.machine).2 ∧
      ∀ s, (x c.machine).1 = .error (.signal s) → d.Tells s

def Recounts (env : FrameId) (x : Run α) : Prop := ∀ c, RecountsAt env c x

theorem RecountsAt.of_reached {x : Run α} (recounts : c.Reached → RecountsAt env c x) :
    RecountsAt env c x :=
  fun reached => recounts reached reached

theorem RecountsAt.bind {x : Run α} {f : α → Run β} (first : RecountsAt env c x)
    (rest : ∀ a d, Path c d → x c.machine = (.ok a, d.machine) → RecountsAt env d (f a)) :
    RecountsAt env c (x >>= f) := by
  intro reached present
  obtain ⟨d, path, at_d, told⟩ := first reached present
  rw [run_bind]
  cases ending : x c.machine with
  | mk outcome m =>
    rw [ending] at at_d told
    subst at_d
    cases outcome with
    | ok a =>
      have still : env.index < d.machine.frames.size :=
        Nat.lt_of_lt_of_le present path.moves.size_le
      obtain ⟨e, later, at_e, tells⟩ := rest a d path ending (reached.path path) still
      exact ⟨e, path.trans later, at_e, tells⟩
    | error e =>
      refine ⟨d, path, rfl, ?_⟩
      intro s is_signal
      exact told s (congrArg Except.error (Except.error.inj is_signal))

theorem Recounts.bind {x : Run α} {f : α → Run β} (first : Recounts env x)
    (rest : ∀ a, Recounts env (f a)) : Recounts env (x >>= f) :=
  fun c => (first c).bind fun a d _ _ => rest a d

theorem RecountsAt.read {f : Machine → α} {g : α → Run β}
    (rest : RecountsAt env c (g (f c.machine))) : RecountsAt env c (Run.read f >>= g) := rest

/-- However the first computation ends, the rest may use that its signal is told of. -/
theorem RecountsAt.attempt {x : Run α} {f : Except Exit α → Run β} (first : RecountsAt env c x)
    (rest : ∀ outcome d, (∀ s, outcome = .error (.signal s) → d.Tells s) →
      RecountsAt env d (f outcome)) : RecountsAt env c (x.attempt >>= f) := by
  intro reached present
  obtain ⟨d, path, at_d, told⟩ := first reached present
  have still : env.index < d.machine.frames.size := Nat.lt_of_lt_of_le present path.moves.size_le
  obtain ⟨e, later, at_e, tells⟩ := rest _ d told (reached.path path) still
  have same : (x.attempt >>= f) c.machine = f (x c.machine).1 d.machine := by
    rw [at_d]
    rfl
  rw [same]
  exact ⟨e, path.trans later, at_e, tells⟩

theorem RecountsAt.of_passes {x : Run α} {a : α} {m : Machine}
    (ending : x c.machine = (.ok a, m)) (passes : c.machine.Passes m) : RecountsAt env c x := by
  intro _ _
  rw [ending]
  exact ⟨⟨c.incidents, m⟩, .single (.pass passes), rfl, nofun⟩

theorem recounts_pure (a : α) : Recounts env (pure a : Run α) :=
  fun c _ _ => ⟨c, .refl, rfl, nofun⟩

theorem recounts_read (f : Machine → α) : Recounts env (Run.read f) :=
  fun c _ _ => ⟨c, .refl, rfl, nofun⟩

theorem RecountsAt.exit {e : Exit} (told : ∀ s, e = .signal s → c.Tells s) :
    RecountsAt env c (exit e : Run α) := by
  intro _ _
  refine ⟨c, .refl, rfl, ?_⟩
  intro s is_signal
  exact told s (Except.error.inj is_signal)

theorem recounts_malformed : Recounts env (malformed : Run α) := fun _ => .exit nofun

theorem recounts_ofOption (found : Option α) : Recounts env (ofOption found) := by
  cases found with
  | none => exact recounts_malformed
  | some a => exact recounts_pure a

theorem recounts_modify {f : Machine → Machine} (passes : ∀ m : Machine, m.Passes (f m)) :
    Recounts env (Run.modify f) :=
  fun c => .of_passes rfl (passes c.machine)

theorem recounts_update {f : Machine → α × Machine} (passes : ∀ m : Machine, m.Passes (f m).2) :
    Recounts env (Run.update f) :=
  fun c => .of_passes rfl (passes c.machine)

theorem Recounts.afterward {x : Run α} {f : Machine → Machine} (recounts : Recounts env x)
    (passes : ∀ m : Machine, f m = m ∨ m.Passes (f m)) : Recounts env (x.afterward f) := by
  intro c reached present
  obtain ⟨d, path, at_d, told⟩ := recounts c reached present
  have done : (x.afterward f) c.machine = ((x c.machine).1, f d.machine) := by
    rw [at_d]
    rfl
  rw [done]
  obtain same | passes := passes d.machine
  · rw [same]
    exact ⟨d, path, rfl, told⟩
  · exact ⟨⟨d.incidents, f d.machine⟩, path.tail (.pass passes), rfl, fun s ends =>
      (told s ends).mono (List.prefix_refl _)⟩

theorem Recounts.times {x : Run α} (recounts : Recounts env x) (count : Nat) :
    Recounts env (Run.times count x) := by
  induction count with
  | zero => exact recounts_pure ()
  | succ count ih => exact recounts.bind fun _ => ih

theorem recounts_forEach {f : α → Run Unit} (each : ∀ a, Recounts env (f a)) (list : List α) :
    Recounts env (forEach f list) := by
  induction list with
  | nil => exact recounts_pure ()
  | cons a rest ih => exact (each a).bind fun _ => ih

/-! ### Elementary steps -/

theorem recounts_allocate (cls : ModuleId) (payload : Payload)
    (bare : (Object.ofPayload cls payload).origin = []) (other : ∀ id, payload ≠ .module id) :
    Recounts env (allocate (.ofPayload cls payload)) :=
  recounts_update fun _ => .make cls bare other

theorem recounts_newObject (cls : ModuleId) (payload : Payload)
    (bare : (Object.ofPayload cls payload).origin = []) (other : ∀ id, payload ≠ .module id) :
    Recounts env (newObject cls payload) :=
  (recounts_allocate cls payload bare other).bind fun _ => recounts_pure _

theorem recounts_newText (content : String) : Recounts env (newText content) :=
  recounts_newObject Core.string.id (.text content) rfl nofun

theorem recounts_modifyDesk (f : Desk → Desk) (kept : ∀ desk, (f desk).kept = desk.kept) :
    Recounts env (Run.modify fun m => { m with desk := f m.desk }) :=
  recounts_modify fun m =>
    .observe m.globals m.symbols m.missReason m.counters m.heap.gate (kept m.desk)

theorem recounts_log (answer : Answer) : Recounts env (log answer) :=
  recounts_modifyDesk (fun desk => { desk with log := answer :: desk.log }) fun _ => rfl

theorem recounts_setRegister (name : String) (value : Value) :
    Recounts env (setRegister name value) :=
  recounts_modifyDesk (fun desk => { desk with registers := desk.registers.insert name value })
    fun _ => rfl

theorem recounts_count (event : Event) : Recounts env (count event) :=
  recounts_modify fun m => .observe m.globals m.symbols m.missReason
    (m.counters.map fun c => c.count event 1) m.heap.gate rfl

theorem recounts_setGlobal (name : String) (value : Value) :
    Recounts env (setGlobal name value) :=
  recounts_modify fun m => .observe (m.globals.insert name value) m.symbols m.missReason m.counters
    m.heap.gate rfl

theorem recounts_noteMiss (reason : MissReason) :
    Recounts env (Run.modify fun m => { m with missReason := reason }) :=
  recounts_modify fun m => .observe m.globals m.symbols reason m.counters m.heap.gate rfl

theorem recounts_modifyFrame (id : FrameId) (f : Frame → Frame)
    (settled : ∀ frame : Frame, frame.Settled (f frame)) : Recounts env (modifyFrame id f) :=
  recounts_modify fun _ => .editFrame id f settled

theorem recounts_symbol (name : String) : Recounts env (symbol name) := by
  refine (recounts_read _).bind fun known => ?_
  split
  next id _ => exact recounts_pure _
  next =>
    refine (recounts_allocate Core.symbol.id (.symbol name) rfl nofun).bind fun id => ?_
    refine Recounts.bind (recounts_modify fun m => ?_) fun _ => recounts_pure _
    exact .observe m.globals (m.symbols.insert name id) m.missReason m.counters m.heap.gate rfl

theorem recounts_hydrate (v : Value) : Recounts env (hydrate v) := by
  cases v with
  | object id => exact recounts_pure id
  | int i => exact recounts_allocate Core.integer.id (.int i) rfl nofun
  | float x => exact recounts_allocate Core.float.id (.float x) rfl nofun

/-! ### Raising and throwing -/

theorem RecountsAt.raiseException {id : ObjectId} {data : ExceptionData} (from_frame : FrameId)
    (is : c.machine.exception? (.object id) = some data) :
    RecountsAt env c (raiseException from_frame id : Run α) := by
  intro _ _
  have recorded : Chronicle.Step c ⟨c.incidents ++ [⟨c.machine, from_frame, id, true⟩],
      (recordBacktrace from_frame id c.machine).2⟩ := .record from_frame id true data is nofun
  have frames := recordBacktrace_frames from_frame id c.machine
  let m := (recordBacktrace from_frame id c.machine).2
  have counted : m.Passes { m with counters := m.counters.map fun c => c.count .raised 1 } :=
    .observe m.globals m.symbols m.missReason _ m.heap.gate rfl
  refine ⟨_, (Relation.ReflTransGen.single recorded).tail (.pass counted), rfl, ?_⟩
  intro s is_signal
  obtain rfl := Exit.signal.inj (Except.error.inj is_signal)
  refine ⟨⟨c.machine, from_frame, id, true⟩, List.mem_append_right _ List.mem_cons_self, rfl, rfl,
    ?_⟩
  exact congrArg (fun fs : Frames => fs.findTarget from_frame isRescue) frames.symm

theorem recounts_fail (from_frame : FrameId) (fault : Fault) :
    Recounts env (fail from_frame fault : Run α) := by
  intro c reached present
  let made : Machine :=
    { c.machine with heap := c.machine.heap.push (.ofPayload fault.cls (.exception fault.data)) }
  have new : Chronicle.Step c ⟨c.incidents, made⟩ := .pass (.make fault.cls rfl nofun)
  have is : made.exception? (.object c.machine.heap.next) = some fault.data :=
    Machine.exception?_push fault.cls fault.data
  have raises : RecountsAt env ⟨c.incidents, made⟩
      (raiseException from_frame c.machine.heap.next : Run α) := .raiseException from_frame is
  obtain ⟨d, path, at_d, told⟩ := raises (reached.path (.single new)) present
  exact ⟨d, .head new path, at_d, told⟩

theorem recounts_raise (from_frame : FrameId) (v : Value) :
    Recounts env (raise from_frame v : Run α) := by
  intro c
  refine .read ?_
  split
  next id at_v is_exception =>
    obtain rfl := Value.object?_eq_some_iff.1 at_v
    obtain ⟨data, is⟩ := Option.isSome_iff_exists.1 is_exception
    exact .raiseException from_frame is
  next => exact recounts_fail from_frame _ c

theorem recounts_orFail (from_frame : FrameId) (outcome : Except Fault α) :
    Recounts env (orFail from_frame outcome) := by
  cases outcome with
  | ok a => exact recounts_pure a
  | error fault => exact recounts_fail from_frame fault

theorem recounts_throw (from_frame : FrameId) (tag value : Value) :
    Recounts env (throw from_frame tag value : Run α) := by
  refine (recounts_read _).bind fun target => ?_
  split
  next target =>
    refine fun c => .exit fun s is_signal => ?_
    obtain rfl := Exit.signal.inj is_signal
    trivial
  next => exact (recounts_read _).bind fun _ => recounts_fail from_frame _

/-! ### Handlers -/

theorem Recounts.withTarget {body : Run α} (recounts : Recounts env body) (kind : TargetKind)
    {f : Token × Except Exit α → Run β}
    (rest : ∀ token outcome d, (∀ s, outcome = .error (.signal s) → d.Tells s) →
      RecountsAt env d (f (token, outcome))) :
    Recounts env (Run.withTarget env kind body >>= f) := by
  intro c reached present
  have opens : Chronicle.Step c ⟨c.incidents, c.machine.opened env kind⟩ :=
    .pass (.opened c.machine env kind)
  have stays : env.index < (c.machine.opened env kind).frames.size :=
    Nat.lt_of_lt_of_le present (Path.moves (.single opens)).size_le
  obtain ⟨d, path, at_d, told⟩ :=
    recounts ⟨c.incidents, c.machine.opened env kind⟩ (reached.path (.single opens)) stays
  let token := (c.machine.nextTarget kind).token
  have closes : Chronicle.Step d ⟨d.incidents, d.machine.closed env token⟩ :=
    .pass (.closed d.machine env token)
  have whole : Path c ⟨d.incidents, d.machine.closed env token⟩ :=
    (Relation.ReflTransGen.head opens path).tail closes
  have same : (Run.withTarget env kind body >>= f) c.machine =
      f (token, (body (c.machine.opened env kind)).1) (d.machine.closed env token) := by
    rw [at_d]
    rfl
  obtain ⟨e, later, at_e, tells⟩ := rest token (body (c.machine.opened env kind)).1
    ⟨d.incidents, d.machine.closed env token⟩
    (fun s ends => (told s ends).mono (List.prefix_refl _)) (reached.path whole)
    (Nat.lt_of_lt_of_le present whole.moves.size_le)
  rw [same]
  exact ⟨e, whole.trans later, at_e, tells⟩

theorem recounts_rescue {body : Run Value} (recounts : Recounts env body) :
    Recounts env (rescue env body) := by
  refine recounts.withTarget .rescue ?_
  intro token outcome d told
  dsimp only
  split
  next => exact recounts_pure _ d
  next id target =>
    split
    next =>
      have delivered : Recounts env
          (modifyFrame env fun f => { f with exception := some (.object id) }) :=
        recounts_modifyFrame env _ fun _ => ⟨⟨rfl, rfl, rfl, rfl⟩, rfl, rfl⟩
      exact delivered.bind (fun _ => (recounts_setGlobal _ _).bind fun _ => recounts_pure _) d
    next => exact .exit fun s ends => told s (congrArg Except.error ends)
  next e _ => exact .exit fun s ends => told s (congrArg Except.error ends)

theorem recounts_catching {tag : Value} {body : Run Value} (recounts : Recounts env body) :
    Recounts env (catching env tag body) := by
  refine recounts.withTarget (.catching tag) ?_
  intro token outcome d told
  dsimp only
  split
  next =>
    split
    next => exact recounts_pure _ d
    next => exact .exit fun s ends => told s (congrArg Except.error ends)
  next => exact fun _ _ => ⟨d, .refl, rfl, told⟩

theorem recounts_ensure {body : Run α} {cleanup : Run Unit} (recounts : Recounts env body)
    (cleanup_recounts : Recounts env cleanup) : Recounts env (ensure body cleanup) := by
  intro c
  refine (recounts c).attempt ?_
  intro outcome d told
  split
  next value => exact cleanup_recounts.bind (fun _ => recounts_pure value) d
  next s =>
    -- the signal of the body is still told of when the cleanup has run
    refine (cleanup_recounts d).bind fun _ e later _ => .exit fun s' is_signal => ?_
    rw [← Exit.signal.inj is_signal]
    exact (told s rfl).mono later.incidents
  next e _ => exact .exit fun s ends => told s (congrArg Except.error ends)

/-- The report of a throw makes an exception of its own and records where the report is made. -/
theorem recounts_uncaught (s : Signal) : Recounts env (uncaught .main s) := by
  cases s with
  | raise id target => exact recounts_read _
  | throw tag value target =>
    refine (recounts_read _).bind fun shown c reached present => ?_
    let cls := Core.uncaughtThrowError.id
    let data := (Fault.uncaughtThrow shown).data
    let made : Machine :=
      { c.machine with heap := c.machine.heap.push (.ofPayload cls (.exception data)) }
    let id := c.machine.heap.next
    have new : Chronicle.Step c ⟨c.incidents, made⟩ := .pass (.make cls rfl nofun)
    have is : made.exception? (.object id) = some data := Machine.exception?_push cls data
    have recorded : Chronicle.Step ⟨c.incidents, made⟩ ⟨c.incidents ++ [⟨made, .main, id, false⟩],
        (recordBacktrace .main id made).2⟩ :=
      .record .main id false data is fun _ => ⟨rfl, (Heap.size_push ..).symm⟩
    exact ⟨_, (Relation.ReflTransGen.single new).tail recorded, rfl, nofun⟩

end Run

end ObjectRuntime
