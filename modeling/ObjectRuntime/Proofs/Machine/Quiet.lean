import ObjectRuntime.Proofs.Frame.Targets
import ObjectRuntime.Unwind

/-!
# Quiet computations

A computation is quiet if it runs to its end without entering a call or registering a handler. It
moves the machine by changes only, each of which keeps the frames of the calls, and a signal that
ends it is aimed as the handlers on the calling frames say in the machine that it leaves.
-/

set_option autoImplicit false

namespace ObjectRuntime

/-- A change that leaves the frames of all calls as they are. -/
structure Calm (P : Expr → Prop) (m m' : Machine) : Prop where
  change : Change P m m'
  keeps : m.frames.Keeps m'.frames

abbrev Calmly (P : Expr → Prop) : Machine → Machine → Prop := Relation.ReflTransGen (Calm P)

theorem Calmly.changes {P : Expr → Prop} {m m' : Machine} (calmly : Calmly P m m') :
    Changes P m m' :=
  Relation.ReflTransGen.mono (fun _ _ calm => calm.change) _ _ calmly

theorem Calmly.keeps {P : Expr → Prop} {m m' : Machine} (calmly : Calmly P m m') :
    m.frames.Keeps m'.frames := by
  induction calmly with
  | refl => exact .refl _
  | tail _ last ih => exact ih.trans last.keeps

theorem Calmly.valid {P : Expr → Prop} {m m' : Machine} (calmly : Calmly P m m')
    (valid : m.Valid P) : m'.Valid P := calmly.changes.valid valid

/-- The signal goes where a search from the frame leads now. -/
def Machine.Aims (m : Machine) (env : FrameId) : Signal → Prop
  | .raise _ target => target = m.frames.findTarget env Run.isRescue
  | .throw tag _ target => m.frames.findTarget env (Run.isCatchOf tag) = some target

namespace Run

structure Quietly {α : Type} (P : Expr → Prop) (env : FrameId) (m : Machine)
    (ending : Except Exit α × Machine) : Prop where
  calmly : Calmly P m ending.2
  aims : ∀ s, ending.1 = .error (.signal s) → ending.2.Aims env s

def QuietAt {α : Type} (P : Expr → Prop) (env : FrameId) (m : Machine) (x : Run α) : Prop :=
  m.Valid P → Quietly P env m (x m)

def Quiet {α : Type} (P : Expr → Prop) (env : FrameId) (x : Run α) : Prop := ∀ m, QuietAt P env m x

variable {α β : Type} {P : Expr → Prop} {env : FrameId} {m : Machine}

theorem QuietAt.of_valid {x : Run α} (quiet : m.Valid P → QuietAt P env m x) : QuietAt P env m x :=
  fun valid => quiet valid valid

theorem QuietAt.bind {x : Run α} {f : α → Run β} (first : QuietAt P env m x)
    (rest : ∀ a m', x m = (.ok a, m') → QuietAt P env m' (f a)) : QuietAt P env m (x >>= f) := by
  intro valid
  have before := first valid
  rw [run_bind]
  cases ending : x m with
  | mk outcome m' =>
    rw [ending] at before
    cases outcome with
    | ok a =>
      have after := rest a m' ending (before.calmly.valid valid)
      exact ⟨before.calmly.trans after.calmly, after.aims⟩
    | error e =>
      refine ⟨before.calmly, ?_⟩
      intro s is_signal
      obtain rfl := Except.error.inj is_signal
      exact before.aims s rfl

theorem Quiet.bind {x : Run α} {f : α → Run β} (first : Quiet P env x)
    (rest : ∀ a, Quiet P env (f a)) : Quiet P env (x >>= f) :=
  fun m => (first m).bind fun a m' _ => rest a m'

theorem QuietAt.read {f : Machine → α} {g : α → Run β} (rest : QuietAt P env m (g (f m))) :
    QuietAt P env m (Run.read f >>= g) := rest

theorem quiet_pure (a : α) : Quiet P env (pure a : Run α) := by
  intro m _
  refine ⟨.refl, ?_⟩
  intro s is_signal
  cases is_signal

theorem quiet_read (f : Machine → α) : Quiet P env (Run.read f) := by
  intro m _
  refine ⟨.refl, ?_⟩
  intro s is_signal
  cases is_signal

theorem quiet_malformed : Quiet P env (malformed : Run α) := by
  intro m _
  refine ⟨.refl, ?_⟩
  intro s is_signal
  cases is_signal

theorem quiet_malformed_bind (f : α → Run β) : Quiet P env (malformed >>= f) := by
  intro m
  refine (quiet_malformed m).bind ?_
  intro a m' ending
  cases ending

theorem quiet_ofOption (a : Option α) : Quiet P env (ofOption a) := by
  cases a with
  | none => exact quiet_malformed
  | some a => exact quiet_pure a

theorem quiet_modify {f : Machine → Machine} (calmly : ∀ m, m.Valid P → Calmly P m (f m)) :
    Quiet P env (Run.modify f) := by
  intro m valid
  refine ⟨calmly m valid, ?_⟩
  intro s is_signal
  cases is_signal

theorem quiet_update {f : Machine → α × Machine} (calmly : ∀ m, m.Valid P → Calmly P m (f m).2) :
    Quiet P env (Run.update f) := by
  intro m valid
  refine ⟨calmly m valid, ?_⟩
  intro s is_signal
  cases is_signal

theorem QuietAt.afterward {x : Run α} {f : Machine → Machine} (quiet : QuietAt P env m x)
    (calmly : ∀ m', m'.Valid P → Calmly P m' (f m'))
    (aims : ∀ m' s, m'.Aims env s → (f m').Aims env s) : QuietAt P env m (x.afterward f) := by
  intro valid
  have before := quiet valid
  refine ⟨before.calmly.trans (calmly _ (before.calmly.valid valid)), ?_⟩
  intro s is_signal
  exact aims _ s (before.aims s is_signal)

theorem quiet_forEach {f : α → Run Unit} (each : ∀ a, Quiet P env (f a)) (list : List α) :
    Quiet P env (forEach f list) := by
  induction list with
  | nil => exact quiet_pure ()
  | cons a rest ih => exact (each a).bind fun _ => ih

/-! ### Elementary steps -/

theorem quiet_allocate (cls : ModuleId) (payload : Payload) (code : payload.Satisfies P)
    (other : ∀ id, payload ≠ .module id) : Quiet P env (allocate (.ofPayload cls payload)) :=
  quiet_update fun _ _ => .single ⟨.make cls payload code other, .refl _⟩

theorem quiet_newObject (cls : ModuleId) (payload : Payload) (code : payload.Satisfies P)
    (other : ∀ id, payload ≠ .module id) : Quiet P env (newObject cls payload) :=
  (quiet_allocate cls payload code other).bind fun _ => quiet_pure _

theorem quiet_newText (content : String) : Quiet P env (newText content) :=
  quiet_newObject Core.string.id (.text content) trivial nofun

theorem quiet_newException (cls : ModuleId) (data : ExceptionData) :
    Quiet P env (newException cls data) :=
  quiet_allocate cls (.exception data) trivial nofun

theorem quiet_symbol (name : String) : Quiet P env (symbol name) := by
  intro m
  refine .read ?_
  split
  next id known => exact quiet_pure _ m
  next =>
    refine QuietAt.bind (quiet_allocate Core.symbol.id (.symbol name) trivial nofun m) ?_
    intro id m' _
    refine Quiet.bind (quiet_modify ?_) (fun _ => quiet_pure _) m'
    intro m' _
    exact .single ⟨.observe m'.globals (m'.symbols.insert name id) m'.missReason m'.counters m'.desk
      m'.heap.gate, .refl _⟩

theorem quiet_hydrate (v : Value) : Quiet P env (hydrate v) := by
  cases v with
  | object id => exact quiet_pure id
  | int i => exact quiet_allocate Core.integer.id (.int i) trivial nofun
  | float x => exact quiet_allocate Core.float.id (.float x) trivial nofun

theorem quiet_modifyObject (id : ObjectId) (f : Object → Object)
    (alike : ∀ o : Object, o.Alike (f o)) : Quiet P env (modifyObject id f) :=
  quiet_modify fun _ _ => .single ⟨.edit id f alike, .refl _⟩

theorem quiet_modifyFrame (id : FrameId) (f : Frame → Frame)
    (settled : ∀ frame : Frame, frame.Settled (f frame)) : Quiet P env (modifyFrame id f) :=
  quiet_modify fun m _ => .single ⟨.frame id f fun frame => (settled frame).toAlike,
    m.frames.keeps_modify id settled⟩

theorem quiet_count (event : Event) : Quiet P env (count event) :=
  quiet_modify fun m _ => .single ⟨.observe m.globals m.symbols m.missReason
    (m.counters.map fun c => c.count event 1) m.desk m.heap.gate, .refl _⟩

theorem quiet_setGlobal (name : String) (value : Value) : Quiet P env (setGlobal name value) :=
  quiet_modify fun m _ => .single ⟨.observe (m.globals.insert name value) m.symbols m.missReason
    m.counters m.desk m.heap.gate, .refl _⟩

theorem quiet_noteMiss (reason : MissReason) :
    Quiet P env (Run.modify fun m => { m with missReason := reason }) :=
  quiet_modify fun m _ => .single ⟨.observe m.globals m.symbols reason m.counters m.desk
    m.heap.gate, .refl _⟩

theorem quiet_modifyDesk (f : Desk → Desk) :
    Quiet P env (Run.modify fun m => { m with desk := f m.desk }) :=
  quiet_modify fun m _ => .single ⟨.observe m.globals m.symbols m.missReason m.counters (f m.desk)
    m.heap.gate, .refl _⟩

theorem quiet_log (answer : Answer) : Quiet P env (log answer) :=
  quiet_modifyDesk fun desk => { desk with log := answer :: desk.log }

theorem quiet_setRegister (name : String) (value : Value) : Quiet P env (setRegister name value) :=
  quiet_modifyDesk fun desk => { desk with registers := desk.registers.insert name value }

/-! ### Raising and throwing -/

theorem recordBacktrace_cases (from_frame : FrameId) (id : ObjectId) (m : Machine) :
    (recordBacktrace from_frame id m).2 = m ∨
      (recordBacktrace from_frame id m).2 =
        { m with heap := m.heap.modify id fun o =>
            o.mapException fun data => { data with backtrace := m.backtrace from_frame } } := by
  unfold recordBacktrace
  rw [run_modify]
  dsimp only
  split
  next data _ =>
    split
    next => exact .inr rfl
    next => exact .inl rfl
  next => exact .inl rfl

theorem recordBacktrace_frames (from_frame : FrameId) (id : ObjectId) (m : Machine) :
    (recordBacktrace from_frame id m).2.frames = m.frames := by
  obtain recorded | recorded := recordBacktrace_cases from_frame id m <;> rw [recorded]

theorem quiet_recordBacktrace (from_frame : FrameId) (id : ObjectId) :
    Quiet P env (recordBacktrace from_frame id) := by
  refine quiet_modify ?_
  intro m _
  split
  next data _ =>
    split
    next => exact .single ⟨.edit id _ fun o => o.mapException_alike _, .refl _⟩
    next => exact .refl
  next => exact .refl

theorem quiet_raiseException (env : FrameId) (id : ObjectId) :
    Quiet P env (raiseException env id : Run α) := by
  refine (quiet_recordBacktrace env id).bind fun _ => (quiet_count .raised).bind fun _ => ?_
  intro m _
  refine ⟨.refl, ?_⟩
  intro s is_signal
  obtain rfl := Exit.signal.inj (Except.error.inj is_signal)
  exact rfl

theorem quiet_fail (env : FrameId) (fault : Fault) : Quiet P env (fail env fault : Run α) :=
  (quiet_newException fault.cls fault.data).bind fun id => quiet_raiseException env id

theorem quiet_raise (env : FrameId) (v : Value) : Quiet P env (raise env v : Run α) := by
  intro m
  refine .read ?_
  split
  next id _ _ => exact quiet_raiseException env id m
  next => exact quiet_fail env _ m

theorem quiet_orFail (env : FrameId) (outcome : Except Fault α) :
    Quiet P env (orFail env outcome) := by
  cases outcome with
  | ok a => exact quiet_pure a
  | error fault => exact quiet_fail env fault

theorem quiet_throw (env : FrameId) (tag value : Value) :
    Quiet P env (throw env tag value : Run α) := by
  intro m
  refine .read ?_
  split
  next target found =>
    intro _
    refine ⟨.refl, ?_⟩
    intro s is_signal
    obtain rfl := Exit.signal.inj (Except.error.inj is_signal)
    exact found
  next => exact .read (quiet_fail env _ m)

end Run

end ObjectRuntime
