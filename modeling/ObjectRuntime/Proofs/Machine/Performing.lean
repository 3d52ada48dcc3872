import ObjectRuntime.Evaluate
import ObjectRuntime.Proofs.Machine.Deeds

/-!
# Operations are deeds

A computation performs deeds if every machine whose code is in order goes on to the one it leaves by
deeds, however the computation ends. Here this is shown for the operations that call nothing. What
an operation has found out about the machine before a deed is what the deed needs: that a value
stands for a module, that an object is not a number, that an exception was never raised.
-/

set_option autoImplicit false

namespace ObjectRuntime

variable {free : Bool} {m : Machine}

theorem Permits.free_of_false (permits : Permits free false) : free = true :=
  permits.resolve_right Bool.false_ne_true

/-! ### Frames in order -/

theorem Machine.Coded.pushFrame (coded : m.Coded free) {f : Frame} (f_coded : f.Coded free)
    {id : FrameId} {frame : Frame} (at_id : (m.frames.push f).get? id = some frame) :
    frame.Coded free := by
  obtain rfl | before := Frames.get?_push_cases at_id
  · exact f_coded
  · exact coded.frame before

theorem Machine.Coded.editFrame (coded : m.Coded free) (id : FrameId) (f : Frame → Frame)
    (method : ∀ frame, (f frame).method = frame.method)
    (block : ∀ frame, (f frame).block = frame.block) {other : FrameId} {frame : Frame}
    (at_other : (m.frames.modify id f).get? other = some frame) : frame.Coded free := by
  obtain ⟨before, -, was, rfl⟩ | was := Frames.get?_modify_cases at_other
  · have ok := coded.frame was
    refine ⟨?_, ?_⟩
    · rw [method]
      exact ok.method
    · rw [block]
      exact ok.block
  · exact coded.frame was

theorem Frame.Coded.of_none {f : Frame} (no_method : f.method = none) (no_block : f.block = none) :
    f.Coded free := by
  refine ⟨?_, ?_⟩
  · intro method is
    cases no_method.symm.trans is
  · intro b is
    cases no_block.symm.trans is

namespace Run

/-- On this machine the computation performs deeds. -/
def PerformsAt {α : Type} (free : Bool) (m : Machine) (x : Run α) : Prop :=
  m.Coded free → Deeds free m (x m).2

def Performs {α : Type} (free : Bool) (x : Run α) : Prop := ∀ m, PerformsAt free m x

variable {α β : Type} {env : FrameId}

theorem PerformsAt.of_coded {x : Run α} (performs : m.Coded free → PerformsAt free m x) :
    PerformsAt free m x :=
  fun coded => performs coded coded

theorem PerformsAt.bind {x : Run α} {f : α → Run β} (first : PerformsAt free m x)
    (rest : ∀ a m', x m = (.ok a, m') → PerformsAt free m' (f a)) :
    PerformsAt free m (x >>= f) := by
  intro coded
  have before := first coded
  rw [run_bind]
  cases ending : x m with
  | mk outcome m' =>
    rw [ending] at before
    cases outcome with
    | ok a => exact before.trans (rest a m' ending (before.coded coded))
    | error e => exact before

theorem Performs.bind {x : Run α} {f : α → Run β} (first : Performs free x)
    (rest : ∀ a, Performs free (f a)) : Performs free (x >>= f) :=
  fun m => (first m).bind fun a m' _ => rest a m'

/-- What is read is known to be read from this machine. -/
theorem PerformsAt.read {f : Machine → α} {g : α → Run β} (rest : PerformsAt free m (g (f m))) :
    PerformsAt free m (Run.read f >>= g) := rest

theorem performs_pure (a : α) : Performs free (pure a : Run α) := fun _ _ => .refl
theorem performs_exit (e : Exit) : Performs free (exit e : Run α) := fun _ _ => .refl
theorem performs_read (f : Machine → α) : Performs free (Run.read f) := fun _ _ => .refl

theorem performs_ofOption (found : Option α) : Performs free (ofOption found) := by
  cases found with
  | none => exact performs_exit _
  | some a => exact performs_pure a

theorem PerformsAt.ofOption {found : Option α} {f : α → Run β}
    (rest : ∀ a, found = some a → PerformsAt free m (f a)) :
    PerformsAt free m (Run.ofOption found >>= f) := by
  cases found with
  | none => exact fun _ => .refl
  | some a => exact rest a rfl

theorem performs_modify {f : Machine → Machine} (deeds : ∀ m, m.Coded free → Deeds free m (f m)) :
    Performs free (Run.modify f) := deeds

theorem performs_update {f : Machine → α × Machine}
    (deeds : ∀ m, m.Coded free → Deeds free m (f m).2) : Performs free (Run.update f) := deeds

theorem Performs.attempt {x : Run α} (performs : Performs free x) : Performs free x.attempt :=
  performs

theorem Performs.afterward {x : Run α} {f : Machine → Machine} (performs : Performs free x)
    (deeds : ∀ m, m.Coded free → Deeds free m (f m)) : Performs free (x.afterward f) :=
  fun m coded => (performs m coded).trans (deeds _ ((performs m coded).coded coded))

theorem Performs.times {x : Run α} (performs : Performs free x) (count : Nat) :
    Performs free (Run.times count x) := by
  induction count with
  | zero => exact performs_pure ()
  | succ count ih => exact performs.bind fun _ => ih

theorem performs_forEach {f : α → Run Unit} (each : ∀ a, Performs free (f a)) (list : List α) :
    Performs free (forEach f list) := by
  induction list with
  | nil => exact performs_pure ()
  | cons a rest ih => exact (each a).bind fun _ => ih

/-! ### Elementary steps -/

theorem PerformsAt.allocate {cls : ModuleId} {payload : Payload}
    (makes : m.Makes free cls payload) : PerformsAt free m (allocate (.ofPayload cls payload)) :=
  fun _ => .single (.make cls payload makes)

theorem PerformsAt.newObject {cls : ModuleId} {payload : Payload}
    (makes : m.Makes free cls payload) : PerformsAt free m (newObject cls payload) :=
  (PerformsAt.allocate makes).bind fun _ m' _ => performs_pure _ m'

theorem performs_newText (content : String) : Performs free (newText content) :=
  fun _ => .newObject (.text content)

theorem performs_symbol (name : String) : Performs free (symbol name) := by
  intro m
  refine .read ?_
  split
  next id _ => exact performs_pure _ m
  next unknown => exact fun _ => .single (.symbol name unknown)

theorem performs_hydrate (v : Value) : Performs free (hydrate v) := by
  cases v with
  | object id => exact performs_pure id
  | int i => exact fun _ => .allocate (.int i)
  | float x => exact fun _ => .allocate (.float x)

theorem performs_count (event : Event) : Performs free (count event) :=
  performs_modify fun m _ => .single (.observe m.globals m.missReason
    (m.counters.map fun c => c.count event 1) m.desk m.heap.gate)

theorem performs_setGlobal (name : String) (value : Value) : Performs free (setGlobal name value) :=
  performs_modify fun m _ => .single (.observe (m.globals.insert name value) m.missReason m.counters
    m.desk m.heap.gate)

theorem performs_noteMiss (reason : MissReason) :
    Performs free (Run.modify fun m => { m with missReason := reason }) :=
  performs_modify fun m _ => .single (.observe m.globals reason m.counters m.desk m.heap.gate)

theorem deeds_desk (free : Bool) (m : Machine) (desk : Desk) :
    Deeds free m { m with desk } :=
  .single (.observe m.globals m.missReason m.counters desk m.heap.gate)

theorem performs_log (answer : Answer) : Performs free (log answer) :=
  performs_modify fun m _ => deeds_desk free m _

theorem performs_setRegister (name : String) (value : Value) :
    Performs free (setRegister name value) :=
  performs_modify fun m _ => deeds_desk free m _

theorem deeds_frames {frames : Frames} (coded : ∀ id f, frames.get? id = some f → f.Coded free) :
    Deeds free m { m with frames } :=
  .single (.call frames m.current m.depth m.tokens coded)

theorem performs_modifyFrame (id : FrameId) (f : Frame → Frame)
    (method : ∀ frame, (f frame).method = frame.method)
    (block : ∀ frame, (f frame).block = frame.block) : Performs free (modifyFrame id f) :=
  performs_modify fun _ coded => deeds_frames fun _ _ => coded.editFrame id f method block

theorem performs_newFrame {f : Frame} (f_coded : f.Coded free) : Performs free (newFrame f) :=
  performs_update fun _ coded => deeds_frames fun _ _ => coded.pushFrame f_coded

theorem performs_newToken : Performs free newToken :=
  performs_update fun m coded =>
    .single (.call m.frames m.current m.depth (m.tokens + 1) fun _ _ => coded.frame)

/-! ### Raising and throwing -/

theorem performs_recordBacktrace (env : FrameId) (id : ObjectId) :
    Performs free (recordBacktrace env id) := by
  refine performs_modify ?_
  intro m _
  split
  next data is_exception =>
    split
    next unraised =>
      exact .single (.backtrace env id data is_exception (List.isEmpty_iff.1 unraised))
    next => exact .refl
  next => exact .refl

theorem performs_raiseException (env : FrameId) (id : ObjectId) :
    Performs free (raiseException env id : Run α) :=
  (performs_recordBacktrace env id).bind fun _ => (performs_count .raised).bind fun _ =>
    (performs_read _).bind fun _ => performs_exit _

theorem performs_fail (env : FrameId) {fault : Fault} (ordinary : Permits free fault.isOrdinary) :
    Performs free (fail env fault : Run α) := by
  intro m
  refine PerformsAt.bind (.allocate (.fault fault ordinary)) ?_
  exact fun id m' _ => performs_raiseException env id m'

theorem performs_raise (env : FrameId) (v : Value) : Performs free (raise env v : Run α) := by
  intro m
  refine .read ?_
  split
  next id _ _ => exact performs_raiseException env id m
  next => exact performs_fail env (.inr rfl) m

theorem performs_orFail (env : FrameId) {outcome : Except Fault α}
    (ordinary : ∀ fault, outcome = .error fault → fault.isOrdinary = true) :
    Performs free (orFail env outcome) := by
  cases outcome with
  | ok a => exact performs_pure a
  | error fault => exact performs_fail env (.inr (ordinary fault rfl))

theorem performs_throw (env : FrameId) (tag value : Value) :
    Performs free (throw env tag value : Run α) := by
  intro m
  refine .read ?_
  split
  next => exact performs_exit _ m
  next => exact .read (performs_fail env (.inr rfl) m)

/-! ### Handlers -/

theorem performs_withTarget {kind : TargetKind} {body : Run α} (performs : Performs free body) :
    Performs free (withTarget env kind body) := by
  refine performs_newToken.bind fun token => ?_
  refine Performs.bind (performs_modifyFrame env _ (fun _ => rfl) fun _ => rfl) fun _ => ?_
  refine performs.attempt.bind fun outcome => ?_
  exact Performs.bind (performs_modifyFrame env _ (fun _ => rfl) fun _ => rfl) fun _ =>
    performs_pure _

theorem performs_rescue {body : Run Value} (performs : Performs free body) :
    Performs free (rescue env body) := by
  refine (performs_withTarget performs).bind ?_
  rintro ⟨token, outcome⟩
  dsimp only
  split
  next => exact performs_pure _
  next id target =>
    split
    next =>
      exact Performs.bind (performs_modifyFrame env _ (fun _ => rfl) fun _ => rfl) fun _ =>
        (performs_setGlobal _ _).bind fun _ => performs_pure _
    next => exact performs_exit _
  next => exact performs_exit _

theorem performs_catching {tag : Value} {body : Run Value} (performs : Performs free body) :
    Performs free (catching env tag body) := by
  refine (performs_withTarget performs).bind ?_
  rintro ⟨token, outcome⟩
  dsimp only
  split
  next =>
    split
    next => exact performs_pure _
    next => exact performs_exit _
  next => exact fun _ _ => .refl

theorem performs_ensure {body : Run α} {cleanup : Run Unit} (performs : Performs free body)
    (cleanup_performs : Performs free cleanup) : Performs free (ensure body cleanup) := by
  refine performs.attempt.bind ?_
  intro outcome
  split
  next value => exact cleanup_performs.bind fun _ => performs_pure value
  next s => exact cleanup_performs.bind fun _ => performs_exit _
  next => exact performs_exit _

theorem performs_uncaught (env : FrameId) (s : Signal) : Performs free (uncaught env s) := by
  cases s with
  | raise id target => exact performs_read _
  | throw tag value target =>
    refine (performs_read _).bind fun shown m => ?_
    refine PerformsAt.bind (.allocate (.fault (.uncaughtThrow shown) (.inr rfl))) ?_
    exact fun id m' _ =>
      (performs_recordBacktrace env id).bind (fun _ => performs_read _) m'

/-! ### Classes, modules, methods and variables -/

theorem performs_createModule (lexical : FrameId) (name : String) (kind : ModuleKind)
    (superclass : Option ModuleId) (outer : Option FrameId)
    (root : kind = .moduleKind → superclass = none) :
    Performs free (createModule lexical name kind superclass outer) := by
  intro m coded
  have made : Deed free m _ := .create name kind superclass outer root
  have bound := (Relation.ReflTransGen.single made).trans
    (deeds_frames fun _ _ => (made.coded coded).editFrame lexical
      (fun f => f.define name (.object m.heap.next)) (fun _ => rfl) fun _ => rfl)
  cases kind with
  | classKind => exact bound
  | moduleKind => exact bound

theorem performs_openClass (lexical : FrameId) (name : String) (superclass : Option ModuleId) :
    Performs free (openClass lexical name superclass) := by
  intro m
  refine .read ?_
  split
  next existing _ =>
    refine .read ?_
    split
    next => exact performs_fail lexical (.inr rfl) m
    next id _ =>
      refine .read ?_
      split
      next => exact performs_pure id m
      next => exact performs_fail lexical (.inr rfl) m
  next => exact .read (performs_createModule lexical name .classKind _ _ nofun m)

theorem performs_openModule (lexical : FrameId) (name : String) :
    Performs free (openModule lexical name) := by
  intro m
  refine .read ?_
  split
  next existing _ =>
    refine .read ?_
    split
    next => exact performs_fail lexical (.inr rfl) m
    next id _ => exact performs_pure id m
  next => exact performs_createModule lexical name .moduleKind none _ (fun _ => rfl) m

theorem performs_defineMethod (method : Method) (code : method.Satisfies (Ordinary free))
    (written : Permits free method.body.builtin?.isNone) (general : method.operator = none) :
    Performs free (defineMethod method) :=
  fun _ _ => .single (.define method code written general)

theorem performs_defineSingleton (env : FrameId) (target : Value) (name : String) (arity : Arity)
    (body : Body) (code : body.Satisfies (Ordinary free)) (written : body.builtin? = none) :
    Performs free (defineSingleton env target name arity body) := by
  intro m
  refine .read ?_
  split
  next => exact performs_fail env (.inr rfl) m
  next id unboxed =>
    obtain ⟨at_target, -⟩ := Option.filter_eq_some_iff.1 unboxed
    obtain rfl := Value.object?_eq_some_iff.1 at_target
    refine .read ?_
    split
    next cls is_module =>
      exact fun _ => .single (.defineClassMethod (.plain name cls arity body) code written rfl)
    next not_module =>
      refine .read fun _ => .single (.singleton id (.plain name (m.classOf (.object id)) arity body)
        code written rfl unboxed not_module ?_)
      intro o at_id
      change ((m.heap.get? id).map (·.cls)).getD Core.object.id = o.cls
      rw [at_id]
      rfl

theorem performs_includeModule (env : FrameId) (target : ModuleId) {id : ModuleId}
    (present : id.index < m.hierarchy.size) :
    PerformsAt free m (includeModule env target id) := by
  refine .read ?_
  split
  next after done => exact fun _ => .single (.includeModule target id after present done)
  next => exact performs_fail env (.inr rfl) m
  next => exact .read (performs_fail env (.inr rfl) m)

theorem performs_removeMethod (env : FrameId) (owner : ModuleId) (name : String) :
    Performs free (removeMethod env owner name) := by
  intro m
  refine .read ?_
  split
  next => exact fun _ => .single (.remove owner name)
  next => exact .read (performs_fail env (.inr rfl) m)

theorem performs_failNotFound (env : FrameId) (owner : ModuleId) (name : String) :
    Performs free (failNotFound env owner name : Run α) :=
  fun m => .read (performs_fail env (.inr rfl) m)

theorem performs_undefMethod (env : FrameId) (owner : ModuleId) (name : String) :
    Performs free (undefMethod env owner name) := by
  intro m
  refine .read ?_
  split
  next => exact performs_defineMethod (.undefined name owner) trivial (.inr rfl) rfl m
  next => exact performs_failNotFound env owner name m

theorem performs_setVisibility (env : FrameId) (owner : ModuleId) (name : String)
    (visibility : Visibility) : Performs free (setVisibility env owner name visibility) := by
  intro m
  refine .read ?_
  split
  next method is_found =>
    obtain ⟨found, -⟩ := Option.filter_eq_some_iff.1 is_found
    exact fun _ => .single (.retag owner name visibility method found)
  next => exact performs_failNotFound env owner name m

theorem performs_checkIvarName (env : FrameId) (name : String) :
    Performs free (checkIvarName env name) := by
  unfold checkIvarName
  split
  next => exact performs_pure ()
  next => exact performs_fail env (.inr rfl)

theorem performs_ivarGet (env : FrameId) (receiver : Value) (name : String) :
    Performs free (ivarGet env receiver name) :=
  (performs_checkIvarName env name).bind fun _ => (performs_read _).bind fun _ => performs_pure _

theorem performs_ivarSet (env : FrameId) (receiver : Value) (name : String) (value : Value) :
    Performs free (ivarSet env receiver name value) := by
  refine (performs_checkIvarName env name).bind ?_
  intro _ m
  refine .read ?_
  split
  next id unboxed =>
    have reference : m.unboxed? (.object id) = some id := by
      obtain ⟨at_receiver, unboxed⟩ := Option.filter_eq_some_iff.1 unboxed
      exact Option.filter_eq_some_iff.2 ⟨rfl, unboxed⟩
    exact fun _ => .single (.setVariable id name value reference)
  next => exact .read (performs_fail env (.inr rfl) m)

theorem performs_identityOf (v : Value) : Performs free (identityOf v) := by
  intro m
  refine .read ?_
  split
  next i _ => exact performs_pure _ m
  next => exact (performs_hydrate v).bind (fun _ => performs_pure _) m

/-! ### Observing -/

theorem performs_setGate (gate : Gate) : Performs free (setGate gate) :=
  performs_modify fun m _ => .single (.observe m.globals m.missReason m.counters m.desk gate)

theorem performs_collect : Performs free collect := by
  intro m
  refine .read ?_
  split
  next allowed gate _ =>
    refine (performs_setGate gate).bind ?_ m
    intro _ m
    split
    next => exact .read (performs_pure _ m)
    next => exact performs_pure _ m

theorem performs_ask (env : FrameId) (q : Question) (operands : List Value) :
    Performs free (ask env q operands) := by
  unfold ask
  split
  next => exact performs_collect.bind fun reached => performs_log _
  next => exact (performs_read _).bind fun _ => (performs_ofOption _).bind fun _ => performs_log _

theorem performs_hydrateRegister (name : String) : Performs free (hydrateRegister name) :=
  (performs_read _).bind fun _ => (performs_ofOption _).bind fun v => (performs_hydrate v).bind
    fun _ => (performs_setRegister name _).bind fun _ => performs_pure _

mutual

theorem performs_paused (env : FrameId) (steps : List PauseStep) :
    Performs free (paused env steps) := by
  intro m
  rw [paused]
  refine .read ?_
  split
  next guard gate _ =>
    refine (performs_setGate gate).bind ?_ m
    intro _
    refine (performs_pausedSteps env steps).afterward ?_
    exact fun m _ => .single (.observe m.globals m.missReason m.counters m.desk
      (m.heap.gate.release guard))

theorem performs_pausedSteps (env : FrameId) (steps : List PauseStep) :
    Performs free (pausedSteps env steps) := by
  cases steps with
  | nil =>
    rw [pausedSteps]
    exact performs_pure ()
  | cons step rest =>
    rw [pausedSteps]
    exact (performs_pauseStep env step).bind fun _ => performs_pausedSteps env rest

theorem performs_pauseStep (env : FrameId) (step : PauseStep) :
    Performs free (pauseStep env step) := by
  cases step with
  | hydrate register =>
    rw [pauseStep]
    exact (performs_hydrateRegister register).bind fun _ => performs_pure ()
  | collect =>
    rw [pauseStep]
    exact performs_ask env .collect []
  | collectorState =>
    rw [pauseStep]
    exact performs_ask env .collectorState []
  | enable =>
    rw [pauseStep]
    exact fun m => .read (performs_setGate _ m)
  | paused steps =>
    rw [pauseStep]
    exact performs_paused env steps

end

/-! ### Primitives -/

theorem performs_ofLiteral (literal : Literal) : Performs free (ofLiteral literal) := by
  cases literal with
  | nil => exact performs_pure _
  | bool b => exact performs_pure _
  | int i => exact performs_pure _
  | float x => exact performs_pure _
  | symbol name => exact performs_symbol name
  | text content => exact performs_newText content

theorem performs_moduleOf (v : Value) : Performs free (moduleOf v) :=
  fun m => .read (performs_ofOption _ m)

theorem PerformsAt.moduleOf {v : Value} {f : ModuleId → Run α}
    (rest : ∀ id, m.module? v = some id → PerformsAt free m (f id)) :
    PerformsAt free m (Run.moduleOf v >>= f) := by
  unfold Run.moduleOf
  rw [LawfulMonad.bind_assoc]
  exact .read (.ofOption rest)

theorem performs_placeFrame (c : Context) (place : Place) (operands : List Value) :
    Performs free (placeFrame c place operands) := by
  unfold placeFrame
  split
  next => exact performs_pure _
  next => exact performs_pure _
  next v =>
    exact (performs_moduleOf v).bind fun id => (performs_read _).bind fun _ => performs_ofOption _
  next => exact performs_exit _

theorem performs_openClassPrim (c : Context) (name : String) (hasSuperclass : Bool) (place : Place)
    (operands : List Value) :
    Performs free (openClassPrim c name hasSuperclass place operands) := by
  have rest : ∀ superclass operands, Performs free (do
      let frame ← placeFrame c place operands
      let id ← openClass frame name superclass
      read fun m => m.moduleObject id) :=
    fun superclass operands => (performs_placeFrame c place operands).bind fun frame =>
      (performs_openClass frame name superclass).bind fun _ => performs_read _
  unfold openClassPrim
  split
  next v operands => exact (performs_moduleOf v).bind fun id => rest (some id) operands
  next => exact fun _ _ => .refl
  next operands => exact rest none _

theorem performs_openModulePrim (c : Context) (name : String) (place : Place)
    (operands : List Value) : Performs free (openModulePrim c name place operands) :=
  (performs_placeFrame c place operands).bind fun frame =>
    (performs_openModule frame name).bind fun _ => performs_read _

theorem performs_aliasMethod (is_free : free = true) (old new : String) (arity : Arity)
    (source target : ModuleId) : Performs free (aliasMethod old new arity source target) := by
  intro m
  refine .of_coded fun coded => .read (.ofOption ?_)
  intro method found
  have code : method.Satisfies (Ordinary free) := coded.valid.findMethod found
  exact performs_defineMethod (.plain new target arity method.body) code (.inl is_free) rfl m

theorem performs_registerIdentity (name : String) : Performs free (registerIdentity name) :=
  (performs_read _).bind fun _ => (performs_ofOption _).bind fun v => (performs_identityOf v).bind
    fun found => (performs_setRegister name found.2).bind fun _ => performs_pure _

theorem isOrdinary_causeOf {cause : Cause} {operands : List Value} {fault : Fault}
    (found : causeOf m cause operands = some fault) : fault.isOrdinary = true := by
  unfold causeOf at found
  split at found <;> cases found <;> rfl

theorem performs_editFrames {f : Machine → Frames} (a : α)
    (edits : ∀ m : Machine, f m = m.frames ∨ ∃ id g,
      (∀ frame : Frame, (g frame).method = frame.method) ∧
        (∀ frame : Frame, (g frame).block = frame.block) ∧ f m = m.frames.modify id g) :
    Performs free (do
      Run.modify fun m => { m with frames := f m }
      return a : Run α) := by
  refine Performs.bind (performs_modify ?_) fun _ => performs_pure a
  intro m coded
  obtain same | ⟨id, g, method, block, edited⟩ := edits m
  · rw [same]
  · rw [edited]
    exact deeds_frames fun _ _ => coded.editFrame id g method block

theorem performs_perform (c : Context) (step : Prim) (operands : List Value)
    (ordinary : Permits free step.isOrdinary) : Performs free (perform c step operands) := by
  unfold perform
  split
  next => exact performs_pure _
  next => exact performs_pure _
  next => exact performs_pure _
  next => exact performs_pure _
  next => exact performs_pure _
  next v => exact (performs_moduleOf v).bind fun _ => performs_read _
  next register v => exact (performs_setRegister register v).bind fun _ => performs_pure _
  next register =>
    refine Performs.bind (performs_modify ?_) fun _ => performs_pure _
    exact fun m _ => deeds_desk free m _
  next v => exact (performs_read _).bind fun _ => (performs_log _).bind fun _ => performs_pure v
  next question => exact (performs_ask c.frame question operands).bind fun _ => performs_pure _
  next register => exact performs_hydrateRegister register
  next register => exact performs_registerIdentity register
  next name hasSuperclass place => exact performs_openClassPrim c name hasSuperclass place operands
  next name place => exact performs_openModulePrim c name place operands
  next name v =>
    exact (performs_moduleOf v).bind fun owner =>
      (performs_defineMethod (.undefined name owner) trivial (.inr rfl) rfl).bind fun _ =>
        performs_pure _
  next name arity v =>
    exact (performs_defineSingleton c.frame v name arity .undefined trivial rfl).bind fun _ =>
      performs_pure _
  next old new arity v w =>
    exact (performs_moduleOf v).bind fun source => (performs_moduleOf w).bind fun target =>
      (performs_aliasMethod ordinary.free_of_false old new arity source target).bind fun _ =>
        performs_pure _
  next v w =>
    intro m
    refine .moduleOf ?_
    intro target _
    refine .moduleOf ?_
    intro id is_module
    refine .of_coded fun coded => ?_
    refine (performs_includeModule c.frame target (coded.valid.module is_module)).bind ?_
    exact fun _ m' _ => performs_pure _ m'
  next name v =>
    exact (performs_moduleOf v).bind fun owner =>
      (performs_removeMethod c.frame owner name).bind fun _ => performs_pure _
  next name v =>
    exact (performs_moduleOf v).bind fun owner =>
      (performs_undefMethod c.frame owner name).bind fun _ => performs_pure _
  next name visibility v =>
    exact (performs_moduleOf v).bind fun owner =>
      (performs_setVisibility c.frame owner name visibility).bind fun _ => performs_pure _
  next v =>
    intro m
    refine .moduleOf ?_
    intro cls is_module
    refine .of_coded fun coded => ?_
    exact .newObject (.plain cls (coded.valid.module is_module) (.inl ordinary.free_of_false))
  next name => exact (performs_read _).bind fun _ => performs_pure _
  next name v =>
    refine performs_editFrames v ?_
    exact fun m => .inr ⟨_, fun f => f.define name v, fun _ => rfl, fun _ => rfl, rfl⟩
  next name v =>
    refine performs_editFrames v ?_
    exact fun m => .inr ⟨_, fun f => f.define name v, fun _ => rfl, fun _ => rfl, rfl⟩
  next name => exact (performs_read _).bind fun _ => performs_pure _
  next name v => exact (performs_setGlobal name v).bind fun _ => performs_pure _
  next name v => exact performs_ivarGet c.frame v name
  next name v w => exact performs_ivarSet c.frame v name w
  next file line =>
    exact Performs.bind (performs_modifyFrame c.frame _ (fun _ => rfl) fun _ => rfl) fun _ =>
      performs_pure _
  next line =>
    refine performs_editFrames _ ?_
    intro m
    unfold Frames.setLine
    split
    next p _ =>
      exact .inr ⟨_, fun f => { f with position := some { p with line } }, fun _ => rfl,
        fun _ => rfl, rfl⟩
    next => exact .inl rfl
  next => exact (performs_read _).bind fun _ => performs_pure _
  next message v =>
    intro m
    refine .moduleOf ?_
    intro cls is_module
    refine .of_coded fun coded => ?_
    refine PerformsAt.bind (.allocate (.exception cls message (coded.valid.module is_module)
      (.inl ordinary.free_of_false))) ?_
    exact fun _ m' _ => performs_pure _ m'
  next v => exact performs_raise c.frame v
  next message v =>
    exact (performs_moduleOf v).bind fun cls => performs_fail c.frame ordinary
  next tag v => exact performs_throw c.frame tag v
  next cause =>
    intro m
    refine .read (.ofOption ?_)
    intro fault found
    exact performs_fail c.frame (.inr (isOrdinary_causeOf found)) m
  next key =>
    exact (performs_read _).bind fun _ => (performs_ofOption _).bind fun _ => performs_exit _
  next enabled =>
    exact (performs_read _).bind fun _ => (performs_setGate _).bind fun _ => performs_pure _
  next steps => exact (performs_paused c.frame steps).bind fun _ => performs_pure _
  next => exact performs_exit _

end Run

end ObjectRuntime
