import ObjectRuntime.Proofs.Machine.Primitives
import ObjectRuntime.Proofs.Unwind.Recounting

/-!
# Operations recount what they raise

The operations that call nothing: those on classes, modules, methods and variables, the questions of
the observer, the primitives, and the built-in methods. Where they refuse they raise, from the frame
of the call or, for a class or a module that is opened, from the frame of the opening; otherwise
nothing is raised.
-/

set_option autoImplicit false

namespace ObjectRuntime.Run

variable {α : Type} {env : FrameId} {c : Chronicle}

/-! ### Classes, modules, methods and variables -/

theorem recounts_createModule (lexical : FrameId) (name : String) (kind : ModuleKind)
    (superclass : Option ModuleId) (outer : Option FrameId)
    (root : kind = .moduleKind → superclass = none) :
    Recounts env (createModule lexical name kind superclass outer) := by
  intro c _ _
  have made (metaclass : ModuleId) : Chronicle.Step c
      ⟨c.incidents, c.machine.withModule name kind superclass outer metaclass⟩ :=
    .pass (.withModule name kind superclass outer metaclass root)
  have bound (metaclass : ModuleId) := (Relation.ReflTransGen.single (made metaclass)).tail
    (Chronicle.Step.pass (Machine.Passes.editFrame lexical
      (fun f => f.define name (.object c.machine.heap.next))
      fun _ => ⟨⟨rfl, rfl, rfl, rfl⟩, rfl, rfl⟩))
  cases kind with
  | classKind => exact ⟨_, bound Core.classClass.id, rfl, nofun⟩
  | moduleKind => exact ⟨_, bound Core.moduleClass.id, rfl, nofun⟩

theorem recounts_openClass (lexical : FrameId) (name : String) (superclass : Option ModuleId) :
    Recounts env (openClass lexical name superclass) := by
  refine (recounts_read _).bind fun existing => ?_
  split
  next existing =>
    refine (recounts_read _).bind fun isClass => ?_
    split
    next => exact recounts_fail lexical _
    next id _ =>
      refine (recounts_read _).bind fun actual => ?_
      split
      next => exact recounts_pure id
      next => exact recounts_fail lexical _
  next =>
    exact (recounts_read _).bind fun outer =>
      recounts_createModule lexical name .classKind _ outer nofun

theorem recounts_openModule (lexical : FrameId) (name : String) :
    Recounts env (openModule lexical name) := by
  refine (recounts_read _).bind fun existing => ?_
  split
  next existing =>
    refine (recounts_read _).bind fun isClass => ?_
    split
    next => exact recounts_fail lexical _
    next id _ => exact recounts_pure id
  next => exact recounts_createModule lexical name .moduleKind none _ fun _ => rfl

theorem recounts_defineMethod (method : Method) (general : method.operator = none) :
    Recounts env (defineMethod method) := by
  intro c
  refine .of_passes rfl ?_
  exact .of_tables (.define method (.of_all (fun _ => trivial) method) general) rfl rfl rfl

theorem recounts_defineSingleton (from_frame : FrameId) (target : Value) (name : String)
    (arity : Arity) (body : Body) :
    Recounts env (defineSingleton from_frame target name arity body) := by
  have code : ∀ cls, (Method.plain name cls arity body).Satisfies fun _ => True :=
    fun cls => .of_all (fun _ => trivial) _
  intro c
  refine .read ?_
  split
  next => exact recounts_fail from_frame _ c
  next id is_object =>
    obtain ⟨at_target, -⟩ := Option.filter_eq_some_iff.1 is_object
    obtain rfl := Value.object?_eq_some_iff.1 at_target
    refine .read ?_
    split
    next cls _ =>
      exact .of_passes rfl (.of_tables
        (.defineClassMethod (.plain name cls arity body) (code cls) rfl) rfl rfl rfl)
    next not_module =>
      refine .read (.of_passes rfl ?_)
      refine .singleton id (.plain name (c.machine.classOf (.object id)) arity body) rfl
        not_module ?_
      intro o at_id
      change ((c.machine.heap.get? id).map (·.cls)).getD Core.object.id = o.cls
      rw [at_id]
      rfl

theorem recounts_includeModule (from_frame : FrameId) (target : ModuleId) {id : ModuleId}
    (present : id.index < c.machine.hierarchy.size) :
    RecountsAt env c (includeModule from_frame target id) := by
  refine .read ?_
  split
  next after done =>
    exact .of_passes rfl (.of_tables (.includeModule target id after present done) rfl rfl rfl)
  next => exact recounts_fail from_frame _ c
  next => exact .read (recounts_fail from_frame _ c)

theorem recounts_removeMethod (from_frame : FrameId) (owner : ModuleId) (name : String) :
    Recounts env (removeMethod from_frame owner name) := by
  refine (recounts_read _).bind fun own => ?_
  split
  next => exact fun _ => .of_passes rfl (.of_tables (.remove owner name) rfl rfl rfl)
  next => exact (recounts_read _).bind fun _ => recounts_fail from_frame _

theorem recounts_failNotFound (from_frame : FrameId) (owner : ModuleId) (name : String) :
    Recounts env (failNotFound from_frame owner name : Run α) :=
  (recounts_read _).bind fun _ => recounts_fail from_frame _

theorem recounts_undefMethod (from_frame : FrameId) (owner : ModuleId) (name : String) :
    Recounts env (undefMethod from_frame owner name) := by
  refine (recounts_read _).bind fun is_defined => ?_
  split
  next => exact recounts_defineMethod (.undefined name owner) rfl
  next => exact recounts_failNotFound from_frame owner name

theorem recounts_setVisibility (from_frame : FrameId) (owner : ModuleId) (name : String)
    (visibility : Visibility) : Recounts env (setVisibility from_frame owner name visibility) := by
  intro c
  refine .read ?_
  split
  next method is_found =>
    obtain ⟨found, -⟩ := Option.filter_eq_some_iff.1 is_found
    exact .of_passes rfl (.of_tables (.retag owner name visibility method found) rfl rfl rfl)
  next => exact recounts_failNotFound from_frame owner name c

theorem recounts_checkIvarName (from_frame : FrameId) (name : String) :
    Recounts env (checkIvarName from_frame name) := by
  unfold checkIvarName
  split
  next => exact recounts_pure ()
  next => exact recounts_fail from_frame _

theorem recounts_ivarGet (from_frame : FrameId) (receiver : Value) (name : String) :
    Recounts env (ivarGet from_frame receiver name) :=
  (recounts_checkIvarName from_frame name).bind fun _ => (recounts_read _).bind fun _ =>
    recounts_pure _

theorem recounts_ivarSet (from_frame : FrameId) (receiver : Value) (name : String) (value : Value) :
    Recounts env (ivarSet from_frame receiver name value) := by
  refine (recounts_checkIvarName from_frame name).bind fun _ => ?_
  refine (recounts_read _).bind fun found => ?_
  split
  next id =>
    have edited : Recounts env (modifyObject id fun o =>
        { o with ivars := o.ivars.insert name value }) :=
      recounts_modify fun _ => .edit id (fun _ => ⟨rfl, rfl, .inl rfl⟩) fun _ => rfl
    exact edited.bind fun _ => recounts_pure value
  next => exact (recounts_read _).bind fun _ => recounts_fail from_frame _

theorem recounts_identityOf (v : Value) : Recounts env (identityOf v) := by
  refine (recounts_read _).bind fun number => ?_
  split
  next => exact recounts_pure _
  next => exact (recounts_hydrate v).bind fun _ => recounts_pure _

theorem recounts_setMessage (v : Value) (message : String) :
    Recounts env (setMessage v message) := by
  unfold setMessage
  split
  next id _ =>
    exact recounts_modify fun _ => .edit id (fun o => o.mapException_alike _)
      fun o => o.origin_mapException fun _ => rfl
  next => exact recounts_pure ()

/-! ### Observing -/

theorem recounts_setGate (gate : Gate) : Recounts env (setGate gate) :=
  recounts_modify fun m =>
    .observe m.globals m.symbols m.missReason m.counters gate rfl

theorem recounts_collect : Recounts env collect := by
  refine (recounts_read _).bind fun gate => ?_
  split
  next allowed gate _ =>
    refine (recounts_setGate gate).bind fun _ => ?_
    split
    next => exact (recounts_read _).bind fun _ => recounts_pure _
    next => exact recounts_pure _

theorem recounts_ask (from_frame : FrameId) (q : Question) (operands : List Value) :
    Recounts env (ask from_frame q operands) := by
  unfold ask
  split
  next => exact recounts_collect.bind fun _ => recounts_log _
  next =>
    exact (recounts_read _).bind fun _ => (recounts_ofOption _).bind fun _ => recounts_log _

theorem recounts_hydrateRegister (name : String) : Recounts env (hydrateRegister name) :=
  (recounts_read _).bind fun _ => (recounts_ofOption _).bind fun v => (recounts_hydrate v).bind
    fun _ => (recounts_setRegister name _).bind fun _ => recounts_pure _

mutual

theorem recounts_paused (from_frame : FrameId) (steps : List PauseStep) :
    Recounts env (paused from_frame steps) := by
  rw [paused]
  refine (recounts_read _).bind fun gate => ?_
  split
  next guard gate _ =>
    refine (recounts_setGate gate).bind fun _ => ?_
    refine (recounts_pausedSteps from_frame steps).afterward fun m => .inr ?_
    exact .observe m.globals m.symbols m.missReason m.counters (m.heap.gate.release guard) rfl

theorem recounts_pausedSteps (from_frame : FrameId) (steps : List PauseStep) :
    Recounts env (pausedSteps from_frame steps) := by
  cases steps with
  | nil =>
    rw [pausedSteps]
    exact recounts_pure ()
  | cons step rest =>
    rw [pausedSteps]
    exact (recounts_pauseStep from_frame step).bind fun _ => recounts_pausedSteps from_frame rest

theorem recounts_pauseStep (from_frame : FrameId) (step : PauseStep) :
    Recounts env (pauseStep from_frame step) := by
  cases step with
  | hydrate register =>
    rw [pauseStep]
    exact (recounts_hydrateRegister register).bind fun _ => recounts_pure ()
  | collect =>
    rw [pauseStep]
    exact recounts_ask from_frame .collect []
  | collectorState =>
    rw [pauseStep]
    exact recounts_ask from_frame .collectorState []
  | enable =>
    rw [pauseStep]
    exact (recounts_read _).bind fun _ => recounts_setGate _
  | paused steps =>
    rw [pauseStep]
    exact recounts_paused from_frame steps

end

/-! ### Primitives -/

theorem recounts_ofLiteral (literal : Literal) : Recounts env (ofLiteral literal) := by
  cases literal with
  | nil => exact recounts_pure _
  | bool b => exact recounts_pure _
  | int i => exact recounts_pure _
  | float x => exact recounts_pure _
  | symbol name => exact recounts_symbol name
  | text content => exact recounts_newText content

theorem recounts_moduleOf (v : Value) : Recounts env (moduleOf v) :=
  (recounts_read _).bind fun _ => recounts_ofOption _

theorem RecountsAt.moduleOf {v : Value} {f : ModuleId → Run α}
    (rest : ∀ id, id.index < c.machine.hierarchy.size → RecountsAt env c (f id)) :
    RecountsAt env c (Run.moduleOf v >>= f) := by
  refine .of_reached fun reached => ?_
  unfold Run.moduleOf
  rw [LawfulMonad.bind_assoc]
  refine .read ?_
  cases is_module : c.machine.module? v with
  | none => exact .exit nofun
  | some id => exact rest id (reached.encountered.reachable.valid.module is_module)

theorem recounts_placeFrame (context : Context) (place : Place) (operands : List Value) :
    Recounts env (placeFrame context place operands) := by
  unfold placeFrame
  split
  next => exact recounts_pure _
  next => exact recounts_pure _
  next v =>
    exact (recounts_moduleOf v).bind fun id => (recounts_read _).bind fun _ => recounts_ofOption _
  next => exact recounts_malformed

theorem recounts_openClassPrim (context : Context) (name : String) (hasSuperclass : Bool)
    (place : Place) (operands : List Value) :
    Recounts env (openClassPrim context name hasSuperclass place operands) := by
  have rest : ∀ superclass operands, Recounts env (do
      let frame ← placeFrame context place operands
      let id ← openClass frame name superclass
      read fun m => m.moduleObject id) :=
    fun superclass operands => (recounts_placeFrame context place operands).bind fun frame =>
      (recounts_openClass frame name superclass).bind fun _ => recounts_read _
  unfold openClassPrim
  split
  next v operands => exact (recounts_moduleOf v).bind fun id => rest (some id) operands
  next => exact recounts_malformed.bind fun _ => rest _ _
  next operands => exact rest none _

theorem recounts_openModulePrim (context : Context) (name : String) (place : Place)
    (operands : List Value) : Recounts env (openModulePrim context name place operands) :=
  (recounts_placeFrame context place operands).bind fun frame =>
    (recounts_openModule frame name).bind fun _ => recounts_read _

theorem recounts_aliasMethod (old new : String) (arity : Arity) (source target : ModuleId) :
    Recounts env (aliasMethod old new arity source target) :=
  (recounts_read _).bind fun _ => (recounts_ofOption _).bind fun method =>
    recounts_defineMethod (.plain new target arity method.body) rfl

theorem recounts_registerIdentity (name : String) : Recounts env (registerIdentity name) :=
  (recounts_read _).bind fun _ => (recounts_ofOption _).bind fun v => (recounts_identityOf v).bind
    fun found => (recounts_setRegister name found.2).bind fun _ => recounts_pure _

/-- A signal that was kept is told of since it was raised. -/
theorem recounts_resignal (key : String) : Recounts env (resignal key) := by
  intro c
  refine .of_reached fun reached => .read ?_
  cases held : c.machine.desk.kept.get? key with
  | none => exact .exit nofun
  | some s =>
    refine .exit fun s' is_signal => ?_
    rw [← Exit.signal.inj is_signal]
    exact reached.kept key s held

theorem recounts_editFrames {f : Frames → Frames} (a : α)
    (edits : ∀ frames, f frames = frames ∨ ∃ id g, (∀ frame : Frame, frame.Settled (g frame)) ∧
      f frames = frames.modify id g) :
    Recounts env (do
      Run.modify fun m => { m with frames := f m.frames }
      return a : Run α) := by
  refine Recounts.bind (fun c => ?_) fun _ => recounts_pure a
  obtain same | ⟨id, g, settled, edited⟩ := edits c.machine.frames
  · intro _ _
    refine ⟨c, .refl, ?_, nofun⟩
    rw [run_modify, same]
  · refine .of_passes rfl ?_
    change c.machine.Passes { c.machine with frames := f c.machine.frames }
    rw [edited]
    exact .editFrame id g settled

theorem recounts_perform (context : Context) (step : Prim) (operands : List Value) :
    Recounts env (perform context step operands) := by
  unfold perform
  split
  next => exact recounts_pure _
  next => exact recounts_pure _
  next => exact recounts_pure _
  next => exact recounts_pure _
  next => exact recounts_pure _
  next v => exact (recounts_moduleOf v).bind fun _ => recounts_read _
  next register v => exact (recounts_setRegister register v).bind fun _ => recounts_pure _
  next register =>
    exact (recounts_modifyDesk
      (fun desk => { desk with registers := desk.registers.erase register }) fun _ => rfl).bind
        fun _ => recounts_pure _
  next v => exact (recounts_read _).bind fun _ => (recounts_log _).bind fun _ => recounts_pure v
  next question =>
    exact (recounts_ask context.frame question operands).bind fun _ => recounts_pure _
  next register => exact recounts_hydrateRegister register
  next register => exact recounts_registerIdentity register
  next name hasSuperclass place =>
    exact recounts_openClassPrim context name hasSuperclass place operands
  next name place => exact recounts_openModulePrim context name place operands
  next name v =>
    exact (recounts_moduleOf v).bind fun owner =>
      (recounts_defineMethod (.undefined name owner) rfl).bind fun _ => recounts_pure _
  next name arity v =>
    exact (recounts_defineSingleton context.frame v name arity .undefined).bind fun _ =>
      recounts_pure _
  next old new arity v w =>
    exact (recounts_moduleOf v).bind fun source => (recounts_moduleOf w).bind fun target =>
      (recounts_aliasMethod old new arity source target).bind fun _ => recounts_pure _
  next v w =>
    refine (recounts_moduleOf v).bind fun target c => .moduleOf fun id present => ?_
    refine RecountsAt.bind (recounts_includeModule context.frame target present) ?_
    exact fun _ d _ _ => recounts_pure _ d
  next name v =>
    exact (recounts_moduleOf v).bind fun owner =>
      (recounts_removeMethod context.frame owner name).bind fun _ => recounts_pure _
  next name v =>
    exact (recounts_moduleOf v).bind fun owner =>
      (recounts_undefMethod context.frame owner name).bind fun _ => recounts_pure _
  next name visibility v =>
    exact (recounts_moduleOf v).bind fun owner =>
      (recounts_setVisibility context.frame owner name visibility).bind fun _ => recounts_pure _
  next v =>
    exact (recounts_moduleOf v).bind fun cls => recounts_newObject cls .plain rfl nofun
  next name => exact (recounts_read _).bind fun _ => recounts_pure _
  next name v =>
    refine recounts_editFrames (f := fun frames => frames.assign context.frame name v) v ?_
    intro frames
    exact .inr ⟨_, fun f => f.define name v, fun _ => ⟨⟨rfl, rfl, rfl, rfl⟩, rfl, rfl⟩, rfl⟩
  next name v =>
    refine recounts_editFrames (f := fun frames => frames.define context.frame name v) v ?_
    intro frames
    exact .inr ⟨_, fun f => f.define name v, fun _ => ⟨⟨rfl, rfl, rfl, rfl⟩, rfl, rfl⟩, rfl⟩
  next name => exact (recounts_read _).bind fun _ => recounts_pure _
  next name v => exact (recounts_setGlobal name v).bind fun _ => recounts_pure _
  next name v => exact recounts_ivarGet context.frame v name
  next name v w => exact recounts_ivarSet context.frame v name w
  next file line =>
    exact (recounts_modifyFrame context.frame (fun f => { f with position := some ⟨file, line⟩ })
      fun _ => ⟨⟨rfl, rfl, rfl, rfl⟩, rfl, rfl⟩).bind fun _ => recounts_pure _
  next line =>
    refine recounts_editFrames (f := fun frames => frames.setLine context.frame line) _ ?_
    intro frames
    unfold Frames.setLine
    split
    next p _ =>
      exact .inr ⟨_, fun f => { f with position := some { p with line } },
        fun _ => ⟨⟨rfl, rfl, rfl, rfl⟩, rfl, rfl⟩, rfl⟩
    next => exact .inl rfl
  next => exact (recounts_read _).bind fun _ => recounts_pure _
  next message v =>
    exact (recounts_moduleOf v).bind fun cls =>
      (recounts_allocate cls (.exception (.ofMessage message)) rfl nofun).bind fun _ =>
        recounts_pure _
  next v => exact recounts_raise context.frame v
  next message v =>
    exact (recounts_moduleOf v).bind fun cls => recounts_fail context.frame _
  next tag v => exact recounts_throw context.frame tag v
  next cause =>
    exact (recounts_read _).bind fun _ => (recounts_ofOption _).bind fun fault =>
      recounts_fail context.frame fault
  next key => exact recounts_resignal key
  next enabled =>
    exact (recounts_read _).bind fun _ => (recounts_setGate _).bind fun _ => recounts_pure _
  next steps => exact (recounts_paused context.frame steps).bind fun _ => recounts_pure _
  next => exact recounts_malformed

/-! ### Built-in methods that call nothing -/

theorem recounts_selectorArg (from_frame : FrameId) (v : Value) :
    Recounts env (selectorArg from_frame v) :=
  (recounts_read _).bind fun _ => recounts_orFail from_frame _

theorem recounts_moduleArg (from_frame : FrameId) (v : Value) :
    Recounts env (moduleArg from_frame v) := by
  refine (recounts_read _).bind fun found => ?_
  split
  next id => exact recounts_pure id
  next => exact (recounts_read _).bind fun _ => recounts_fail from_frame _

theorem RecountsAt.moduleArg {from_frame : FrameId} {v : Value} {f : ModuleId → Run α}
    (rest : ∀ id d, id.index < d.machine.hierarchy.size → RecountsAt env d (f id)) :
    RecountsAt env c (Run.moduleArg from_frame v >>= f) := by
  refine .of_reached fun reached => RecountsAt.bind (recounts_moduleArg from_frame v c) ?_
  intro id d _ ending
  cases is_module : c.machine.module? v with
  | none =>
    rw [moduleArg_of_none is_module] at ending
    cases ending
  | some found =>
    rw [moduleArg_of_some is_module] at ending
    obtain ⟨same, machine⟩ := Prod.mk.inj ending
    obtain rfl := Except.ok.inj same
    refine rest found d ?_
    rw [← machine]
    exact reached.encountered.reachable.valid.module is_module

theorem recounts_exceptionArg (from_frame : FrameId) (v : Value) :
    Recounts env (exceptionArg from_frame v) := by
  refine (recounts_read _).bind fun found => ?_
  split
  next data => exact recounts_pure data
  next => exact recounts_fail from_frame _

theorem recounts_route (receiver : Value) (selector : String) (args : List Value) :
    Recounts env (route receiver selector args) := by
  refine (recounts_count .send).bind fun _ => (recounts_read _).bind fun direct => ?_
  split
  next => exact (recounts_count .direct).bind fun _ => recounts_pure _
  next =>
    split
    next =>
      exact (recounts_count .hydration).bind fun _ => (recounts_hydrate receiver).bind fun _ =>
        recounts_pure _
    next => exact (recounts_hydrate receiver).bind fun _ => recounts_pure _

theorem recounts_applyOperator (from_frame : FrameId) (op : Operator) (left right : Value) :
    Recounts env (applyOperator from_frame op left right) :=
  (recounts_read _).bind fun _ => recounts_orFail from_frame _

theorem recounts_respondTo (from_frame : FrameId) (receiver : Value) (args : List Value) :
    Recounts env (respondTo from_frame receiver args) := by
  cases args with
  | nil => exact recounts_fail from_frame _
  | cons selector rest =>
    exact (recounts_selectorArg from_frame selector).bind fun _ => (recounts_read _).bind fun _ =>
      (recounts_read _).bind fun _ => recounts_pure _

theorem recounts_isA (from_frame : FrameId) (receiver : Value) (args : List Value) :
    Recounts env (isA from_frame receiver args) := by
  refine (recounts_read _).bind fun cls => ?_
  split
  next => exact (recounts_read _).bind fun _ => recounts_pure _
  next => exact recounts_fail from_frame _

theorem recounts_throwByArgs (from_frame : FrameId) (args : List Value) :
    Recounts env (throwByArgs from_frame args) := by
  cases args with
  | nil => exact recounts_fail from_frame _
  | cons tag rest => exact recounts_throw from_frame tag _

theorem recounts_includeByArgs (from_frame : FrameId) (receiver : Value) (args : List Value) :
    Recounts env (includeByArgs from_frame receiver args) := by
  refine (recounts_moduleArg from_frame receiver).bind fun target => ?_
  refine (recounts_forEach ?_ args.reverse).bind fun _ => recounts_pure _
  exact fun arg c => .moduleArg fun id d present =>
    recounts_includeModule from_frame target present

theorem recounts_forSelectors (from_frame : FrameId) (receiver : Value) (args : List Value)
    {act : ModuleId → String → Run Unit} (each : ∀ owner name, Recounts env (act owner name)) :
    Recounts env (forSelectors from_frame receiver args act) := by
  refine (recounts_moduleArg from_frame receiver).bind fun owner => recounts_forEach ?_ args
  exact fun arg => (recounts_selectorArg from_frame arg).bind fun name => each owner name

theorem recounts_methodDefined (from_frame : FrameId) (receiver : Value) (args : List Value) :
    Recounts env (methodDefined from_frame receiver args) := by
  refine (recounts_moduleArg from_frame receiver).bind fun owner => ?_
  split
  next => exact recounts_fail from_frame _
  next selector _ =>
    exact (recounts_selectorArg from_frame selector).bind fun _ => (recounts_read _).bind fun _ =>
      recounts_pure _

theorem recounts_defineByBlock (from_frame : FrameId) (receiver : Value) (args : List Value)
    (block : Option Block) : Recounts env (defineByBlock from_frame receiver args block) := by
  refine (recounts_moduleArg from_frame receiver).bind fun owner => ?_
  split
  next => exact recounts_fail from_frame _
  next selector _ =>
    refine (recounts_selectorArg from_frame selector).bind fun name => ?_
    cases block with
    | none => exact recounts_fail from_frame _
    | some block =>
      exact (recounts_defineMethod (.ofBlock name owner block) rfl).bind fun _ =>
        recounts_symbol name

theorem recounts_allocateObject (from_frame : FrameId) (receiver : Value) :
    Recounts env (allocateObject from_frame receiver) := by
  refine (recounts_moduleArg from_frame receiver).bind fun cls =>
    (recounts_read _).bind fun inherits => (recounts_read _).bind fun shown => ?_
  split
  next => exact recounts_fail from_frame _
  next =>
    split
    next =>
      exact (recounts_allocate cls (.exception (.ofMessage shown)) rfl nofun).bind fun _ =>
        recounts_pure _
    next =>
      split
      next => exact recounts_newObject cls (.text "") rfl nofun
      next => exact recounts_newObject cls .plain rfl nofun

theorem recounts_setUpException (from_frame : FrameId) (receiver : Value) (args : List Value) :
    Recounts env (setUpException from_frame receiver args) := by
  refine (recounts_exceptionArg from_frame receiver).bind fun _ => ?_
  split
  next message _ =>
    refine (recounts_read _).bind fun is_nil => ?_
    split
    next =>
      exact (recounts_read _).bind fun text => (recounts_setMessage receiver text).bind fun _ =>
        recounts_pure _
    next => exact recounts_pure _
  next => exact recounts_pure _

theorem recounts_runOperator (from_frame : FrameId) (op : Operator) (receiver : Value)
    (args : List Value) : Recounts env (runOperator from_frame op receiver args) := by
  unfold runOperator
  split
  next argument => exact recounts_applyOperator from_frame op receiver argument
  next => exact recounts_fail from_frame _

/-- Five built-in methods run other code; the others call nothing. -/
theorem recounts_silent (run : Runner) (from_frame : FrameId) (receiver : Value)
    (args : List Value) (block : Option Block) (method : Builtin) (silent : method.calls = false) :
    Recounts env (method.perform run from_frame receiver args block) := by
  cases method with
  | accept => exact recounts_pure _
  | same => exact recounts_pure _
  | negate => exact (recounts_read _).bind fun _ => recounts_pure _
  | classOf => exact recounts_read _
  | respondTo => exact recounts_respondTo from_frame receiver args
  | objectId => exact (recounts_identityOf receiver).bind fun _ => recounts_pure _
  | isA => exact recounts_isA from_frame receiver args
  | inspect => exact (recounts_read _).bind fun text => recounts_newText text
  | ivarGet =>
    cases args with
    | nil => exact recounts_fail from_frame _
    | cons selector _ =>
      exact (recounts_selectorArg from_frame selector).bind fun name =>
        recounts_ivarGet from_frame receiver name
  | ivarSet =>
    match args with
    | [selector, value] =>
      exact (recounts_selectorArg from_frame selector).bind fun name =>
        recounts_ivarSet from_frame receiver name value
    | [] => exact recounts_fail from_frame _
    | [_] => exact recounts_fail from_frame _
    | _ :: _ :: _ :: _ => exact recounts_fail from_frame _
  | throw => exact recounts_throwByArgs from_frame args
  | moduleName =>
    refine (recounts_moduleArg from_frame receiver).bind fun id =>
      (recounts_read _).bind fun name => ?_
    split
    next name => exact recounts_newText name
    next => exact recounts_pure _
  | includeModule => exact recounts_includeByArgs from_frame receiver args
  | methodDefined => exact recounts_methodDefined from_frame receiver args
  | defineMethod => exact recounts_defineByBlock from_frame receiver args block
  | undefMethod =>
    exact (recounts_forSelectors from_frame receiver args
      (recounts_undefMethod from_frame)).bind fun _ => recounts_pure _
  | removeMethod =>
    exact (recounts_forSelectors from_frame receiver args
      (recounts_removeMethod from_frame)).bind fun _ => recounts_pure _
  | setVisibility visibility =>
    exact (recounts_forSelectors from_frame receiver args fun owner name =>
      recounts_setVisibility from_frame owner name visibility).bind fun _ => recounts_pure _
  | allocate => exact recounts_allocateObject from_frame receiver
  | superclass =>
    refine (recounts_moduleArg from_frame receiver).bind fun id =>
      (recounts_read _).bind fun parent => ?_
    split
    next parent => exact recounts_read _
    next => exact recounts_pure _
  | operator op => exact recounts_runOperator from_frame op receiver args
  | exceptionSetup => exact recounts_setUpException from_frame receiver args
  | exceptionMessage =>
    exact (recounts_exceptionArg from_frame receiver).bind fun data => recounts_newText _
  | exceptionBacktrace =>
    refine (recounts_exceptionArg from_frame receiver).bind fun data => ?_
    split
    next => exact recounts_pure _
    next => exact recounts_newText _
  | send | publicSend | raise | catching | new => cases silent

end ObjectRuntime.Run
