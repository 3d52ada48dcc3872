import ObjectRuntime.Evaluate
import ObjectRuntime.Proofs.Machine.Opening

/-!
# Primitive steps are quiet

A primitive is disciplined if it aims its faults from the frame it runs in and makes up no signal:
it opens classes and modules in its own frame only, and does not end with a signal that was kept.
Every disciplined primitive is quiet.
-/

set_option autoImplicit false

namespace ObjectRuntime

def Prim.isDisciplined : Prim → Bool
  | .openClass _ _ place => place == .here
  | .openModule _ place => place == .here
  | .resignal _ => false
  | _ => true

namespace Run

variable {P : Expr → Prop} {env : FrameId} {m : Machine}

/-! ### Observing -/

theorem quiet_setGate (gate : Gate) : Quiet P env (setGate gate) :=
  quiet_modify fun m _ => .single ⟨.observe m.globals m.symbols m.missReason m.counters m.desk gate,
    .refl _⟩

theorem quiet_collect : Quiet P env collect := by
  intro m
  refine .read ?_
  split
  next allowed gate _ =>
    refine Quiet.bind (quiet_setGate gate) ?_ m
    intro _ m
    split
    next => exact .read (quiet_pure _ m)
    next => exact quiet_pure _ m

theorem quiet_ask (from_frame : FrameId) (q : Question) (operands : List Value) :
    Quiet P env (ask from_frame q operands) := by
  unfold ask
  split
  next => exact quiet_collect.bind fun reached => quiet_log _
  next =>
    intro m
    refine .read ?_
    exact (quiet_ofOption _).bind (fun answer => quiet_log answer) m

theorem quiet_hydrateRegister (name : String) : Quiet P env (hydrateRegister name) := by
  intro m
  refine .read ?_
  refine (quiet_ofOption _).bind ?_ m
  intro v
  refine (quiet_hydrate v).bind ?_
  intro id
  exact (quiet_setRegister name _).bind fun _ => quiet_pure _

mutual

theorem quiet_paused (from_frame : FrameId) (steps : List PauseStep) :
    Quiet P env (paused from_frame steps) := by
  intro m
  rw [paused]
  refine .read ?_
  split
  next guard gate _ =>
    refine Quiet.bind (quiet_setGate gate) ?_ m
    intro _ m
    refine (quiet_pausedSteps from_frame steps m).afterward ?_ ?_
    · intro m' _
      exact .single ⟨.observe m'.globals m'.symbols m'.missReason m'.counters m'.desk
        (m'.heap.gate.release guard), .refl _⟩
    · intro m' s aims
      cases s with
      | raise id target => exact aims
      | throw tag value target => exact aims

theorem quiet_pausedSteps (from_frame : FrameId) (steps : List PauseStep) :
    Quiet P env (pausedSteps from_frame steps) := by
  cases steps with
  | nil =>
    rw [pausedSteps]
    exact quiet_pure ()
  | cons step rest =>
    rw [pausedSteps]
    exact (quiet_pauseStep from_frame step).bind fun _ => quiet_pausedSteps from_frame rest

theorem quiet_pauseStep (from_frame : FrameId) (step : PauseStep) :
    Quiet P env (pauseStep from_frame step) := by
  cases step with
  | hydrate register =>
    rw [pauseStep]
    exact (quiet_hydrateRegister register).bind fun _ => quiet_pure ()
  | collect =>
    rw [pauseStep]
    exact quiet_ask from_frame .collect []
  | collectorState =>
    rw [pauseStep]
    exact quiet_ask from_frame .collectorState []
  | enable =>
    rw [pauseStep]
    exact fun m => .read (quiet_setGate _ m)
  | paused steps =>
    rw [pauseStep]
    exact quiet_paused from_frame steps

end

/-! ### Primitives -/

theorem quiet_ofLiteral (literal : Literal) : Quiet P env (ofLiteral literal) := by
  cases literal with
  | nil => exact quiet_pure _
  | bool b => exact quiet_pure _
  | int i => exact quiet_pure _
  | float x => exact quiet_pure _
  | symbol name => exact quiet_symbol name
  | text content => exact quiet_newText content

theorem quiet_moduleOf (v : Value) : Quiet P env (moduleOf v) :=
  fun m => .read (quiet_ofOption _ m)

theorem QuietAt.moduleOf {α : Type} {v : Value} {f : ModuleId → Run α}
    (rest : ∀ id, m.module? v = some id → QuietAt P env m (f id)) :
    QuietAt P env m (Run.moduleOf v >>= f) := by
  refine (quiet_moduleOf v m).bind ?_
  intro id m' ending
  change (ofOption (m.module? v)) m = _ at ending
  cases is_module : m.module? v with
  | none =>
    rw [is_module] at ending
    cases ending
  | some found =>
    rw [is_module] at ending
    obtain ⟨rfl, rfl⟩ : found = id ∧ m = m' := by simpa [ofOption, Run.pure] using ending
    exact rest found is_module

theorem quiet_placeFrame_here {α : Type} (c : Context) (operands : List Value) {f : FrameId → Run α}
    (rest : Quiet P c.frame (f c.frame)) : Quiet P c.frame (placeFrame c .here operands >>= f) := by
  cases operands with
  | nil => exact rest
  | cons v operands => exact quiet_malformed_bind f

theorem quiet_openClassPrim (c : Context) (name : String) (hasSuperclass : Bool)
    (operands : List Value) :
    Quiet P c.frame (openClassPrim c name hasSuperclass .here operands) := by
  have rest : ∀ superclass operands, Quiet P c.frame (do
      let frame ← placeFrame c .here operands
      let id ← openClass frame name superclass
      read fun m => m.moduleObject id) := by
    intro superclass operands
    refine quiet_placeFrame_here c operands ?_
    exact (quiet_openClass c.frame name superclass).bind fun _ => quiet_read _
  unfold openClassPrim
  split
  next v operands =>
    refine (quiet_moduleOf v).bind ?_
    intro id
    exact rest (some id) operands
  next => exact quiet_malformed_bind _
  next operands => exact rest none _

theorem quiet_openModulePrim (c : Context) (name : String) (operands : List Value) :
    Quiet P c.frame (openModulePrim c name .here operands) := by
  refine quiet_placeFrame_here c operands ?_
  exact (quiet_openModule c.frame name).bind fun _ => quiet_read _

theorem quiet_aliasMethod (old new : String) (arity : Arity) (source target : ModuleId) :
    Quiet P env (aliasMethod old new arity source target) := by
  intro m
  refine .of_valid fun valid => ?_
  refine .read ?_
  cases found : m.hierarchy.findMethod source old with
  | none => exact quiet_malformed_bind _ m
  | some method =>
    have code : method.Satisfies P := valid.findMethod found
    exact quiet_defineMethod (.plain new target arity method.body) code rfl m

theorem quiet_registerIdentity (name : String) : Quiet P env (registerIdentity name) := by
  intro m
  refine .read ?_
  refine (quiet_ofOption _).bind ?_ m
  intro v
  refine (quiet_identityOf v).bind ?_
  intro found
  exact (quiet_setRegister name found.2).bind fun _ => quiet_pure _

theorem quiet_editFrame {α : Type} (f : Frames → Frames) (a : α)
    (edits : ∀ frames, f frames = frames ∨ ∃ id g, (∀ frame : Frame, frame.Settled (g frame)) ∧
      f frames = frames.modify id g) :
    Quiet P env (do
      Run.modify fun m => { m with frames := f m.frames }
      return a : Run α) := by
  refine (quiet_modify ?_).bind fun _ => quiet_pure a
  intro m _
  obtain same | ⟨id, g, settled, edited⟩ := edits m.frames
  · rw [same]
  · rw [edited]
    exact .single ⟨.frame id g fun frame => (settled frame).toAlike,
      m.frames.keeps_modify id settled⟩

theorem quiet_perform (c : Context) (step : Prim) (operands : List Value)
    (disciplined : step.isDisciplined = true) : Quiet P c.frame (perform c step operands) := by
  unfold perform
  split
  next => exact quiet_pure _
  next => exact quiet_pure _
  next => exact quiet_pure _
  next => exact quiet_pure _
  next => exact quiet_pure _
  next v => exact (quiet_moduleOf v).bind fun _ => quiet_read _
  next register v => exact (quiet_setRegister register v).bind fun _ => quiet_pure _
  next register =>
    exact (quiet_modifyDesk fun desk =>
      { desk with registers := desk.registers.erase register }).bind fun _ => quiet_pure _
  next v => exact fun m => .read ((quiet_log _).bind (fun _ => quiet_pure v) m)
  next question => exact (quiet_ask c.frame question operands).bind fun _ => quiet_pure _
  next register => exact quiet_hydrateRegister register
  next register => exact quiet_registerIdentity register
  next name hasSuperclass place =>
    obtain rfl : place = .here := by simpa [Prim.isDisciplined] using disciplined
    exact quiet_openClassPrim c name hasSuperclass operands
  next name place =>
    obtain rfl : place = .here := by simpa [Prim.isDisciplined] using disciplined
    exact quiet_openModulePrim c name operands
  next name v =>
    refine (quiet_moduleOf v).bind ?_
    intro owner
    exact (quiet_defineMethod (.undefined name owner) trivial rfl).bind
      fun _ => quiet_pure _
  next name arity v =>
    exact (quiet_defineSingleton c.frame v name arity .undefined trivial).bind fun _ => quiet_pure _
  next old new arity v w =>
    refine (quiet_moduleOf v).bind ?_
    intro source
    refine (quiet_moduleOf w).bind ?_
    intro target
    exact (quiet_aliasMethod old new arity source target).bind fun _ => quiet_pure _
  next v w =>
    intro m
    refine .moduleOf ?_
    intro target _
    refine .moduleOf ?_
    intro id is_module
    refine .of_valid fun valid => ?_
    refine (quiet_includeModule c.frame target (valid.module is_module)).bind ?_
    exact fun _ m' _ => quiet_pure _ m'
  next name v =>
    refine (quiet_moduleOf v).bind ?_
    intro owner
    exact (quiet_removeMethod c.frame owner name).bind fun _ => quiet_pure _
  next name v =>
    refine (quiet_moduleOf v).bind ?_
    intro owner
    exact (quiet_undefMethod c.frame owner name).bind fun _ => quiet_pure _
  next name visibility v =>
    refine (quiet_moduleOf v).bind ?_
    intro owner
    exact (quiet_setVisibility c.frame owner name visibility).bind fun _ => quiet_pure _
  next v =>
    refine (quiet_moduleOf v).bind ?_
    intro cls
    exact quiet_newObject cls .plain trivial nofun
  next name => exact (quiet_read _).bind fun _ => quiet_pure _
  next name v =>
    refine quiet_editFrame (fun frames => frames.assign c.frame name v) v ?_
    intro frames
    exact .inr ⟨_, fun f => f.define name v, fun _ => ⟨⟨rfl, rfl, rfl, rfl⟩, rfl, rfl⟩, rfl⟩
  next name v =>
    refine quiet_editFrame (fun frames => frames.define c.frame name v) v ?_
    intro frames
    exact .inr ⟨_, fun f => f.define name v, fun _ => ⟨⟨rfl, rfl, rfl, rfl⟩, rfl, rfl⟩, rfl⟩
  next name => exact (quiet_read _).bind fun _ => quiet_pure _
  next name v => exact (quiet_setGlobal name v).bind fun _ => quiet_pure _
  next name v => exact quiet_ivarGet c.frame v name
  next name v w => exact quiet_ivarSet c.frame v name w
  next file line =>
    exact (quiet_modifyFrame c.frame (fun f => { f with position := some ⟨file, line⟩ })
      fun _ => ⟨⟨rfl, rfl, rfl, rfl⟩, rfl, rfl⟩).bind fun _ => quiet_pure _
  next line =>
    refine quiet_editFrame (fun frames => frames.setLine c.frame line) _ ?_
    intro frames
    unfold Frames.setLine
    split
    next p _ =>
      exact .inr ⟨_, fun f => { f with position := some { p with line } },
        fun _ => ⟨⟨rfl, rfl, rfl, rfl⟩, rfl, rfl⟩, rfl⟩
    next => exact .inl rfl
  next => exact (quiet_read _).bind fun _ => quiet_pure _
  next message v =>
    refine (quiet_moduleOf v).bind ?_
    intro cls
    exact (quiet_newException cls _).bind fun _ => quiet_pure _
  next v => exact quiet_raise c.frame v
  next message v =>
    refine (quiet_moduleOf v).bind ?_
    intro cls
    exact quiet_fail c.frame _
  next tag v => exact quiet_throw c.frame tag v
  next cause =>
    intro m
    refine .read ?_
    exact (quiet_ofOption _).bind (fun fault => quiet_fail c.frame fault) m
  next => simp [Prim.isDisciplined] at disciplined
  next enabled => exact fun m => .read ((quiet_setGate _).bind (fun _ => quiet_pure _) m)
  next steps => exact (quiet_paused c.frame steps).bind fun _ => quiet_pure _
  next => exact quiet_malformed

end Run

end ObjectRuntime
