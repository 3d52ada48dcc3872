import ObjectRuntime.Numbered.Unwind
import ObjectRuntime.Proofs.Numbered.Simulation

/-!
# Unwinding and opening with numbered names

The elementary steps simulate each other when they are given what stands for each other. With them
exceptions are raised with the same messages, backtraces and targets, and classes, modules, methods
and variables are opened and set under the names for the same texts.
-/

set_option autoImplicit false

namespace ObjectRuntime.Sim

open Numbered.Run (lift lift_bind)

variable {α β : Type} {i : Interner} {R : Interner → α → β → Prop} {name text : String}

/-! ### Elementary steps -/

theorem allocate {o o' : Object} (named : Named Object.rename i o o') :
    Sim i Same (lift (Run.allocate o)) (Run.allocate o') := by
  refine step (fun ρ naming m => ?_) fun _ _ => rfl
  have next : (m.heap.rename ρ).next = m.heap.next := congrArg ObjectId.mk m.heap.size_rename
  change (Except.ok (m.heap.rename ρ).next,
    { m.rename ρ with heap := (m.heap.rename ρ).push o }) = _
  rw [next, named ρ naming, Heap.push_rename]
  rfl

theorem modifyObject (id : ObjectId) {edit edit' : Object → Object}
    (mirrors : ∀ ρ, i.Naming ρ → ∀ o, edit (o.rename ρ) = (edit' o).rename ρ) :
    Sim i Same (lift (Run.modifyObject id edit)) (Run.modifyObject id edit') :=
  modify (fun ρ naming m => congrArg (fun heap => { m.rename ρ with heap })
    (m.heap.modify_rename id (mirrors ρ naming))) fun _ _ => rfl

theorem newObject (cls : ModuleId) {payload : Payload} (plain : ∀ ρ, payload.rename ρ = payload) :
    Sim i Same (lift (Run.newObject cls payload)) (Run.newObject cls payload) := by
  have named : Named Object.rename i (.ofPayload cls payload) (.ofPayload cls payload) :=
    fun ρ _ => congrArg (Object.ofPayload cls) (plain ρ).symm
  exact (allocate named).lifted fun id => value (Value.object id)

theorem newText (content : String) :
    Sim i Same (lift (Run.newText content)) (Run.newText content) :=
  newObject Core.string.id fun _ => rfl

theorem newException (cls : ModuleId) {data data' : ExceptionData}
    (named : Named ExceptionData.rename i data data') :
    Sim i Same (lift (Run.newException cls data)) (Run.newException cls data') :=
  allocate fun ρ naming => by rw [named ρ naming]; rfl

theorem symbol (named : Named (fun ρ => ρ) i name text) :
    Sim i Same (lift (Run.symbol name)) (Run.symbol text) := by
  have found : Sim i Same (Numbered.Run.see fun m => m.symbols.get? name)
      (Run.read fun m => m.symbols.get? text) := by
    refine seen (fun ρ naming m => ?_) fun _ _ => rfl
    rw [named ρ naming]
    exact Bindings.get?_rename_id naming.injective m.symbols text
  have object : Named Object.rename i (.ofPayload Core.symbol.id (.symbol name))
      (.ofPayload Core.symbol.id (.symbol text)) := fun ρ naming => by rw [named ρ naming]; rfl
  refine found.lifted fun id => ?_
  cases id with
  | some id => exact value (Value.object id)
  | none =>
    refine (allocate object).lifted fun id => ?_
    refine (modify (fun ρ naming m => ?_) fun _ _ => rfl).lifted fun _ => value (Value.object id)
    rw [named ρ naming]
    exact congrArg (fun symbols => { m.rename ρ with symbols })
      (Bindings.insert_rename_id naming.injective m.symbols text id)

theorem hydrate (v : Value) : Sim i Same (lift (Run.hydrate v)) (Run.hydrate v) := by
  cases v with
  | object id => exact value id
  | int n => exact allocate fun _ _ => rfl
  | float x => exact allocate fun _ _ => rfl

theorem newFrame {frame frame' : Frame} (named : Named Frame.rename i frame frame') :
    Sim i Same (lift (Run.newFrame frame)) (Run.newFrame frame') := by
  refine step (fun ρ naming m => ?_) fun _ _ => rfl
  have next : (m.frames.rename ρ).next = m.frames.next := congrArg FrameId.mk m.frames.size_rename
  change (Except.ok (m.frames.rename ρ).next,
    { m.rename ρ with frames := (m.frames.rename ρ).push frame }) = _
  rw [next, named ρ naming, Frames.push_rename]
  rfl

theorem modifyFrame (id : FrameId) {edit edit' : Frame → Frame}
    (mirrors : ∀ ρ, i.Naming ρ → ∀ frame, edit (frame.rename ρ) = (edit' frame).rename ρ) :
    Sim i Same (lift (Run.modifyFrame id edit)) (Run.modifyFrame id edit') :=
  modify (fun ρ naming m => congrArg (fun frames => { m.rename ρ with frames })
    (m.frames.modify_rename id (mirrors ρ naming))) fun _ _ => rfl

theorem define (id : FrameId) (named : Named (fun ρ => ρ) i name text) (v : Value) :
    Sim i Same (Numbered.Run.modify fun m => { m with frames := m.frames.define id name v })
      (Run.modify fun m => { m with frames := m.frames.define id text v }) := by
  refine modify (fun ρ naming m => ?_) fun _ _ => rfl
  rw [named ρ naming]
  exact congrArg (fun frames => { m.rename ρ with frames })
    (m.frames.define_rename naming.injective id text v)

theorem modifyHierarchy {edit edit' : Hierarchy → Hierarchy}
    (mirrors : ∀ ρ, i.Naming ρ → ∀ h, edit (h.rename ρ) = (edit' h).rename ρ) :
    Sim i Same (lift (Run.modifyHierarchy edit)) (Run.modifyHierarchy edit') :=
  modify (fun ρ naming m => congrArg (fun hierarchy => { m.rename ρ with hierarchy })
    (mirrors ρ naming m.hierarchy)) fun _ _ => rfl

theorem newToken : Sim i Same (lift Run.newToken) Run.newToken :=
  step (fun _ _ _ => rfl) fun _ _ => rfl

theorem count (event : Event) : Sim i Same (lift (Run.count event)) (Run.count event) :=
  step (fun _ _ _ => rfl) fun _ _ => rfl

theorem stamp {method method' : Method} (named : Named Method.rename i method method') :
    Sim i (Named Method.rename) (lift (Run.stamp method)) (Run.stamp method') := by
  refine Sim.named (fun ρ naming m => ?_) fun _ _ => rfl
  rw [named ρ naming]
  rfl

theorem setGlobal (named : Named (fun ρ => ρ) i name text) (v : Value) :
    Sim i Same (lift (Run.setGlobal name v)) (Run.setGlobal text v) := by
  refine modify (fun ρ naming m => ?_) fun _ _ => rfl
  rw [named ρ naming]
  exact congrArg (fun globals => { m.rename ρ with globals })
    (Bindings.insert_rename_id naming.injective m.globals text v)

theorem core (text : String) {k : String → Numbered.Run α} {y : Run β}
    (isCore : text ∈ Interner.coreNames)
    (rest : ∀ j name, i.Extends j → Named (fun ρ => ρ) j name text → Sim j R (k name) y) :
    Sim i R (Numbered.Run.read (fun s => s.core text) >>= k) y := by
  intro s m later represents
  obtain ⟨number, known⟩ := represents.sound.core text isCore
  have named : Named (fun ρ => ρ) s.interner (s.core text) text :=
    fun ρ naming => naming.nameOf known
  exact rest s.interner _ later named s m (.refl _) represents

/-! ### Raising -/

theorem noteBacktrace (id : ObjectId) (lines : List String) :
    Sim i Same (Numbered.Run.modify (Numbered.Run.noteBacktrace id lines))
      (Run.modify (Numbered.Run.noteBacktrace id lines)) := by
  -- Whether there is a backtrace already does not depend on names, nor on the log.
  refine modify (fun ρ _ m => ?_) fun m log => ?_
  · have data : ((m.heap.rename ρ).get? id).bind Object.exception? =
        ((m.heap.get? id).bind Object.exception?).map (·.rename ρ) := by
      rw [Heap.get?_rename, Option.bind_map, Option.map_bind]
      exact congrArg _ (funext Object.exception?_rename)
    have noted : (m.heap.rename ρ).modify id
          (fun o => o.mapException fun d => { d with backtrace := lines }) =
        (m.heap.modify id fun o =>
          o.mapException fun d => { d with backtrace := lines }).rename ρ :=
      m.heap.modify_rename id fun o => o.mapException_rename fun _ => rfl
    simp only [Numbered.Run.noteBacktrace, Machine.rename_heap, data]
    cases (m.heap.get? id).bind Object.exception? with
    | none => rfl
    | some data =>
      simp only [Option.map_some, ExceptionData.rename, noted]
      split <;> rfl
  · simp only [Numbered.Run.noteBacktrace, Machine.withLog_heap]
    cases (m.heap.get? id).bind Object.exception? with
    | none => rfl
    | some data => dsimp only; split <;> rfl

theorem recordBacktrace (env : FrameId) (id : ObjectId) :
    Sim i Same (Numbered.Run.recordBacktrace env id) (Run.recordBacktrace env id) :=
  (shown (f := fun m => m.backtrace env) fun _ _ => rfl).andThen fun lines => noteBacktrace id lines

theorem raiseException (env : FrameId) (id : ObjectId) :
    Sim i R (Numbered.Run.raiseException env id) (Run.raiseException env id) :=
  (recordBacktrace env id).andThen fun _ => (count .raised).andThen fun _ =>
    (seen (fun _ _ m => m.frames.findTarget_rename env Run.isRescue) fun _ _ => rfl).andThen
      fun target =>
      exit (.signal (.raise id target))

theorem nameIn (fault : Fault) {k : Option String → Numbered.Run α} {y : Run β}
    (rest : ∀ j name, i.Extends j → Named (fun ρ => Option.map ρ) j name fault.name? →
      Sim j R (k name) y) : Sim i R (Numbered.Run.nameIn fault >>= k) y := by
  unfold Numbered.Run.nameIn
  cases about : fault.name? with
  | none => exact rest i none (.refl i) fun _ _ => by rw [about]; rfl
  | some text =>
    refine intern fun j name later _ named => rest j (some name) later fun ρ naming => ?_
    rw [about, named ρ naming]
    rfl

theorem fail (env : FrameId) (fault : Fault) :
    Sim i R (Numbered.Run.fail env fault) (Run.fail env fault) :=
  nameIn fault fun _ name _ named => by
    have data : Named ExceptionData.rename _ { fault.data with name } fault.data := fun ρ naming =>
      congrArg (fun name => { fault.data with name }) (named ρ naming)
    exact (newException fault.cls data).andThen fun id => raiseException env id

theorem failAbout (env : FrameId) (fault : String → String → Fault) (subject : Machine → String)
    (silent : ∀ m log, subject (Machine.withLog m log) = subject m)
    (named : Named (fun ρ => ρ) i name text) :
    Sim i R
      (do let fault ← Numbered.Run.read fun s => fault (s.text name) (subject s.shown)
          Numbered.Run.fail env fault)
      (do let shown ← Run.read subject
          Run.fail env (fault text shown)) := by
  have shown : Sim i (fun _ cause shown => cause = fault text shown)
      (Numbered.Run.read fun s => fault (s.text name) (subject s.shown)) (Run.read subject) :=
    read fun s m later represents => by
      rw [represents.text (named.later later), represents.shown, silent]
  refine shown.bind fun j _ shown _ _ same => ?_
  rw [same]
  exact fail env (fault text shown)

theorem raise (env : FrameId) (v : Value) :
    Sim i R (Numbered.Run.raise env v) (Run.raise env v) := by
  refine (seen (fun _ _ m => m.isException_rename v) fun _ _ => rfl).andThen fun isException => ?_
  match v.object?, isException with
  | some id, true => exact raiseException env id
  | some _, false => exact fail env .notAnException
  | none, _ => exact fail env .notAnException

theorem orFail (env : FrameId) (result : Except Fault α) :
    Sim i Same (Numbered.Run.orFail env result) (Run.orFail env result) := by
  cases result with
  | ok a => exact value a
  | error fault => exact fail env fault

theorem throw (env : FrameId) (tag v : Value) :
    Sim i R (Numbered.Run.throw env tag v) (Run.throw env tag v) := by
  refine (seen (fun _ _ m => m.frames.findTarget_rename env (Run.isCatchOf tag))
    fun _ _ => rfl).andThen fun target => ?_
  cases target with
  | some target => exact exit (.signal (.throw tag v target))
  | none =>
    exact (shown (f := fun m => m.inspect tag) fun _ _ => rfl).andThen fun shown =>
      fail env (.uncaughtThrow shown)

theorem withTarget (env : FrameId) (kind : TargetKind) {x : Numbered.Run α} {y : Run α}
    (body : Sim i Same x y) :
    Sim i Same (Numbered.Run.withTarget env kind x) (Run.withTarget env kind y) :=
  newToken.andThen fun token =>
    (modifyFrame env fun _ _ _ => rfl).andThen fun _ =>
      (attempt body).andThen fun outcome =>
        (modifyFrame env fun _ _ _ => rfl).andThen fun _ => value (token, outcome)

theorem rescue (env : FrameId) {x : Numbered.Run Value} {y : Run Value} (body : Sim i Same x y) :
    Sim i Same (Numbered.Run.rescue env x) (Run.rescue env y) := by
  refine (withTarget env .rescue body).andThen fun ending => ?_
  obtain ⟨token, outcome⟩ := ending
  match outcome with
  | .ok v => exact value (Run.Rescued.completed v)
  | .error (.signal (.raise id target)) =>
    refine ite _ ?_ (exit (.signal (.raise id target)))
    refine (modifyFrame env fun _ _ _ => rfl).andThen fun _ => ?_
    refine core Run.lastError (by decide) fun j name later named => ?_
    exact (setGlobal named (Value.object id)).andThen fun _ =>
      value (Run.Rescued.delivered (.object id))
  | .error (.signal (.throw tag v target)) => exact exit (.signal (.throw tag v target))
  | .error .exhausted => exact exit .exhausted
  | .error .malformed => exact exit .malformed

theorem catching (env : FrameId) (tag : Value) {x : Numbered.Run Value} {y : Run Value}
    (body : Sim i Same x y) :
    Sim i Same (Numbered.Run.catching env tag x) (Run.catching env tag y) := by
  refine (withTarget env (.catching tag) body).andThen fun ending => ?_
  obtain ⟨token, outcome⟩ := ending
  match outcome with
  | .ok v => exact value v
  | .error (.signal (.throw thrown v target)) =>
    exact ite _ (value v) (exit (.signal (.throw thrown v target)))
  | .error (.signal (.raise id target)) => exact exit (.signal (.raise id target))
  | .error .exhausted => exact exit .exhausted
  | .error .malformed => exact exit .malformed

theorem ensure {x : Numbered.Run α} {y : Run α} {cleanup : Numbered.Run Unit} {cleanup' : Run Unit}
    (body : Sim i Same x y) (last : Sim i Same cleanup cleanup') :
    Sim i Same (Numbered.Run.ensure x cleanup) (Run.ensure y cleanup') := by
  refine (attempt body).andThen fun outcome => ?_
  match outcome with
  | .ok a => exact last.andThen fun _ => value a
  | .error (.signal s) => exact last.andThen fun _ => exit (.signal s)
  | .error .exhausted => exact exit .exhausted
  | .error .malformed => exact exit .malformed

theorem reportOf (id : ObjectId) :
    Sim i Same (Numbered.Run.reportOf id) (Run.uncaught.reportOf id) := by
  refine read fun s m _ represents => ?_
  rw [represents.shown]
  rfl

theorem uncaught (env : FrameId) (s : Signal) :
    Sim i Same (Numbered.Run.uncaught env s) (Run.uncaught env s) := by
  cases s with
  | raise id target => exact reportOf id
  | throw tag v target =>
    refine (shown (f := fun m => m.inspect tag) fun _ _ => rfl).andThen fun shown => ?_
    exact (newException _ fun _ _ => rfl).andThen fun id =>
      (recordBacktrace env id).andThen fun _ => reportOf id

end ObjectRuntime.Sim
