import ObjectRuntime.Numbered.Evaluate
import ObjectRuntime.Proofs.Numbered.Dispatching

/-!
# Observing with numbered names

The answer to a question is the same, but for what diagnostics show of a symbol. A name in a
question leads to the same method or binding as its text does.
-/

set_option autoImplicit false

namespace ObjectRuntime

namespace Numbered.Represents

variable {s : Numbered} {m : Machine} {name text : String}

theorem methodViews (represents : s.Represents m) {found found' : Option Method}
    (named : Named (fun ρ => Option.map (Method.rename ρ)) s.interner found found') :
    found.map s.methodView = found'.map m.methodView := by
  have functorial : Functorial fun ρ => Option.map (Method.rename ρ) :=
    ⟨fun found => by cases found <;> rfl, fun _ _ found => by cases found <;> rfl⟩
  rw [← named.text represents.sound functorial, Option.map_map]
  refine congrArg (Option.map · found) (funext fun method => ?_)
  change s.shown.methodView _ = m.methodView _
  rw [represents.shown]
  rfl

/-- Diagnostics show the same of a value, but for the name of a symbol. -/
theorem debugText (represents : s.Represents m) (v : Value) :
    Answer.Alike (.text (s.debugText v)) (.text (m.debugText v)) := by
  cases v with
  | int n => exact .same _
  | float x => exact .same _
  | object id =>
    obtain ⟨ρ, naming⟩ := represents.sound.exists_naming
    have found : s.machine.heap.get? id = (m.heap.get? id).map (·.rename ρ) := by
      rw [represents.machine ρ naming]
      exact m.heap.get?_rename id
    simp only [Numbered.debugText, Machine.debugText, Value.debugText, found]
    cases m.heap.get? id with
    | none => exact .same _
    | some o =>
      simp only [Option.map_some, Option.getD_some, Object.rename]
      cases o.payload with
      | symbol text => exact .symbol ("Name(" ++ ρ text ++ ")") text id
      | _ => exact .same _

end Numbered.Represents

theorem Machine.answer?_withLog (m : Machine) (log : List Answer) (env : FrameId) (q : Question)
    (operands : List Value) :
    (m.withLog log).answer? env q operands = m.answer? env q operands := rfl

namespace Sim

open Numbered.Run (lift)

variable {i : Interner}

abbrev Answers (_ : Interner) : Option Answer → Option Answer → Prop := Option.Rel Answer.Alike

theorem Answers.of_same {a b : Option Answer} (same : Same i a b) : Answers i a b := by
  rw [same]
  cases b with
  | none => exact .none
  | some b => exact .some (.same b)

theorem answers {x : Numbered.Run (Option Answer)} {y : Run (Option Answer)}
    (sim : Sim i Same x y) : Sim i Answers x y :=
  sim.mono fun _ _ _ same => .of_same same

theorem answer (env : FrameId) (q : Question) (operands : List Value) :
    Sim i Answers (Numbered.Run.answer env q operands)
      (Run.read fun m => m.answer? env q operands) := by
  unfold Numbered.Run.answer
  split
  next v => exact read fun s m _ represents => .some (represents.debugText v)
  next name includePrivate v =>
    refine intern fun j name' _ _ named => answers (seen (fun ρ naming m => ?_) fun _ _ => rfl)
    rw [named ρ naming]
    exact congrArg (fun flag => some (Answer.flag flag))
      (m.respondsTo_rename naming.injective name v includePrivate)
  next name v =>
    refine intern fun j name' _ _ named => answers (read fun s m later represents => ?_)
    cases v with
    | int n | float x => rfl
    | object id =>
      have views : (s.machine.resolve id name').map s.methodView =
          (m.resolve id name).map m.methodView := represents.methodViews fun ρ naming => by
        rw [represents.machine ρ naming, named ρ (naming.before later)]
        exact Machine.resolve_rename _ naming.injective name id
      exact congrArg (fun view => some (Answer.method view)) views
  next name v =>
    refine intern fun j name' _ _ named => answers (read fun s m later represents => ?_)
    cases v with
    | int n | float x => rfl
    | object id =>
      have views : (s.machine.singletonMethod? id name').map s.methodView =
          (m.singletonMethod? id name).map m.methodView := represents.methodViews fun ρ naming => by
        rw [represents.machine ρ naming, named ρ (naming.before later)]
        exact Machine.singletonMethod?_rename _ naming.injective name id
      exact congrArg (fun view => some (Answer.method view)) views
  next place name c =>
    refine intern fun j name' _ _ named => answers (read fun s m later represents => ?_)
    have views (id : ModuleId) : (s.machine.hierarchy.search place id name').map s.methodView =
        (m.hierarchy.search place id name).map m.methodView :=
      represents.methodViews fun ρ naming => by
        rw [represents.machine ρ naming, named ρ (naming.before later)]
        exact m.hierarchy.search_rename naming.injective name place id
    obtain ⟨ρ, naming⟩ := represents.sound.exists_naming
    have module : s.machine.module? c = m.module? c := by
      rw [represents.machine ρ naming, Machine.module?_rename]
      rfl
    change (s.machine.module? c).map _ = (m.module? c).map _
    rw [module]
    exact congrArg (Option.map · (m.module? c)) (funext fun id => congrArg Answer.method (views id))
  next name =>
    refine intern fun j name' _ _ named => answers (read fun s m later represents => ?_)
    change some (Answer.binding ((s.lookup env name').map s.shown.view)) = _
    rw [represents.lookup env (named.later later), represents.shown]
    rfl
  next name =>
    refine intern fun j name' _ _ named => answers (read fun s m later represents => ?_)
    obtain ⟨ρ, naming⟩ := represents.sound.exists_naming
    have bound : s.machine.frames.lookupLocal env name' = m.frames.lookupLocal env name := by
      rw [represents.machine ρ naming, named ρ (naming.before later)]
      exact m.frames.lookupLocal_rename naming.injective env name
    change some (Answer.binding ((s.machine.frames.lookupLocal env name').map s.shown.view)) = _
    rw [bound, represents.shown]
    rfl
  next name =>
    refine intern fun j name' _ _ named => answers (seen (fun ρ naming m => ?_) fun _ _ => rfl)
    rw [named ρ naming]
    exact congrArg (fun found => some (Answer.flag found.isSome))
      (Bindings.get?_rename_id naming.injective m.globals name)
  next =>
    exact answers (shown (f := fun m => m.answer? env q operands) fun m log =>
      m.answer?_withLog log env q operands)

/-! ### The collector -/

theorem setGate (gate : Gate) : Sim i Same (lift (Run.setGate gate)) (Run.setGate gate) :=
  step (fun _ _ _ => rfl) fun _ _ => rfl

theorem gate : Sim i Same (lift (Run.read fun m => m.heap.gate)) (Run.read fun m => m.heap.gate) :=
  step (fun _ _ _ => rfl) fun _ _ => rfl

theorem collect : Sim i Same (lift Run.collect) Run.collect := by
  refine gate.lifted fun gate => ?_
  obtain ⟨allowed, gate⟩ := gate.request
  refine (setGate gate).lifted fun _ => ?_
  cases allowed with
  | true =>
    exact (seen (fun _ _ m => m.markedObjects_rename) fun _ _ => rfl).lifted fun count =>
      value (some count)
  | false => exact value none

theorem logCollection :
    Sim i Same (lift do .log (.reachable (← Run.collect)))
      (do Run.log (.reachable (← Run.collect))) :=
  collect.lifted fun count => log (.same (.reachable count))

theorem ask (env : FrameId) (q : Question) (operands : List Value) :
    Sim i Same (Numbered.Run.ask env q operands) (Run.ask env q operands) := by
  have answered (q : Question) : Sim i Same
      (do lift (.log (← Numbered.Run.ofOption (← Numbered.Run.answer env q operands))))
      (do Run.log (← Run.ofOption (← Run.read fun m => m.answer? env q operands))) := by
    refine (answer env q operands).bind fun j a b _ _ alike => ?_
    cases alike with
    | none => exact exit .malformed
    | some alike => exact log alike
  cases q with
  | collect => exact logCollection
  | _ => exact answered _

theorem register (name : String) :
    Sim i Same (Numbered.Run.see fun m => m.desk.registers.get? name)
      (Run.read fun m => m.desk.registers.get? name) :=
  seen (fun _ _ _ => rfl) fun _ _ => rfl

theorem setRegister (name : String) (v : Value) :
    Sim i Same (lift (Run.setRegister name v)) (Run.setRegister name v) :=
  step (fun _ _ _ => rfl) fun _ _ => rfl

theorem hydrateRegister (name : String) :
    Sim i Same (lift (Run.hydrateRegister name)) (Run.hydrateRegister name) :=
  (register name).lifted fun v => (ofOption v).lifted fun v => (hydrate v).lifted fun id =>
    (setRegister name (Value.object id)).lifted fun _ => value (Value.object id)

mutual

theorem paused (env : FrameId) (steps : List PauseStep) :
    Sim i Same (lift (Run.paused env steps)) (Run.paused env steps) := by
  rw [Run.paused]
  refine gate.lifted fun gate => (setGate _).lifted fun _ => ?_
  exact (pausedSteps env steps).afterward
    (f := fun m => { m with heap := { m.heap with gate := m.heap.gate.release gate.pause.1 } })
    (fun _ _ => rfl) fun _ _ => rfl

theorem pausedSteps (env : FrameId) (steps : List PauseStep) :
    Sim i Same (lift (Run.pausedSteps env steps)) (Run.pausedSteps env steps) := by
  cases steps with
  | nil =>
    rw [Run.pausedSteps]
    exact value ()
  | cons step rest =>
    rw [Run.pausedSteps]
    exact (pauseStep env step).lifted fun _ => pausedSteps env rest

theorem pauseStep (env : FrameId) (step : PauseStep) :
    Sim i Same (lift (Run.pauseStep env step)) (Run.pauseStep env step) := by
  cases step with
  | hydrate register =>
    rw [Run.pauseStep]
    exact (hydrateRegister register).lifted fun _ => value ()
  | collect =>
    rw [Run.pauseStep]
    exact logCollection
  | collectorState =>
    rw [Run.pauseStep]
    have state : Sim i Same (Numbered.Run.see fun m => m.answer? env .collectorState [])
        (Run.read fun m => m.answer? env .collectorState []) :=
      seen (fun _ _ _ => rfl) fun _ _ => rfl
    exact state.lifted fun state => (ofOption state).lifted fun answer => log (.same answer)
  | enable =>
    rw [Run.pauseStep]
    exact gate.lifted fun gate => setGate _
  | paused steps =>
    rw [Run.pauseStep]
    exact paused env steps

end

end Sim

end ObjectRuntime
