import ObjectRuntime.Numbered.Dispatch
import ObjectRuntime.Proofs.Numbered.Unwinding

/-!
# Dispatch with numbered names

Look-up decides by the text of a name whether it is seen from inside a method, and direct operators
are known by the names of their selectors. Everything else in a send goes by names, whatever they
are. The bodies of methods and blocks are run by runners that are assumed to simulate each other.
-/

set_option autoImplicit false

namespace ObjectRuntime

namespace Numbered.Represents

variable {s : Numbered} {m : Machine} {name text : String}

theorem definingFrame? (represents : s.Represents m) (id : FrameId)
    (named : Named (fun ρ => ρ) s.interner name text) :
    s.definingFrame? id name = m.frames.definingFrame? id text := by
  obtain ⟨ρ, naming⟩ := represents.sound.exists_naming
  have frames : s.machine.frames = m.frames.rename ρ :=
    congrArg Machine.frames (represents.machine ρ naming)
  have local_ (frame : FrameId) : (m.frames.rename ρ).lookupLocal frame name =
      m.frames.lookupLocal frame text := by
    rw [named ρ naming]
    exact m.frames.lookupLocal_rename naming.injective frame text
  simp only [Numbered.definingFrame?, represents.text named, frames, Frames.searched_rename,
    Frames.scopes_rename, local_, Frames.definingFrame?]

theorem lookup (represents : s.Represents m) (id : FrameId)
    (named : Named (fun ρ => ρ) s.interner name text) :
    s.lookup id name = m.frames.lookup id text := by
  obtain ⟨ρ, naming⟩ := represents.sound.exists_naming
  have frames : s.machine.frames = m.frames.rename ρ :=
    congrArg Machine.frames (represents.machine ρ naming)
  rw [Numbered.lookup, represents.definingFrame? id named, frames, named ρ naming, Frames.lookup]
  exact congrArg _ (funext fun frame => m.frames.lookupLocal_rename naming.injective frame text)

theorem operator? (represents : s.Represents m) (table : List Operator)
    (named : Named (fun ρ => ρ) s.interner name text) :
    s.operator? table name = Operator.find? table text := by
  obtain ⟨ρ, naming⟩ := represents.sound.exists_naming
  refine congrArg (List.find? · table) (funext fun op => ?_)
  -- Selectors of operators have their numbers from the start, so comparing numbers is enough.
  have isCore : op.selector ∈ Interner.coreNames := by cases op <;> decide
  obtain ⟨number, known⟩ := represents.sound.core op.selector isCore
  change (s.interner.nameOf op.selector == name) = _
  rw [naming.nameOf known, named ρ naming, beq_eq_decide, beq_eq_decide]
  exact decide_eq_decide.2 naming.injective.eq_iff

theorem directOperator? (represents : s.Represents m) (receiver : Value) (args : List Value)
    (named : Named (fun ρ => ρ) s.interner name text) :
    s.directOperator? receiver name args = Run.directOperator? m receiver text args := by
  obtain ⟨ρ, naming⟩ := represents.sound.exists_naming
  have hierarchy : s.machine.hierarchy = m.hierarchy.rename ρ :=
    congrArg Machine.hierarchy (represents.machine ρ naming)
  have method (cls : ModuleId) : s.machine.hierarchy.findMethod cls name =
      (m.hierarchy.findMethod cls text).map (·.rename ρ) := by
    rw [hierarchy, named ρ naming]
    exact m.hierarchy.findMethod_rename naming.injective text cls
  simp only [Numbered.directOperator?, Run.directOperator?, represents.operator? _ named, method]
  cases Run.directTable receiver with
  | none => rfl
  | some entry =>
    simp only [Option.bind_eq_bind, Option.bind_some]
    refine congrArg _ (funext fun op => ?_)
    cases args with
    | nil => rfl
    | cons argument rest =>
      cases rest with
      | nil => cases m.hierarchy.findMethod entry.1 text <;> rfl
      | cons _ _ => rfl

end Numbered.Represents

namespace Sim

open Numbered.Run (lift)

variable {α β : Type} {i : Interner} {R : Interner → α → β → Prop} {name text : String}

/-- Whatever both run, however much the interner knows by then, they end in the same way. -/
def Runs (run : Numbered.Runner) (run' : Runner) : Prop :=
  ∀ i entry frame receiver args block,
    Sim i Same (run entry frame receiver args block) (run' entry frame receiver args block)

/-! ### Calls -/

theorem enterCall (caller : FrameId) :
    Sim i Same (Numbered.Run.enterCall caller) (Run.enterCall caller) := by
  refine (seen (g := Run.allowsCall) (fun _ _ _ => rfl) fun _ _ => rfl).andThen
    fun allowed => ite _ ?_ ?_
  · exact modify (fun _ _ _ => rfl) fun _ _ => rfl
  · exact fail caller .stackTooDeep

theorem enterFrame (frame : FrameId) :
    Sim i Same (lift (Run.enterFrame frame)) (Run.enterFrame frame) :=
  step (fun _ _ _ => rfl) fun _ _ => rfl

theorem leaveCall (frame : FrameId) (previous : Option FrameId) (ρ : String → String)
    (m : Machine) :
    Run.leaveCall frame previous (m.rename ρ) = (Run.leaveCall frame previous m).rename ρ := by
  have frames :
      (m.frames.rename ρ).modify frame (fun f => { f with caller := none, receiver := none }) =
      (m.frames.modify frame fun f => { f with caller := none, receiver := none }).rename ρ :=
    m.frames.modify_rename frame fun _ => rfl
  simp only [Run.leaveCall, Machine.rename_frames, frames]
  rfl

section Calls

variable {run : Numbered.Runner} {run' : Runner} (runs : Runs run run') (caller : FrameId)
  (receiver : Value) (args : List Value) (block : Option Block)
include runs

theorem inNewFrame {frame frame' : Frame} (named : Named Frame.rename i frame frame')
    (entry : Entry) :
    Sim i Same (Numbered.Run.inNewFrame run caller frame entry receiver args block)
      (Run.inNewFrame run' caller frame' entry receiver args block) := by
  refine (enterCall caller).andThen fun _ => ?_
  have place : Sim i (Named fun ρ => Option.map (Position.rename ρ))
      (Numbered.Run.see fun m => m.frames.position caller)
      (Run.read fun m => m.frames.position caller) :=
    see (fun _ _ m => m.frames.position_rename caller) fun _ _ => rfl
  refine place.bind fun j position position' later _ placed => ?_
  have entered : Named Frame.rename j
      { frame with caller := some caller, position, receiver := some receiver }
      { frame' with caller := some caller, position := position', receiver := some receiver } :=
    fun ρ naming => by
      rw [named ρ (naming.before later), placed ρ naming]
      rfl
  refine (newFrame entered).andThen fun id => (enterFrame id).andThen fun previous => ?_
  exact (runs j entry id receiver args block).afterward (leaveCall id previous) fun _ _ => rfl

theorem callBlock (called : Block) :
    Sim i Same (Numbered.Run.callBlock run caller called args)
      (Run.callBlock run' caller called args) :=
  inNewFrame runs caller called.receiver args none (fun _ _ => rfl) called.entry

variable {method method' : Method} (named : Named Method.rename i method method') (sound : i.Sound)
  (place : Option Nat)
include named sound

theorem enter (entry : Entry) (kind : FrameKind) (outer : Option FrameId) :
    Sim i Same
      (Numbered.Run.invokeAt.enter run caller method receiver args block place entry kind outer)
      (Run.invokeAt.enter run' caller method' receiver args block place entry kind outer) := by
  have arity : method.arity = method'.arity := named.part sound fun _ => rfl
  unfold Numbered.Run.invokeAt.enter Run.invokeAt.enter
  rw [arity]
  refine ite _ ?_ (fail caller (.wrongArity args.length method'.arity))
  refine inNewFrame runs caller receiver args block (fun ρ naming => ?_) entry
  rw [named ρ naming]
  rfl

theorem invokeAt :
    Sim i Same (Numbered.Run.invokeAt run caller method receiver args block place)
      (Run.invokeAt run' caller method' receiver args block place) := by
  have body : method.body = method'.body := named.part sound fun _ => rfl
  have owner : method.owner = method'.owner := named.part sound fun _ => rfl
  unfold Numbered.Run.invokeAt Run.invokeAt
  rw [body, owner]
  cases method'.body with
  | undefined =>
    have called : Named (fun ρ => ρ) i method.name method'.name := fun ρ naming => by
      rw [named ρ naming]
      rfl
    exact failAbout caller (.methodMissing .notFound) (fun m => m.describeReceiver receiver)
      (fun _ _ => rfl) called
  | native entry =>
    refine (seen (fun _ _ m => m.ownerFrame_rename method'.owner) fun _ _ => rfl).andThen
      fun outer => ?_
    exact enter runs caller receiver args block named sound place entry .method outer
  | closure entry outer =>
    exact enter runs caller receiver args block named sound place entry .closureMethod (some outer)

theorem invoke :
    Sim i Same (Numbered.Run.invoke run caller method receiver args block)
      (Run.invoke run' caller method' receiver args block) :=
  invokeAt runs caller receiver args block named sound none

end Calls

/-! ### Sends -/

theorem route (receiver : Value) (named : Named (fun ρ => ρ) i name text) (args : List Value) :
    Sim i Same (Numbered.Run.route receiver name args) (Run.route receiver text args) := by
  refine (count .send).andThen fun _ => ?_
  refine (read (R := Same) fun s m later represents =>
    represents.directOperator? receiver args (named.later later)).andThen fun direct => ?_
  cases direct with
  | some entry =>
    exact (count .direct).andThen fun _ => value (Run.Route.direct entry.1 receiver entry.2)
  | none =>
    have general : Sim i Same (do return Run.Route.general (← lift (Run.hydrate receiver)))
        (do return Run.Route.general (← Run.hydrate receiver)) :=
      (hydrate receiver).andThen fun id => value (Run.Route.general id)
    cases receiver.isImmediate with
    | true => exact (count .hydration).andThen fun _ => general
    | false => exact general

theorem resolve (id : ObjectId) (named : Named (fun ρ => ρ) i name text) :
    Sim i (Named fun ρ => Option.map (Method.rename ρ))
      (Numbered.Run.see fun m => Method.defined? (m.resolve id name))
      (Run.read fun m => Method.defined? (m.resolve id text)) := by
  refine see (fun ρ naming m => ?_) fun _ _ => rfl
  rw [named ρ naming]
  exact (congrArg Method.defined? (m.resolve_rename naming.injective text id)).trans
    (Method.defined?_rename _)

theorem applyOperator (env : FrameId) (op : Operator) (left right : Value) :
    Sim i Same (Numbered.Run.applyOperator env op left right)
      (Run.applyOperator env op left right) :=
  (shown (f := fun m => m.apply op left right) fun _ _ => rfl).andThen fun result =>
    orFail env result

section Sends

variable {run : Numbered.Runner} {run' : Runner} (runs : Runs run run') (env : FrameId)
  (named : Named (fun ρ => ρ) i name text) (args : List Value) (block : Option Block)
include runs named

theorem methodMissing (id : ObjectId) (reason : MissReason) :
    Sim i Same (Numbered.Run.methodMissing run env id name args block reason)
      (Run.methodMissing run' env id text args block reason) := by
  refine (modify (fun _ _ _ => rfl) fun _ _ => rfl).andThen
    fun _ => (count .missing).andThen fun _ => ?_
  refine core "method_missing" (by decide) fun j fallback later fallbackNamed => ?_
  refine (resolve id fallbackNamed).option ?_ fun k method method' further sound found => ?_
  · exact failAbout env (.methodMissing reason) (fun m => m.describeReceiver (.object id))
      (fun _ _ => rfl) (named.later later)
  · refine (symbol (named.later (later.trans further))).andThen fun symbol => ?_
    exact invoke runs env (.object id) (symbol :: args) block found sound

theorem sendToObject (kind : SendKind) (id : ObjectId) :
    Sim i Same (Numbered.Run.sendToObject run env kind id name args block)
      (Run.sendToObject run' env kind id text args block) := by
  refine (resolve id named).option (methodMissing runs env named args block id .notFound)
    fun j method method' later sound found => ?_
  have refusal : Run.refusal? kind method = Run.refusal? kind method' :=
    found.part sound fun _ => rfl
  dsimp only
  rw [refusal]
  cases Run.refusal? kind method' with
  | some reason => exact methodMissing runs env (named.later later) args block id reason
  | none => exact invoke runs env (.object id) args block found sound

theorem follow (kind : SendKind) (route : Run.Route) :
    Sim i Same (Numbered.Run.follow run env kind name args block route)
      (Run.follow run' env kind text args block route) := by
  cases route with
  | direct op receiver argument => exact applyOperator env op receiver argument
  | general id => exact sendToObject runs env named args block kind id

theorem send (kind : SendKind) (receiver : Value) :
    Sim i Same (Numbered.Run.send run env kind receiver name args block)
      (Run.send run' env kind receiver text args block) :=
  (route receiver named args).andThen fun way => follow runs env named args block kind way

theorem identify (receiver : Value) :
    Sim i (fun j a b => a.1 = b.1 ∧ Sim j Same a.2 b.2)
      (Numbered.Run.identify run env receiver name args)
      (Run.identify run' env receiver text args) := by
  refine (read (R := Same) fun s m later represents =>
    represents.lookup env (named.later later)).andThen fun found => ?_
  have sent : Sim i (fun j a b => a.1 = b.1 ∧ Sim j Same a.2 b.2)
      (do let way ← Numbered.Run.route receiver name args
          return (way.receiver, Numbered.Run.follow run env .anyMethod name args none way))
      (do let way ← Run.route receiver text args
          return (way.receiver, Run.follow run' env .anyMethod text args none way)) :=
    (route receiver named args).andThen fun way => pure fun j later =>
      ⟨rfl, follow runs env (named.later later) args none .anyMethod way⟩
  match args, found with
  | [], some v => exact pure fun _ _ => ⟨rfl, value v⟩
  | [], none => exact sent
  | _ :: _, some _ => exact sent
  | _ :: _, none => exact sent

end Sends

/-! ### Calls of super -/

theorem running {frame frame' : Option Frame}
    (named : Named (fun ρ => Option.map (Frame.rename ρ)) i frame frame') :
    Named (fun ρ => Option.map fun entry => (entry.1.rename ρ, entry.2.rename ρ)) i
      (frame.bind fun f => f.method.map fun method => (f, method))
      (frame'.bind fun f => f.method.map fun method => (f, method)) := by
  intro ρ naming
  rw [named ρ naming]
  cases frame' with
  | none => rfl
  | some f =>
    change (f.method.map (·.rename ρ)).map (fun method => (f.rename ρ, method)) =
      (f.method.map fun method => (f, method)).map _
    rw [Option.map_map, Option.map_map]
    rfl

theorem nextDefinition (id : ObjectId) {current current' : Method} (recorded : Option Nat)
    (named : Named Method.rename i current current') :
    Sim i (Named fun ρ => Option.map fun entry => (entry.1, entry.2.rename ρ))
      (Numbered.Run.see fun m => Run.nextDefinition m id current recorded)
      (Run.read fun m => Run.nextDefinition m id current' recorded) := by
  refine see (fun ρ naming m => ?_) fun _ _ => rfl
  rw [named ρ naming]
  exact m.nextDefinition_rename naming.injective id current' recorded

theorem callSuper {run : Numbered.Runner} {run' : Runner} (runs : Runs run run') (env : FrameId)
    (receiver : Value) (args : List Value) (block : Option Block) :
    Sim i Same (Numbered.Run.callSuper run env receiver args block)
      (Run.callSuper run' env receiver args block) := by
  have methodFrame : Sim i (Named fun ρ => Option.map (Frame.rename ρ))
      (Numbered.Run.see fun m => (m.frames.methodFrame? env).bind m.frames.get?)
      (Run.read fun m => (m.frames.methodFrame? env).bind m.frames.get?) :=
    see (fun _ _ m => m.frames.methodFrame_rename env) fun _ _ => rfl
  refine methodFrame.bind fun j frame frame' _ sound around => ?_
  dsimp only
  obtain ⟨absent, absent'⟩ | ⟨entry, entry', present, present', both⟩ :=
    (running around).option sound
  · rw [absent, absent']
    exact fail env .superOutsideMethod
  rw [present, present']
  obtain ⟨f, current⟩ := entry
  obtain ⟨f', current'⟩ := entry'
  have place : f.ancestorIndex = f'.ancestorIndex :=
    both.part (f := fun entry => entry.1.ancestorIndex) (g := fun entry => entry.1.ancestorIndex)
      sound fun _ => rfl
  have method : Named Method.rename j current current' := fun ρ naming =>
    congrArg Prod.snd (both ρ naming)
  refine (hydrate receiver).andThen fun id => ?_
  rw [place]
  refine (nextDefinition id f'.ancestorIndex method).option ?_ fun k found found' _ sound both => ?_
  · have name : Named (fun ρ => ρ) j current.name current'.name := fun ρ naming =>
      congrArg Method.name (method ρ naming)
    exact failAbout env .noSuperMethod (fun m => m.describeReceiver (.object id)) (fun _ _ => rfl)
      name
  · obtain ⟨place, method⟩ := found
    obtain ⟨place', method'⟩ := found'
    have samePlace : place = place' := both.part (f := Prod.fst) (g := Prod.fst) sound fun _ => rfl
    have found : Named Method.rename k method method' := fun ρ naming =>
      congrArg Prod.snd (both ρ naming)
    rw [samePlace]
    have invoked (block : Option Block) :=
      invokeAt runs env (.object id) args block found sound place'
    cases block with
    | some block => exact invoked (some block)
    | none =>
      exact (seen (fun _ _ m => m.frames.currentBlock?_rename env) fun _ _ => rfl).andThen
        fun block => invoked block

end Sim

end ObjectRuntime
