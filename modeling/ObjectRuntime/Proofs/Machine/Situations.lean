import ObjectRuntime.Proofs.Machine.Entering
import ObjectRuntime.Proofs.Machine.Restores

/-!
# What is running

A situation is a machine together with what is under way on it, innermost first: calls, scopes that
were opened inside them, and, as long as no call is running, work in the frame of a module. Programs
whose bodies stay in their frames move from situation to situation by small steps. Along these steps
the frame of each call is linked to the frame that it was called from, the machine knows the frame
of the innermost call, and no other frame has a caller.
-/

set_option autoImplicit false

namespace ObjectRuntime

inductive Activation where
  /-- A call, with the frame that was current before it and its own frame as it was made. -/
  | call (frame : FrameId) (previous : Option FrameId) (made : Frame)
  | scope (frame : FrameId)
  | elsewhere (frame : FrameId)

namespace Activation

def frame : Activation → FrameId
  | call frame _ _ => frame
  | scope frame => frame
  | elsewhere frame => frame

def own? : Activation → Option FrameId
  | call frame _ _ => some frame
  | scope frame => some frame
  | elsewhere _ => none

end Activation

def workingFrame : List Activation → FrameId
  | [] => .main
  | a :: _ => a.frame

def innermostCall : List Activation → Option FrameId
  | [] => none
  | .call frame _ _ :: _ => some frame
  | .scope _ :: rest => innermostCall rest
  | .elsewhere _ :: rest => innermostCall rest

structure Situation where
  running : List Activation
  machine : Machine

namespace Situation

/-- One step of a program whose bodies stay in their frames. -/
inductive Step : Situation → Situation → Prop where
  | operate {running : List Activation} {m m' : Machine} (calm : Calm (Allowed false) m m') :
      Step ⟨running, m⟩ ⟨running, m'⟩
  | call {running : List Activation} {m : Machine} (f : Frame)
      (called : f.CalledFrom (workingFrame running)) (code : f.Satisfies (Allowed false)) :
      Step ⟨running, m⟩ ⟨.call m.frames.next m.current f :: running, m.entered f⟩
  | leave {running : List Activation} {m : Machine} (frame : FrameId) (previous : Option FrameId)
      (made : Frame) :
      Step ⟨.call frame previous made :: running, m⟩ ⟨running, Run.leaveCall frame previous m⟩
  | register {running : List Activation} {m : Machine} (kind : TargetKind) :
      Step ⟨running, m⟩ ⟨running, m.opened (workingFrame running) kind⟩
  | withdraw {running : List Activation} {m : Machine} (token : Token) :
      Step ⟨running, m⟩ ⟨running, m.closed (workingFrame running) token⟩
  | openScope {running : List Activation} {m : Machine} (kind : FrameKind) (linked : Bool) :
      Step ⟨running, m⟩ ⟨.scope m.frames.next :: running,
        m.called (.scope kind (workingFrame running) linked) m.current⟩
  | closeScope {running : List Activation} {m : Machine} (frame : FrameId) :
      Step ⟨.scope frame :: running, m⟩ ⟨running, Run.unlink frame m⟩
  | goElsewhere {running : List Activation} {m : Machine} (other : FrameId)
      (no_call : innermostCall running = none) :
      Step ⟨running, m⟩ ⟨.elsewhere other :: running, m⟩
  | comeBack {running : List Activation} {m : Machine} (other : FrameId) :
      Step ⟨.elsewhere other :: running, m⟩ ⟨running, m⟩

abbrev Path : Situation → Situation → Prop := Relation.ReflTransGen Step

def Reached (s : Situation) : Prop := ∃ settings, Path ⟨[], .boot settings⟩ s

theorem Reached.path {s t : Situation} (reached : s.Reached) (path : Path s t) : t.Reached := by
  obtain ⟨settings, before⟩ := reached
  exact ⟨settings, before.trans path⟩

end Situation

/-! ### Evaluations are paths -/

/-- The course of an evaluation leads step by step to where the same is running. -/
theorem Course.path {away : Bool} {env : FrameId} {m m' : Machine}
    (course : Course false away env m m') {running : List Activation}
    (works : workingFrame running = env) (home : away = true → innermostCall running = none) :
    Situation.Path ⟨running, m⟩ ⟨running, m'⟩ := by
  induction course generalizing running with
  | calm calmly =>
    exact calmly.lift (Situation.mk running) fun _ _ calm => .operate calm
  | trans _ _ first second => exact (first works home).trans (second works home)
  | @call _ _ m _ f _ called code _ ih =>
    subst works
    have body := @ih (.call m.frames.next m.current f :: running) rfl nofun
    exact ((Relation.ReflTransGen.single (.call f called code)).trans body).tail (.leave _ _ f)
  | @handler _ _ m _ kind _ ih =>
    subst works
    exact ((Relation.ReflTransGen.single (.register kind)).trans (ih rfl home)).tail (.withdraw _)
  | @scope _ _ m _ kind linked _ _ ih =>
    subst works
    have body := @ih (.scope m.frames.next :: running) rfl home
    exact ((Relation.ReflTransGen.single (.openScope kind linked)).trans body).tail (.closeScope _)
  | @elsewhere _ _ other _ _ permits _ _ ih =>
    have is_away := permits.resolve_left Bool.false_ne_true
    have body := @ih (.elsewhere other :: running) rfl home
    exact ((Relation.ReflTransGen.single (.goElsewhere other (home is_away))).trans body).tail
      (.comeBack other)

/-! ### Frames of activations -/

structure Frames.Same (fs fs' : Frames) (id : FrameId) : Prop where
  caller : fs'.caller? id = fs.caller? id
  receiver : fs'.receiver? id = fs.receiver? id
  outer : fs'.outer? id = fs.outer? id
  block : fs'.block? id = fs.block? id

namespace Frames

variable {fs fs' : Frames} {id : FrameId}

theorem Keeps.same (keeps : fs.Keeps fs') (present : id.index < fs.size) : fs.Same fs' id :=
  ⟨keeps.caller id, keeps.receiver id, keeps.outer id present, keeps.block id present⟩

theorem same_of_get? (same : fs'.get? id = fs.get? id) : fs.Same fs' id := by
  refine ⟨?_, ?_, ?_, ?_⟩
  · rw [caller?, caller?, same]
  · rw [receiver?, receiver?, same]
  · rw [outer?, outer?, same]
  · rw [block?, block?, same]

theorem bind_push_next {β : Type} (fs : Frames) (f : Frame) (field : Frame → Option β) :
    ((fs.push f).get? fs.next).bind field = field f := by
  rw [get?_push_next, Option.bind_some]

theorem next_lt_push (fs : Frames) (f : Frame) : fs.next.index < (fs.push f).size := by
  rw [size_push]
  exact Nat.lt_succ_self _

theorem same_push (f : Frame) (present : id.index < fs.size) : fs.Same (fs.push f) id :=
  same_of_get? (get?_push_of_lt f present)

theorem same_modify_of_ne {other : FrameId} (f : Frame → Frame) (differs : other ≠ id) :
    fs.Same (fs.modify other f) id :=
  same_of_get? (by rw [get?_modify, if_neg differs])

theorem same_edit (env : FrameId) {f : Frame → Frame} (edit : TargetEdit f) :
    fs.Same (fs.modify env f) id :=
  ⟨bind_get?_modify fs env id f _ edit.caller, bind_get?_modify fs env id f _ edit.receiver,
    bind_get?_modify fs env id f _ edit.outer, bind_get?_modify fs env id f _ edit.block⟩

end Frames

def ownFrames (running : List Activation) : List FrameId := running.filterMap Activation.own?

/-- Each call is linked to what it was called from, and each scope lies in what it was opened in. A
frame made for an activation is newer than those made for the activations around it. -/
inductive Chained (fs : Frames) : List Activation → Prop where
  | nil : Chained fs []
  | call {running : List Activation} {frame : FrameId} {made : Frame} (around : Chained fs running)
      (present : frame.index < fs.size) (newer : ∀ id ∈ ownFrames running, id.index < frame.index)
      (caller : fs.caller? frame = some (workingFrame running))
      (receiver : fs.receiver? frame = made.receiver) (block : fs.block? frame = made.block) :
      Chained fs (.call frame (innermostCall running) made :: running)
  | scope {running : List Activation} {frame : FrameId} (around : Chained fs running)
      (present : frame.index < fs.size) (newer : ∀ id ∈ ownFrames running, id.index < frame.index)
      (outer : fs.outer? frame = some (workingFrame running))
      (caller : ∀ c, fs.caller? frame = some c → c = workingFrame running) :
      Chained fs (.scope frame :: running)
  | elsewhere {running : List Activation} {other : FrameId} (around : Chained fs running)
      (no_call : innermostCall running = none) : Chained fs (.elsewhere other :: running)

namespace Chained

variable {fs fs' : Frames} {running : List Activation}

theorem own_lt (chained : Chained fs running) : ∀ id ∈ ownFrames running, id.index < fs.size := by
  have at_cons : ∀ {frame : FrameId} {rest : List FrameId}, frame.index < fs.size →
      (∀ id ∈ rest, id.index < fs.size) → ∀ id ∈ frame :: rest, id.index < fs.size :=
    fun present others => List.forall_mem_cons.2 ⟨present, others⟩
  induction chained with
  | nil => exact nofun
  | call _ present _ _ _ _ ih => exact at_cons present ih
  | scope _ present _ _ _ ih => exact at_cons present ih
  | elsewhere _ _ ih => exact ih

theorem congr (chained : Chained fs running) (size : fs.size ≤ fs'.size)
    (same : ∀ id ∈ ownFrames running, fs.Same fs' id) : Chained fs' running := by
  induction chained with
  | nil => exact .nil
  | @call _ frame _ _ present newer caller receiver block ih =>
    obtain ⟨here, others⟩ := List.forall_mem_cons.1 same
    exact .call (ih others) (Nat.lt_of_lt_of_le present size) newer (here.caller.trans caller)
      (here.receiver.trans receiver) (here.block.trans block)
  | @scope _ frame _ present newer outer caller ih =>
    obtain ⟨here, others⟩ := List.forall_mem_cons.1 same
    refine .scope (ih others) (Nat.lt_of_lt_of_le present size) newer (here.outer.trans outer) ?_
    exact fun c calls => caller c (here.caller.symm.trans calls)
  | elsewhere _ no_call ih => exact .elsewhere (ih same) no_call

theorem push (chained : Chained fs running) (f : Frame) : Chained (fs.push f) running := by
  refine chained.congr (by rw [Frames.size_push]; omega) ?_
  exact fun id own => Frames.same_push f (chained.own_lt id own)

theorem modify_newer (chained : Chained fs running) {frame : FrameId}
    (newer : ∀ id ∈ ownFrames running, id.index < frame.index) (f : Frame → Frame) :
    Chained (fs.modify frame f) running := by
  refine chained.congr (Nat.le_of_eq (Frames.size_modify ..).symm) ?_
  intro id own
  refine Frames.same_modify_of_ne f ?_
  rintro rfl
  exact Nat.lt_irrefl _ (newer _ own)

theorem edit (chained : Chained fs running) (env : FrameId) {f : Frame → Frame}
    (edit : Frames.TargetEdit f) : Chained (fs.modify env f) running :=
  chained.congr (Nat.le_of_eq (Frames.size_modify ..).symm) fun _ _ => Frames.same_edit env edit

end Chained

namespace Situation

structure Orderly (s : Situation) : Prop where
  valid : s.machine.Valid (Allowed false)
  current : s.machine.current = innermostCall s.running
  chained : Chained s.machine.frames s.running
  callers : ∀ id c, s.machine.frames.caller? id = some c → id ∈ ownFrames s.running

theorem orderly_boot (settings : Settings) : Orderly ⟨[], .boot settings⟩ := by
  refine ⟨Machine.valid_boot settings, rfl, .nil, ?_⟩
  intro id c calls
  obtain ⟨f, at_id, calls⟩ := Option.bind_eq_some_iff.1 calls
  cases (Machine.idle_boot at_id).caller.symm.trans calls

theorem callers_push {fs : Frames} {own : List FrameId} (f : Frame)
    (callers : ∀ id c, fs.caller? id = some c → id ∈ own) :
    ∀ id c, (fs.push f).caller? id = some c → id ∈ fs.next :: own := by
  intro id c calls
  rw [Frames.caller?, Frames.get?_push] at calls
  split at calls
  next same => exact List.mem_cons.2 (.inl same)
  next => exact List.mem_cons_of_mem _ (callers id c calls)

theorem callers_unlink {fs : Frames} {own : List FrameId} {frame : FrameId} {f : Frame → Frame}
    (unlinks : ∀ frame : Frame, (f frame).caller = none)
    (callers : ∀ id c, fs.caller? id = some c → id ∈ frame :: own) :
    ∀ id c, (fs.modify frame f).caller? id = some c → id ∈ own := by
  intro id c calls
  rw [Frames.caller?, Frames.get?_modify] at calls
  split at calls
  next =>
    obtain ⟨edited, at_id, calls⟩ := Option.bind_eq_some_iff.1 calls
    obtain ⟨before, -, rfl⟩ := Option.map_eq_some_iff.1 at_id
    rw [unlinks] at calls
    cases calls
  next differs =>
    obtain same | own := List.mem_cons.1 (callers id c calls)
    · exact absurd same.symm differs
    · exact own

theorem Orderly.step {s t : Situation} (orderly : s.Orderly) (step : Step s t) : t.Orderly := by
  obtain ⟨valid, current, chained, callers⟩ := orderly
  cases step with
  | operate calm =>
    have keeps := calm.keeps
    have changes : Changes (Allowed false) _ _ := .single calm.change
    refine ⟨changes.valid valid, changes.calls.1.trans current, ?_, ?_⟩
    · exact chained.congr keeps.size fun id own => keeps.same (chained.own_lt id own)
    · exact fun id c calls => callers id c ((keeps.caller id).symm.trans calls)
  | @call running m f called code =>
    refine ⟨valid.entered code, rfl, ?_, callers_push f callers⟩
    have caller := Frames.bind_push_next m.frames f (·.caller)
    change m.current = _ at current
    rw [current]
    exact .call (chained.push f) (Frames.next_lt_push ..) chained.own_lt
      (caller.trans called.caller) (Frames.bind_push_next m.frames f (·.receiver))
      (Frames.bind_push_next m.frames f (·.block))
  | @leave running m frame previous made =>
    have left := made.released_leave
    cases chained with
    | call around present newer caller receiver block =>
      refine ⟨valid.modifyFrame frame _ left.method left.block _ _ _, rfl,
        around.modify_newer newer _, callers_unlink left.caller callers⟩
  | @register running m kind =>
    have edit := Frames.targetEdit_push (m.nextTarget kind)
    refine ⟨valid.opened _ kind, current, chained.edit _ edit, ?_⟩
    exact fun id c calls => callers id c ((Frames.same_edit _ edit).caller.symm.trans calls)
  | withdraw token =>
    have edit := Frames.targetEdit_drop token
    refine ⟨valid.closed _ token, current, chained.edit _ edit, ?_⟩
    exact fun id c calls => callers id c ((Frames.same_edit _ edit).caller.symm.trans calls)
  | @openScope running m kind linked =>
    let scope := Frame.scope kind (workingFrame running) linked
    have outer := Frames.bind_push_next m.frames scope (·.outer)
    have caller := Frames.bind_push_next m.frames scope (·.caller)
    refine ⟨valid.called (.of_none rfl rfl) _, current, ?_, callers_push _ callers⟩
    refine .scope (chained.push _) (Frames.next_lt_push ..) chained.own_lt outer ?_
    intro c calls
    have calls := caller.symm.trans calls
    dsimp only [scope, Frame.scope] at calls
    split at calls
    next => exact (Option.some.inj calls).symm
    next => cases calls
  | @closeScope running m frame =>
    have left := (Frame.scope .block frame false).released_unlink rfl
    cases chained with
    | scope around present newer outer caller =>
      exact ⟨valid.modifyFrame frame _ left.method left.block _ _ _, current,
        around.modify_newer newer _, callers_unlink left.caller callers⟩
  | goElsewhere other no_call => exact ⟨valid, current, .elsewhere chained no_call, callers⟩
  | comeBack other =>
    cases chained with
    | elsewhere around no_call => exact ⟨valid, current, around, callers⟩

theorem Reached.orderly {s : Situation} (reached : s.Reached) : s.Orderly := by
  obtain ⟨settings, path⟩ := reached
  induction path with
  | refl => exact orderly_boot settings
  | tail _ last ih => exact ih.step last

/-- What is evaluated where the machine works leads, step by step, to where the same is running. As
long as no call is running, it may go to the frames of modules in between. -/
theorem Reached.path_eval {s : Situation} (reached : s.Reached) (calls : Nat) {c : Context}
    (works : c.frame = workingFrame s.running) (block : AllowedBlock false c.block) {away : Bool}
    (home : away = true → innermostCall s.running = none) {e : Expr}
    (stays : e.isLocal away = true) :
    Path s ⟨s.running, (Run.eval (runEntry calls) c e s.machine).2⟩ := by
  have runs : Run.RunnerTakes false (runEntry calls) := Run.takes_runEntry calls
  have course : Course false away c.frame s.machine _ :=
    Run.takes_eval runs c block e (.inr ((e.stays_true away).trans stays)) s.machine
      reached.orderly.valid
  exact course.path works.symm home

/-! ### Calls are steps -/

/-- With a call entered from where the machine works, in this frame. -/
def inCall (s : Situation) (f : Frame) : Situation :=
  ⟨.call s.machine.frames.next s.machine.current f :: s.running, s.machine.entered f⟩

/-- The computation enters a call by a step. Its entry runs on the machine that the step leads to,
in the frame that was made for it; the runners of programs go through situations from there. -/
structure EntersCall (s : Situation) (run : Runner) (entry : Entry) (on : Value)
    (args : List Value) (passed : Option Block) (x : Run Value) (f : Frame) : Prop where
  receiver : f.receiver = some on
  block : f.block = passed
  step : Step s (s.inCall f)
  runs : x s.machine = Run.afterward (run entry s.machine.frames.next on args passed)
    (Run.leaveCall s.machine.frames.next s.machine.current) (s.inCall f).machine
  body : ∀ calls, Path (s.inCall f) ⟨(s.inCall f).running,
    (runEntry calls entry s.machine.frames.next on args passed (s.inCall f).machine).2⟩

theorem Reached.enters_call {s : Situation} (reached : s.Reached) {run : Runner} {entry : Entry}
    {receiver : Value} {args : List Value} {block : Option Block} {x : Run Value}
    (attempts : Run.Attempts run (workingFrame s.running) entry receiver args block x)
    (code : entry.Satisfies (Allowed false)) (block_code : AllowedBlock false block)
    (allowed : Run.allowsCall s.machine = true) :
    ∃ f, s.EntersCall run entry receiver args block x f := by
  obtain ⟨f, called, holds, ends⟩ := attempts.entered allowed
  have step : Step s (s.inCall f) := .call f called (holds.code _ code block_code)
  refine ⟨f, holds.receiver, holds.block, step, ends, fun calls => ?_⟩
  have runs : Run.RunnerTakes false (runEntry calls) := Run.takes_runEntry calls
  have course : Course false false s.machine.frames.next (s.inCall f).machine _ :=
    runs entry s.machine.frames.next receiver args block code block_code _
      (reached.path (.single step)).orderly.valid
  exact course.path rfl nofun

theorem Reached.runProgram {m : Machine} (reached : Reached ⟨[], m⟩) {program : Expr}
    (stays : program.isLocal true = true) : Reached ⟨[], (m.runProgram program).2⟩ := by
  have clears : Calm (Allowed false) m m.clearLog :=
    ⟨.observe m.globals m.symbols m.missReason m.counters { m.desk with log := [] } m.heap.gate,
      .refl _⟩
  have cleared : Reached ⟨[], m.clearLog⟩ := reached.path (.single (.operate clears))
  exact cleared.path (cleared.path_eval m.settings.nesting rfl .none (fun _ => rfl) stays)

end Situation

end ObjectRuntime
