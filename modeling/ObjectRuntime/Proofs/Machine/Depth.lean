import ObjectRuntime.Proofs.Dispatch.Direct
import ObjectRuntime.Proofs.Machine.Moves
import ObjectRuntime.Proofs.Machine.Situations

/-!
# The depth of calls

Programs whose bodies work in their own frames move from situation to situation without scopes, and
enter no call that the limit leaves no room for. Along these steps the depth is the number of calls
in progress, and the callers of the frame that works are the frames of these calls, innermost first,
and after them the frame of the program or of the module whose body is being run. `depth_exact` says
this together with what follows from it: the limit is never exceeded, links to callers lead to older
frames, a call that is attempted at the limit, and no other one, raises for want of room, and the
backtrace of an exception has one line more than calls are in progress.
-/

set_option autoImplicit false

namespace ObjectRuntime

/-! ### Programs whose bodies work in their own frames -/

mutual

theorem Expr.isLocal_of_stays {away : Bool} {e : Expr} (stays : e.stays false away = true) :
    e.isLocal away = true := by
  cases e with
  | within owner body =>
    simp only [Expr.stays, Expr.isLocal, Bool.and_eq_true] at stays ⊢
    exact ⟨⟨stays.1.1, Expr.isLocal_of_stays stays.1.2⟩, Expr.isLocal_of_stays stays.2⟩
  | runMain body =>
    simp only [Expr.stays, Expr.isLocal, Bool.and_eq_true] at stays ⊢
    exact ⟨stays.1, Expr.isLocal_of_stays stays.2⟩
  | inFrame kind linked body =>
    simp only [Expr.stays, Bool.false_and] at stays
    cases stays
  | _ =>
    simp only [Expr.stays, Expr.isLocal, Bool.and_eq_true] at stays ⊢ <;>
      simp_all only [Expr.isLocal_of_stays, Args.isLocal_of_stays, BlockArg.isLocal_of_stays,
        and_self]

theorem Args.isLocal_of_stays {away : Bool} {args : Args} (stays : args.stays false away = true) :
    args.isLocal away = true := by
  cases args <;> simp only [Args.stays, Args.isLocal, Bool.and_eq_true] at stays ⊢ <;>
    simp_all only [Expr.isLocal_of_stays, Args.isLocal_of_stays, and_self]

theorem BlockArg.isLocal_of_stays {away : Bool} {block : BlockArg}
    (stays : block.stays false away = true) : block.isLocal away = true := by
  cases block <;> simp only [BlockArg.stays, BlockArg.isLocal] at stays ⊢ <;>
    simp_all only [Expr.isLocal_of_stays]

end

namespace Situation

/-- One step of a program whose bodies work in their own frames. -/
inductive OwnStep : Situation → Situation → Prop where
  | operate {running : List Activation} {m m' : Machine} (calm : Calm Rule.own.Code m m') :
      OwnStep ⟨running, m⟩ ⟨running, m'⟩
  | call {running : List Activation} {m : Machine} (f : Frame) (allowed : Run.allowsCall m = true)
      (called : f.CalledFrom (workingFrame running)) (code : f.Satisfies Rule.own.Code) :
      OwnStep ⟨running, m⟩ ⟨.call m.frames.next m.current f :: running, m.entered f⟩
  | leave {running : List Activation} {m : Machine} (frame : FrameId) (previous : Option FrameId)
      (made : Frame) :
      OwnStep ⟨.call frame previous made :: running, m⟩ ⟨running, Run.leaveCall frame previous m⟩
  | register {running : List Activation} {m : Machine} (kind : TargetKind) :
      OwnStep ⟨running, m⟩ ⟨running, m.opened (workingFrame running) kind⟩
  | withdraw {running : List Activation} {m : Machine} (token : Token) :
      OwnStep ⟨running, m⟩ ⟨running, m.closed (workingFrame running) token⟩
  | goElsewhere {running : List Activation} {m : Machine} (other : FrameId)
      (no_call : innermostCall running = none) (place : m.IsPlace other) :
      OwnStep ⟨running, m⟩ ⟨.elsewhere other :: running, m⟩
  | comeBack {running : List Activation} {m : Machine} (other : FrameId) :
      OwnStep ⟨.elsewhere other :: running, m⟩ ⟨running, m⟩

abbrev OwnPath : Situation → Situation → Prop := Relation.ReflTransGen OwnStep

def OwnReached (s : Situation) : Prop := ∃ settings, OwnPath ⟨[], .boot settings⟩ s

theorem OwnStep.step {s t : Situation} (own : OwnStep s t) : Step s t := by
  have weaker : ∀ e, Rule.own.Code e → Allowed false e := fun _ stays =>
    .inr (Expr.isLocal_of_stays stays)
  cases own with
  | operate calm => exact .operate ⟨calm.change.imp weaker, calm.keeps⟩
  | call f allowed called code => exact .call f called (code.imp weaker)
  | leave frame previous made => exact .leave frame previous made
  | register kind => exact .register kind
  | withdraw token => exact .withdraw token
  | goElsewhere other no_call place => exact .goElsewhere other no_call
  | comeBack other => exact .comeBack other

theorem OwnReached.reached {s : Situation} (reached : s.OwnReached) : s.Reached := by
  obtain ⟨settings, path⟩ := reached
  exact ⟨settings, Relation.ReflTransGen.mono (fun _ _ own => own.step) _ _ path⟩

/-- Going to the frame of a module and coming back does nothing to the machine. -/
theorem OwnStep.moves {s t : Situation} (own : OwnStep s t) : Moves s.machine t.machine := by
  cases own with
  | operate calm => exact .single calm.move
  | call f _ called _ => exact .single (.enter f called.targets)
  | leave frame previous _ => exact .single (.leave frame previous)
  | @register running _ kind => exact .single (.register (workingFrame running) kind)
  | @withdraw running _ token => exact .single (.withdraw (workingFrame running) token)
  | goElsewhere => exact .refl
  | comeBack => exact .refl

theorem OwnReached.encountered {s : Situation} (reached : s.OwnReached) :
    s.machine.Encountered := by
  obtain ⟨settings, path⟩ := reached
  induction path with
  | refl => exact ⟨settings, .refl⟩
  | tail _ last ih => exact ih.moves last.moves

end Situation

theorem Course.ownPath {away : Bool} {env : FrameId} {m m' : Machine}
    (course : Course Rule.own away env m m') {running : List Activation}
    (works : workingFrame running = env) (home : away = true → innermostCall running = none) :
    Situation.OwnPath ⟨running, m⟩ ⟨running, m'⟩ := by
  induction course generalizing running with
  | calm calmly =>
    exact calmly.lift (Situation.mk running) fun _ _ calm => .operate calm
  | trans _ _ first second => exact (first works home).trans (second works home)
  | @call _ _ m _ f allowed called code _ ih =>
    subst works
    have body := @ih (.call m.frames.next m.current f :: running) rfl nofun
    exact ((Relation.ReflTransGen.single (.call f allowed called code)).trans body).tail
      (.leave _ _ f)
  | @handler _ _ m _ kind _ ih =>
    subst works
    exact ((Relation.ReflTransGen.single (.register kind)).trans (ih rfl home)).tail (.withdraw _)
  | scope _ _ opens _ _ => exact absurd opens (by simp [Rule.own, Permits])
  | @elsewhere _ _ other _ _ permits place _ ih =>
    have is_away := permits.resolve_left Bool.false_ne_true
    have body := @ih (.elsewhere other :: running) rfl home
    exact ((Relation.ReflTransGen.single (.goElsewhere other (home is_away) place)).trans body).tail
      (.comeBack other)

/-! ### Calls in progress -/

def callFrames : List Activation → List FrameId
  | [] => []
  | .call frame _ _ :: rest => frame :: callFrames rest
  | .scope _ :: rest => callFrames rest
  | .elsewhere _ :: rest => callFrames rest

/-- The frame that the outermost call was made from: that of the program, or of the module whose
body is being run. -/
def homeFrame : List Activation → FrameId
  | [] => .main
  | .call _ _ _ :: rest => homeFrame rest
  | .scope _ :: rest => homeFrame rest
  | .elsewhere frame :: _ => frame

/-- No scope is open, and each call was made from an older frame. -/
inductive Stacked : List Activation → Prop where
  | nil : Stacked []
  | call {running : List Activation} {frame : FrameId} {previous : Option FrameId} {made : Frame}
      (around : Stacked running) (older : (workingFrame running).index < frame.index) :
      Stacked (.call frame previous made :: running)
  | elsewhere {running : List Activation} {other : FrameId} (around : Stacked running) :
      Stacked (.elsewhere other :: running)

namespace Stacked

variable {fs : Frames} {running : List Activation}

theorem ownFrames_eq (stacked : Stacked running) : ownFrames running = callFrames running := by
  induction stacked with
  | nil => rfl
  | call _ _ ih => exact congrArg _ ih
  | elsewhere _ ih => exact ih

theorem homeFrame_le (stacked : Stacked running) :
    (homeFrame running).index ≤ (workingFrame running).index := by
  induction stacked with
  | nil => exact Nat.le_refl _
  | call _ older ih => exact Nat.le_of_lt (Nat.lt_of_le_of_lt ih older)
  | elsewhere _ _ => exact Nat.le_refl _

theorem callFrames_of_idle (stacked : Stacked running) (no_call : innermostCall running = none) :
    callFrames running = [] := by
  induction stacked with
  | nil => rfl
  | call _ _ _ => cases no_call
  | elsewhere _ ih => exact ih no_call

theorem home_lt (stacked : Stacked running) (chained : Chained fs running) :
    ∀ id ∈ callFrames running, (homeFrame running).index < id.index := by
  induction stacked with
  | nil => exact nofun
  | call around older ih =>
    cases chained with
    | call chained _ _ _ _ _ =>
      exact List.forall_mem_cons.2 ⟨Nat.lt_of_le_of_lt around.homeFrame_le older, ih chained⟩
  | elsewhere around _ =>
    cases chained with
    | elsewhere chained no_call =>
      rw [callFrames, around.callFrames_of_idle no_call]
      exact nofun

theorem caller_lt (stacked : Stacked running) (chained : Chained fs running) :
    ∀ id ∈ callFrames running, ∀ c, fs.caller? id = some c → c.index < id.index := by
  induction stacked with
  | nil => exact nofun
  | call _ older ih =>
    cases chained with
    | call chained _ _ caller _ _ =>
      refine List.forall_mem_cons.2 ⟨?_, ih chained⟩
      intro c calls
      obtain rfl := Option.some.inj (caller.symm.trans calls)
      exact older
  | elsewhere _ ih =>
    cases chained with
    | elsewhere chained _ => exact ih chained

/-- The callers of the frame that works are the frames of the calls, and the home frame. -/
theorem callers_eq (stacked : Stacked running) (chained : Chained fs running)
    (home : fs.caller? (homeFrame running) = none) :
    fs.callers (workingFrame running) = callFrames running ++ [homeFrame running] := by
  induction stacked with
  | nil => exact Frames.callers_of_uncalled home
  | @call running frame _ _ _ older ih =>
    cases chained with
    | call chained _ _ caller _ _ =>
      have lower : lower? FrameId.index fs.caller? frame = some (workingFrame running) := by
        rw [lower?, caller, Option.filter_some, if_pos (decide_eq_true older)]
      rw [workingFrame, Activation.frame, Frames.callers, chain_eq, lower]
      exact congrArg (frame :: ·) (ih chained home)
  | elsewhere around _ =>
    cases chained with
    | elsewhere chained no_call =>
      rw [callFrames, around.callFrames_of_idle no_call]
      exact Frames.callers_of_uncalled home

end Stacked

namespace Situation

structure Counted (s : Situation) : Prop where
  valid : s.machine.Valid Rule.own.Code
  stacked : Stacked s.running
  present : ∀ a ∈ s.running, a.frame.index < s.machine.frames.size
  depth : s.machine.depth = (callFrames s.running).length
  bounded : ∀ limit, s.machine.settings.callDepthLimit = some limit → s.machine.depth ≤ limit

theorem counted_boot (settings : Settings) : Counted ⟨[], .boot settings⟩ where
  valid := Machine.valid_boot settings
  stacked := .nil
  present := fun _ mem => by cases mem
  depth := rfl
  bounded := fun limit _ => Nat.zero_le limit

theorem workingFrame_present {running : List Activation} {m : Machine}
    (housed : m.Housed) (present : ∀ a ∈ running, a.frame.index < m.frames.size) :
    (workingFrame running).index < m.frames.size := by
  cases running with
  | nil => exact housed.present .main (.inl rfl)
  | cons a rest => exact present a List.mem_cons_self

theorem Counted.of_calls {running : List Activation} {m m' : Machine}
    (counted : Counted ⟨running, m⟩) (valid : m'.Valid Rule.own.Code)
    (size : m.frames.size ≤ m'.frames.size) (depth : m'.depth = m.depth)
    (settings : m'.settings = m.settings) : Counted ⟨running, m'⟩ := by
  refine ⟨valid, counted.stacked, ?_, depth.trans counted.depth, ?_⟩
  · exact fun a mem => Nat.lt_of_lt_of_le (counted.present a mem) size
  · intro limit is_limit
    rw [settings] at is_limit
    rw [depth]
    exact counted.bounded limit is_limit

theorem Counted.step {s t : Situation} (counted : s.Counted) (housed : s.machine.Housed)
    (own : OwnStep s t) : t.Counted := by
  cases own with
  | operate calm =>
    have changes : Changes Rule.own.Code _ _ := .single calm.change
    exact counted.of_calls (changes.valid counted.valid) calm.keeps.size changes.calls.2.1
      calm.change.settings
  | register kind =>
    exact counted.of_calls (counted.valid.opened _ kind)
      (Nat.le_of_eq (Frames.size_modify ..).symm) rfl rfl
  | withdraw token =>
    exact counted.of_calls (counted.valid.closed _ token)
      (Nat.le_of_eq (Frames.size_modify ..).symm) rfl rfl
  | @call running m f allowed called code =>
    have older := workingFrame_present housed counted.present
    have size : (m.entered f).frames.size = m.frames.size + 1 := Frames.size_push ..
    refine ⟨counted.valid.entered code, .call counted.stacked older,
      List.forall_mem_cons.2 ⟨?_, ?_⟩, ?_, ?_⟩
    · rw [size]
      exact Nat.lt_succ_self _
    · intro a mem
      rw [size]
      exact Nat.lt_succ_of_lt (counted.present a mem)
    · exact congrArg (· + 1) counted.depth
    · intro limit is_limit
      change m.settings.callDepthLimit = some limit at is_limit
      rw [Run.allowsCall, is_limit] at allowed
      exact of_decide_eq_true allowed
  | @leave running m frame previous made =>
    cases counted.stacked with
    | call around _ =>
      have depth : m.depth = (callFrames running).length + 1 := counted.depth
      have left := made.released_leave
      refine ⟨counted.valid.modifyFrame frame _ left.method left.block _ _ _, around, ?_, ?_, ?_⟩
      · intro a mem
        rw [show (Run.leaveCall frame previous m).frames.size = m.frames.size from
          Frames.size_modify ..]
        exact counted.present a (List.mem_cons_of_mem _ mem)
      · change m.depth - 1 = (callFrames running).length
        omega
      · intro limit is_limit
        exact Nat.le_trans (Nat.sub_le _ _) (counted.bounded limit is_limit)
  | goElsewhere other no_call place =>
    exact ⟨counted.valid, .elsewhere counted.stacked,
      List.forall_mem_cons.2 ⟨housed.present other place, counted.present⟩, counted.depth,
      counted.bounded⟩
  | comeBack other =>
    cases counted.stacked with
    | elsewhere around =>
      exact ⟨counted.valid, around, fun a mem => counted.present a (List.mem_cons_of_mem _ mem),
        counted.depth, counted.bounded⟩

theorem OwnReached.counted {s : Situation} (reached : s.OwnReached) : s.Counted := by
  obtain ⟨settings, path⟩ := reached
  induction path with
  | refl => exact counted_boot settings
  | tail before last ih => exact ih.step (OwnReached.encountered ⟨settings, before⟩).housed last

theorem OwnReached.home_caller {s : Situation} (reached : s.OwnReached) :
    s.machine.frames.caller? (homeFrame s.running) = none := by
  have orderly := reached.reached.orderly
  have stacked := reached.counted.stacked
  cases calls : s.machine.frames.caller? (homeFrame s.running) with
  | none => rfl
  | some c =>
    have mem := orderly.callers _ c calls
    rw [stacked.ownFrames_eq] at mem
    exact absurd (stacked.home_lt orderly.chained _ mem) (Nat.lt_irrefl _)

theorem OwnReached.callers_eq {s : Situation} (reached : s.OwnReached) :
    s.machine.frames.callers (workingFrame s.running) =
      callFrames s.running ++ [homeFrame s.running] :=
  reached.counted.stacked.callers_eq reached.reached.orderly.chained reached.home_caller

theorem OwnReached.caller_lt {s : Situation} (reached : s.OwnReached) {id c : FrameId}
    (calls : s.machine.frames.caller? id = some c) : c.index < id.index := by
  have orderly := reached.reached.orderly
  have stacked := reached.counted.stacked
  have mem := orderly.callers id c calls
  rw [stacked.ownFrames_eq] at mem
  exact stacked.caller_lt orderly.chained id mem c calls

theorem OwnReached.path_eval {s : Situation} (reached : s.OwnReached) (calls : Nat) {c : Context}
    (works : c.frame = workingFrame s.running) (block : Rule.own.AllowsBlock c.block) {away : Bool}
    (home : away = true → innermostCall s.running = none) {e : Expr}
    (stays : e.stays false away = true) :
    OwnPath s ⟨s.running, (Run.eval (runEntry calls) c e s.machine).2⟩ := by
  have runs : Run.RunnerTakes Rule.own (runEntry calls) := Run.takes_runEntry calls
  have course : Course Rule.own away c.frame s.machine _ :=
    Run.takes_eval runs c block e (.inr stays) s.machine reached.counted.valid
  exact course.ownPath works.symm home

theorem Counted.allowsCall_iff {s : Situation} (counted : s.Counted) :
    Run.allowsCall s.machine = true ↔
      s.machine.settings.callDepthLimit ≠ some s.machine.depth := by
  unfold Run.allowsCall
  cases is_limit : s.machine.settings.callDepthLimit with
  | none => simp
  | some limit =>
    have bounded := counted.bounded limit is_limit
    simp only [decide_eq_true_eq, ne_eq, Option.some.injEq]
    omega

end Situation

/-! ### Backtraces -/

def Machine.backtraceOf? (m : Machine) (id : ObjectId) : Option (List String) :=
  ((m.heap.get? id).bind Object.exception?).map (·.backtrace)

namespace Run

variable {m : Machine} {id : ObjectId} {data : ExceptionData}

theorem recordBacktrace_backtraceOf? (env : FrameId)
    (is : (m.heap.get? id).bind Object.exception? = some data) (unraised : data.backtrace = []) :
    (recordBacktrace env id m).2.backtraceOf? id = some (m.backtrace env) := by
  obtain ⟨o, at_id, is_exception⟩ := Option.bind_eq_some_iff.1 is
  have payload : o.payload = .exception data := by
    unfold Object.exception? at is_exception
    split at is_exception
    next data' payload => rw [payload, Option.some.inj is_exception]
    next => cases is_exception
  unfold recordBacktrace
  rw [run_modify]
  dsimp only
  rw [is]
  dsimp only
  rw [unraised, List.isEmpty_nil, if_pos rfl]
  change ((((m.heap.modify id _).get? id).bind Object.exception?).map (·.backtrace)) = _
  rw [Heap.get?_modify, if_pos rfl, at_id]
  simp [Object.mapException, payload, Object.exception?]

theorem raiseException_backtrace {α : Type} (env : FrameId)
    (is : (m.heap.get? id).bind Object.exception? = some data) (unraised : data.backtrace = []) :
    ∃ target m', (raiseException env id : Run α) m = (.error (.signal (.raise id target)), m') ∧
      m'.backtraceOf? id = some (m.backtrace env) :=
  ⟨_, _, rfl, recordBacktrace_backtraceOf? env is unraised⟩

theorem fail_backtrace {α : Type} (env : FrameId) (fault : Fault) (m : Machine) :
    ∃ id target m', (fail env fault : Run α) m = (.error (.signal (.raise id target)), m') ∧
      m'.exceptionKind? id = some (fault.cls, fault.message) ∧
      m'.backtraceOf? id = some (m.backtrace env) := by
  let made : Machine :=
    { m with heap := m.heap.push (.ofPayload fault.cls (.exception fault.data)) }
  have is : (made.heap.get? m.heap.next).bind Object.exception? = some fault.data := by
    rw [Heap.get?_push_next]
    rfl
  obtain ⟨m', failing, kind⟩ := fail_eq (α := α) env fault m
  obtain ⟨target, after, raised, lines⟩ := raiseException_backtrace (α := α) env is rfl
  have same : (fail env fault : Run α) m = (raiseException env m.heap.next : Run α) made := rfl
  obtain ⟨-, rfl⟩ := Prod.mk.inj (failing.symm.trans (same.trans raised))
  exact ⟨_, _, m', failing, kind, lines⟩

end Run

namespace Situation

open Run

def lines (s : Situation) : List String :=
  (callFrames s.running ++ [homeFrame s.running]).map s.machine.frameLine

/-- The depth, the chain of callers and the limit agree with the calls in progress. -/
structure Exact (s : Situation) : Prop where
  depth : s.machine.depth = (callFrames s.running).length
  callers : s.machine.frames.callers (workingFrame s.running) =
    callFrames s.running ++ [homeFrame s.running]
  home : (∀ other, .elsewhere other ∉ s.running) → homeFrame s.running = .main
  bounded : ∀ limit, s.machine.settings.callDepthLimit = some limit → s.machine.depth ≤ limit
  older : ∀ id c, s.machine.frames.caller? id = some c → c.index < id.index
  overflow : ∀ run env entry receiver args block x,
    Attempts run env entry receiver args block x →
      s.machine.settings.callDepthLimit = some s.machine.depth → ∃ id target m',
        x s.machine = (.error (.signal (.raise id target)), m') ∧
          m'.exceptionKind? id = some (Core.systemStackError.id, Fault.stackTooDeep.message)
  room : ∀ run env entry receiver args block x,
    Attempts run env entry receiver args block x →
      s.machine.settings.callDepthLimit ≠ some s.machine.depth → ∃ f : Frame, f.CalledFrom env ∧
        x s.machine = afterward (run entry s.machine.frames.next receiver args block)
          (leaveCall s.machine.frames.next s.machine.current) (s.machine.entered f)
  arity : ∀ run env method receiver args block place, method.isUndefined = false →
    method.arity.accepts args.length = false →
      invokeAt run env method receiver args block place s.machine =
        fail env (.wrongArity args.length method.arity) s.machine
  length : s.lines.length = s.machine.depth + 1
  raised : ∀ id data, (s.machine.heap.get? id).bind Object.exception? = some data →
    data.backtrace = [] → ∃ target m',
      (raise (workingFrame s.running) (.object id) : Run Value) s.machine =
        (.error (.signal (.raise id target)), m') ∧ m'.backtraceOf? id = some s.lines
  failed : ∀ fault, ∃ id target m',
    (fail (workingFrame s.running) fault : Run Value) s.machine =
      (.error (.signal (.raise id target)), m') ∧ m'.backtraceOf? id = some s.lines

theorem homeFrame_of_home {running : List Activation} (stacked : Stacked running)
    (home : ∀ other, .elsewhere other ∉ running) : homeFrame running = .main := by
  induction stacked with
  | nil => rfl
  | call _ _ ih => exact ih fun other mem => home other (List.mem_cons_of_mem _ mem)
  | elsewhere _ _ => exact absurd List.mem_cons_self (home _)

theorem OwnReached.backtrace_eq {s : Situation} (reached : s.OwnReached) :
    s.machine.backtrace (workingFrame s.running) = s.lines := by
  rw [Machine.backtrace, reached.callers_eq]
  rfl

theorem OwnReached.exact {s : Situation} (reached : s.OwnReached) : s.Exact where
  depth := reached.counted.depth
  callers := reached.callers_eq
  home := homeFrame_of_home reached.counted.stacked
  bounded := reached.counted.bounded
  older := fun _ _ => reached.caller_lt
  overflow := by
    intro run env entry receiver args block x attempts at_limit
    have no_room : allowsCall s.machine = false :=
      Bool.eq_false_iff.2 fun allowed => reached.counted.allowsCall_iff.1 allowed at_limit
    rw [attempts.refused no_room]
    obtain ⟨m', failing, kind⟩ := fail_eq (α := Value) env .stackTooDeep s.machine
    exact ⟨_, _, m', failing, kind⟩
  room := by
    intro run env entry receiver args block x attempts below
    obtain ⟨f, called, -, ends⟩ := attempts.entered (reached.counted.allowsCall_iff.2 below)
    exact ⟨f, called, ends⟩
  arity := fun run env method receiver args block place defined rejects =>
    invokeAt_wrongArity defined rejects place
  length := by
    rw [lines, List.length_map, List.length_append, ← reached.counted.depth]
    rfl
  raised := by
    intro id data is unraised
    have exception : s.machine.isException (.object id) = true := by
      change ((s.machine.heap.get? id).bind Object.exception?).isSome = true
      rw [is]
      rfl
    have raising : (raise (workingFrame s.running) (.object id) : Run Value) s.machine =
        (raiseException (workingFrame s.running) id : Run Value) s.machine := by
      unfold raise
      rw [run_bind, run_read, exception]
      rfl
    rw [raising, ← reached.backtrace_eq]
    exact raiseException_backtrace _ is unraised
  failed := by
    intro fault
    obtain ⟨id, target, m', failing, -, recorded⟩ :=
      fail_backtrace (α := Value) (workingFrame s.running) fault s.machine
    exact ⟨id, target, m', failing, reached.backtrace_eq ▸ recorded⟩

/-- Whatever a program whose bodies work in their own frames evaluates, it goes through situations
in which the depth is exact: at every point it is the number of calls in progress, one less than the
callers of the frame that works, and at most the limit. -/
theorem depth_exact {s : Situation} (reached : s.OwnReached) :
    (∀ calls c e away, c.frame = workingFrame s.running → Rule.own.AllowsBlock c.block →
      (away = true → innermostCall s.running = none) → e.stays false away = true →
      OwnPath s ⟨s.running, (eval (runEntry calls) c e s.machine).2⟩) ∧
    (∀ t, OwnPath s t → t.Exact) := by
  refine ⟨?_, ?_⟩
  · intro calls c e away works block home stays
    exact reached.path_eval calls works block home stays
  · intro t path
    obtain ⟨settings, before⟩ := reached
    exact OwnReached.exact ⟨settings, before.trans path⟩

def outerFrame : Frame :=
  { Frame.fresh .method none with caller := some .main, receiver := some (.object .main) }

def innerFrame (caller : FrameId) : Frame :=
  { Frame.fresh .block none with caller := some caller, receiver := some .nil }

def shallow : Machine := .boot ⟨some 2, false, "main"⟩

def full : Situation :=
  ⟨[.call (shallow.entered outerFrame).frames.next (some shallow.frames.next)
        (innerFrame shallow.frames.next),
      .call shallow.frames.next none outerFrame],
    (shallow.entered outerFrame).entered (innerFrame shallow.frames.next)⟩

theorem full_reached : full.OwnReached := by
  have calls : OwnStep ⟨[], shallow⟩
      ⟨[.call shallow.frames.next none outerFrame], shallow.entered outerFrame⟩ :=
    .call outerFrame (by decide) ⟨rfl, rfl, rfl⟩ (.of_none rfl rfl)
  have yields : OwnStep _ full :=
    .call (innerFrame shallow.frames.next) (by decide) ⟨rfl, rfl, rfl⟩ (.of_none rfl rfl)
  exact ⟨_, (Relation.ReflTransGen.single calls).tail yields⟩

/-- Two calls are in progress, the exceptions raised there have three lines, and a block that is
called there, whatever it is, raises. -/
theorem depth_exact_full :
    full.OwnReached ∧ full.machine.depth = 2 ∧ full.lines.length = 3 ∧
    ∀ b args, ∃ id target m', callBlock (runEntry 5) (workingFrame full.running) b args
        full.machine = (.error (.signal (.raise id target)), m') ∧
      m'.exceptionKind? id = some (Core.systemStackError.id, Fault.stackTooDeep.message) := by
  have exact := (depth_exact full_reached).2 full .refl
  refine ⟨full_reached, exact.depth, exact.length.trans (by rw [exact.depth]; rfl), ?_⟩
  intro b args
  exact exact.overflow _ _ _ _ _ _ _ (.block b args) (by rw [exact.depth]; rfl)

end Situation

end ObjectRuntime
