import ObjectRuntime.Proofs.Unwind.Operations
import ObjectRuntime.Session

/-!
# Evaluations recount what they raise

Calls run in frames of their own, and what runs them is a runner; each operation that calls recounts
what it raises if the runner does. `runEntry` is one that does, by induction on the number of calls
that may still nest, and so every expression and every program recounts what it raises.
-/

set_option autoImplicit false

namespace ObjectRuntime.Run

variable {α : Type} {env : FrameId} {c : Chronicle} {run : Runner}

def RunnerRecounts (run : Runner) : Prop :=
  ∀ entry frame receiver args block, Recounts frame (run entry frame receiver args block)

/-! ### Other frames -/

theorem RecountsAt.elsewhere {other : FrameId} {x : Run α}
    (present : other.index < c.machine.frames.size) (recounts : RecountsAt other c x) :
    RecountsAt env c x :=
  fun reached _ => recounts reached present

theorem RecountsAt.inside {other : FrameId} {m : Machine} {x y : Run α} {leave : Machine → Machine}
    (enters : c.machine.Passes m) (present : other.index < m.frames.size)
    (recounts : Recounts other x) (leaves : ∀ m : Machine, m.Passes (leave m))
    (runs : y c.machine = afterward x leave m) : RecountsAt env c y := by
  intro reached _
  have entered : Chronicle.Step c ⟨c.incidents, m⟩ := .pass enters
  have inner : Recounts other (afterward x leave) := recounts.afterward fun m => .inr (leaves m)
  obtain ⟨d, path, at_d, told⟩ := inner ⟨c.incidents, m⟩ (reached.path (.single entered)) present
  rw [runs]
  exact ⟨d, .head entered path, at_d, told⟩

/-! ### Calls -/

theorem recounts_inNewFrame (runs : RunnerRecounts run) (env : FrameId) {frame : Frame}
    (bare : frame.targets = []) (entry : Entry) (receiver : Value) (args : List Value)
    (block : Option Block) :
    Recounts env (inNewFrame run env frame entry receiver args block) := by
  intro c reached present
  cases allowed : allowsCall c.machine with
  | false =>
    rw [inNewFrame_of_full allowed]
    exact recounts_fail env .stackTooDeep c reached present
  | true =>
    have called : (c.machine.callFrame env receiver frame).CalledFrom env := ⟨rfl, rfl, bare⟩
    have new : c.machine.frames.next.index <
        (c.machine.entered (c.machine.callFrame env receiver frame)).frames.size :=
      Nat.lt_of_lt_of_eq (Nat.lt_succ_self _) (Frames.size_push ..).symm
    exact RecountsAt.inside (.entered present called) new
      (runs entry c.machine.frames.next receiver args block) (fun m => .left m _ _)
      (inNewFrame_of_allowed allowed) reached present

theorem recounts_invokeAt (runs : RunnerRecounts run) (env : FrameId) (method : Method)
    (receiver : Value) (args : List Value) (block : Option Block) (place : Option Nat) :
    Recounts env (invokeAt run env method receiver args block place) := by
  have enters : ∀ entry kind outer, Recounts env
      (invokeAt.enter run env method receiver args block place entry kind outer) := by
    intro entry kind outer
    unfold invokeAt.enter
    split
    next => exact recounts_inNewFrame runs env rfl entry receiver args block
    next => exact recounts_fail env _
  unfold invokeAt
  split
  next => exact (recounts_read _).bind fun _ => recounts_fail env _
  next entry _ => exact (recounts_read _).bind fun outer => enters entry .method outer
  next entry outer _ => exact enters entry .closureMethod (some outer)

theorem recounts_callBlock (runs : RunnerRecounts run) (env : FrameId) (block : Block)
    (args : List Value) : Recounts env (callBlock run env block args) :=
  recounts_inNewFrame runs env rfl block.entry block.receiver args none

/-! ### Dispatch -/

theorem recounts_methodMissing (runs : RunnerRecounts run) (env : FrameId) (id : ObjectId)
    (selector : String) (args : List Value) (block : Option Block) (reason : MissReason) :
    Recounts env (methodMissing run env id selector args block reason) := by
  refine (recounts_noteMiss reason).bind fun _ => (recounts_count .missing).bind fun _ =>
    (recounts_read _).bind fun handler => ?_
  split
  next handler =>
    exact (recounts_symbol selector).bind fun name =>
      recounts_invokeAt runs env handler (.object id) (name :: args) block none
  next => exact (recounts_read _).bind fun _ => recounts_fail env _

theorem recounts_sendToObject (runs : RunnerRecounts run) (env : FrameId) (kind : SendKind)
    (id : ObjectId) (selector : String) (args : List Value) (block : Option Block) :
    Recounts env (sendToObject run env kind id selector args block) := by
  refine (recounts_read _).bind fun found => ?_
  split
  next => exact recounts_methodMissing runs env id selector args block .notFound
  next method =>
    split
    next reason _ => exact recounts_methodMissing runs env id selector args block reason
    next => exact recounts_invokeAt runs env method (.object id) args block none

theorem recounts_follow (runs : RunnerRecounts run) (env : FrameId) (kind : SendKind)
    (selector : String) (args : List Value) (block : Option Block) (route : Route) :
    Recounts env (follow run env kind selector args block route) := by
  cases route with
  | direct op receiver argument => exact recounts_applyOperator env op receiver argument
  | general id => exact recounts_sendToObject runs env kind id selector args block

theorem recounts_send (runs : RunnerRecounts run) (env : FrameId) (kind : SendKind)
    (receiver : Value) (selector : String) (args : List Value) (block : Option Block) :
    Recounts env (send run env kind receiver selector args block) :=
  (recounts_route receiver selector args).bind fun route =>
    recounts_follow runs env kind selector args block route

theorem recounts_identify (runs : RunnerRecounts run) (env : FrameId) (receiver : Value)
    (name : String) (args : List Value) {f : Value × Run Value → Run Value}
    (rest : ∀ after result, Recounts env result → Recounts env (f (after, result))) :
    Recounts env (identify run env receiver name args >>= f) := by
  unfold identify
  rw [LawfulMonad.bind_assoc]
  refine (recounts_read _).bind fun bound => ?_
  split
  next value => exact rest receiver _ (recounts_pure value)
  next =>
    rw [LawfulMonad.bind_assoc]
    exact (recounts_route receiver name args).bind fun route =>
      rest _ _ (recounts_follow runs env .anyMethod name args none route)

theorem recounts_callSuper (runs : RunnerRecounts run) (env : FrameId) (receiver : Value)
    (args : List Value) (block : Option Block) :
    Recounts env (callSuper run env receiver args block) := by
  refine (recounts_read _).bind fun frame => ?_
  split
  next => exact recounts_fail env _
  next f current _ =>
    refine (recounts_hydrate receiver).bind fun id => (recounts_read _).bind fun next => ?_
    split
    next place method =>
      have invokes : ∀ block, Recounts env
          (invokeAt run env method (.object id) args block place) :=
        fun block => recounts_invokeAt runs env method (.object id) args block place
      split
      next block => exact invokes (some block)
      next => exact (recounts_read _).bind invokes
    next => exact (recounts_read _).bind fun _ => recounts_fail env _

/-! ### Built-in methods -/

theorem recounts_sendByName (runs : RunnerRecounts run) (kind : SendKind) (env : FrameId)
    (receiver : Value) (args : List Value) (block : Option Block) :
    Recounts env (sendByName run kind env receiver args block) := by
  cases args with
  | nil => exact recounts_fail env _
  | cons selector rest =>
    exact (recounts_selectorArg env selector).bind fun name =>
      recounts_send runs env kind receiver name rest block

theorem recounts_raiseByArgs (runs : RunnerRecounts run) (env : FrameId) (args : List Value) :
    Recounts env (raiseByArgs run env args) := by
  cases args with
  | nil => exact recounts_fail env _
  | cons first rest =>
    refine (recounts_read _).bind fun text => ?_
    split
    next message => exact recounts_fail env _
    next =>
      refine (recounts_read _).bind fun isClass => ?_
      split
      next =>
        exact (recounts_send runs env .anyMethod first "new" rest none).bind fun exception =>
          recounts_raise env exception
      next =>
        split
        next message _ =>
          refine (recounts_read _).bind fun isException => ?_
          split
          next =>
            exact (recounts_read _).bind fun text => (recounts_setMessage first text).bind
              fun _ => recounts_raise env first
          next => exact recounts_raise env first
        next => exact recounts_raise env first

theorem recounts_catchByArgs (runs : RunnerRecounts run) (env : FrameId) (args : List Value)
    (block : Option Block) : Recounts env (catchByArgs run env args block) := by
  cases block with
  | none => exact recounts_fail env _
  | some block =>
    have catches : ∀ tag, Recounts env (catching env tag (callBlock run env block [tag])) :=
      fun tag => recounts_catching (recounts_callBlock runs env block [tag])
    cases args with
    | nil => exact (recounts_newObject Core.object.id .plain rfl nofun).bind catches
    | cons tag rest => exact catches tag

theorem recounts_instantiate (runs : RunnerRecounts run) (env : FrameId) (receiver : Value)
    (args : List Value) (block : Option Block) :
    Recounts env (instantiate run env receiver args block) :=
  (recounts_send runs env .anyMethod receiver "allocate" [] none).bind fun object =>
    (recounts_route object "initialize" args).bind fun route =>
      (recounts_follow runs env .anyMethod "initialize" args block route).bind fun _ =>
        recounts_pure _

theorem recounts_builtin (runs : RunnerRecounts run) (env : FrameId) (receiver : Value)
    (args : List Value) (block : Option Block) (method : Builtin) :
    Recounts env (method.perform run env receiver args block) := by
  cases calls : method.calls with
  | false => exact recounts_silent run env receiver args block method calls
  | true =>
    cases method with
    | send => exact recounts_sendByName runs .anyMethod env receiver args block
    | publicSend => exact recounts_sendByName runs .publicOnly env receiver args block
    | raise => exact recounts_raiseByArgs runs env args
    | catching => exact recounts_catchByArgs runs env args block
    | new => exact recounts_instantiate runs env receiver args block
    | _ => cases calls

/-! ### Expressions -/

theorem passes_writeBack (slot : Option String) (before after : Value) (m : Machine) :
    writeBack slot before after m = m ∨ m.Passes (writeBack slot before after m) := by
  unfold writeBack
  split
  next name =>
    split
    next => exact .inr (.observe m.globals m.symbols m.missReason m.counters m.heap.gate rfl)
    next => exact .inl rfl
  next => exact .inl rfl

/-- A signal is kept only when it has ended a computation, which tells of it. -/
theorem recounts_stash (key : String) {x : Run Value} (recounts : Recounts env x) :
    Recounts env (stash key x) := by
  intro c
  refine (recounts c).attempt fun outcome d told => ?_
  split
  next => exact recounts_pure _ d
  next s =>
    exact fun _ _ => ⟨_, .single (.keep key s (told s rfl)), rfl, nofun⟩
  next e _ =>
    refine .exit fun s is_signal => told s ?_
    rw [is_signal]

theorem recounts_runMain {x : Run Value} (recounts : Recounts env x) :
    Recounts env (runMain x) := by
  intro c
  refine (recounts c).attempt fun outcome d told => ?_
  split
  next v => exact recounts_pure v d
  next s =>
    exact (recounts_uncaught s).bind (fun _ => (recounts_log _).bind fun _ => recounts_pure _) d
  next e _ =>
    refine .exit fun s is_signal => told s ?_
    rw [is_signal]

mutual

theorem recounts_eval (runs : RunnerRecounts run) (c : Context) (e : Expr) :
    Recounts c.frame (eval run c e) := by
  cases e with
  | literal value =>
    rw [eval]
    exact recounts_ofLiteral value
  | constant name =>
    rw [eval]
    exact (recounts_read _).bind fun _ => recounts_ofOption _
  | register name =>
    rw [eval]
    exact (recounts_read _).bind fun _ => recounts_ofOption _
  | prim step operands =>
    rw [eval]
    exact (recounts_evalArgs runs c operands).bind fun operands => recounts_perform c step operands
  | seq first second =>
    rw [eval]
    exact (recounts_eval runs c first).bind fun _ => recounts_eval runs c second
  | cond test yes no =>
    rw [eval]
    refine (recounts_eval runs c test).bind fun v => (recounts_read _).bind fun truthy => ?_
    split
    next => exact recounts_eval runs c yes
    next => exact recounts_eval runs c no
  | times count body =>
    rw [eval]
    exact ((recounts_eval runs c body).times count).bind fun _ => recounts_pure _
  | send kind receiver selector args block =>
    rw [eval]
    refine (recounts_eval runs c receiver).bind fun before =>
      (recounts_evalArgs runs c args).bind fun args =>
        (recounts_evalBlock runs c block).bind fun block =>
          (recounts_route before selector args).bind fun route => ?_
    exact (recounts_follow runs c.frame kind selector args block route).afterward
      fun m => passes_writeBack _ _ _ m
  | identifier receiver name args =>
    rw [eval]
    refine (recounts_eval runs c receiver).bind fun before =>
      (recounts_evalArgs runs c args).bind fun args => ?_
    exact recounts_identify runs c.frame before name args fun after result recounts =>
      recounts.afterward fun m => passes_writeBack _ _ _ m
  | callSuper args block =>
    rw [eval]
    exact (recounts_evalArgs runs c args).bind fun args =>
      (recounts_evalBlock runs c block).bind fun block =>
        recounts_callSuper runs c.frame c.receiver args block
  | invoke owner name receiver args block =>
    rw [eval]
    exact (recounts_eval runs c owner).bind fun v => (recounts_moduleOf v).bind fun owner =>
      (recounts_eval runs c receiver).bind fun receiver =>
        (recounts_evalArgs runs c args).bind fun args =>
          (recounts_evalBlock runs c block).bind fun block =>
            (recounts_read _).bind fun _ => (recounts_ofOption _).bind fun method =>
              recounts_invokeAt runs c.frame method receiver args block none
  | yield args =>
    rw [eval]
    refine (recounts_read _).bind fun current => ?_
    split
    next => exact recounts_fail c.frame _
    next block =>
      exact (recounts_evalArgs runs c args).bind fun args =>
        recounts_callBlock runs c.frame block args
  | call block args =>
    rw [eval]
    exact (recounts_evalBlock runs c block).bind fun block =>
      (recounts_ofOption _).bind fun block =>
        (recounts_evalArgs runs c args).bind fun args => recounts_callBlock runs c.frame block args
  | makeProc arity body =>
    rw [eval]
    exact recounts_newObject Core.proc.id _ rfl nofun
  | defineMethod owner name arity capture code visibility =>
    rw [eval]
    exact (recounts_eval runs c owner).bind fun v => (recounts_moduleOf v).bind fun owner =>
      (recounts_defineMethod { Method.plain name owner arity (body capture code c.frame) with
        visibility } rfl).bind fun _ => recounts_pure _
  | defineFromBlock owner name block =>
    rw [eval]
    exact (recounts_eval runs c owner).bind fun v => (recounts_moduleOf v).bind fun owner =>
      (recounts_evalBlock runs c block).bind fun block => (recounts_ofOption _).bind fun block =>
        (recounts_defineMethod (.ofBlock name owner block) rfl).bind fun _ => recounts_pure _
  | defineSingleton target name arity capture code =>
    rw [eval]
    exact (recounts_eval runs c target).bind fun target =>
      (recounts_defineSingleton c.frame target name arity (body capture code c.frame)).bind
        fun _ => recounts_pure _
  | within owner body =>
    rw [eval]
    refine (recounts_eval runs c owner).bind fun v => (recounts_moduleOf v).bind fun owner d => ?_
    refine .of_reached fun reached => .read ?_
    cases at_owner : ownerFrame d.machine owner with
    | none => exact .exit nofun
    | some frame =>
      have present : frame.index < d.machine.frames.size :=
        reached.encountered.housed.present frame (.inr ⟨owner, at_owner⟩)
      exact .elsewhere present
        (recounts_eval runs ⟨frame, d.machine.moduleObject owner, [], none⟩ body d)
  | inFrame kind linked body =>
    rw [eval]
    intro d reached present
    have new : d.machine.frames.next.index <
        (d.machine.called (.scope kind c.frame linked) d.machine.current).frames.size :=
      Nat.lt_of_lt_of_eq (Nat.lt_succ_self _) (Frames.size_push ..).symm
    exact RecountsAt.inside (.scope present kind linked) new
      (recounts_eval runs { c with frame := d.machine.frames.next } body)
      (fun m => .unlinked m d.machine.frames.next) rfl reached present
  | rescue body handler =>
    rw [eval]
    refine (recounts_rescue (recounts_eval runs c body)).bind fun rescued => ?_
    split
    next v => exact recounts_pure v
    next => exact recounts_eval runs c handler
  | catching tag body =>
    rw [eval]
    exact (recounts_eval runs c tag).bind fun tag => recounts_catching (recounts_eval runs c body)
  | ensure body cleanup =>
    rw [eval]
    exact recounts_ensure (recounts_eval runs c body)
      ((recounts_eval runs c cleanup).bind fun _ => recounts_pure ())
  | stash key body =>
    rw [eval]
    exact recounts_stash key (recounts_eval runs c body)
  | runMain body =>
    rw [eval]
    refine recounts_runMain fun d => .of_reached fun reached => ?_
    have present : FrameId.main.index < d.machine.frames.size :=
      reached.encountered.housed.present .main (.inl rfl)
    exact .elsewhere present (recounts_eval runs { c with frame := .main } body d)

theorem recounts_evalArgs (runs : RunnerRecounts run) (c : Context) (args : Args) :
    Recounts c.frame (evalArgs run c args) := by
  cases args with
  | nil =>
    rw [evalArgs]
    exact recounts_pure []
  | cons first rest =>
    rw [evalArgs]
    exact (recounts_eval runs c first).bind fun _ => (recounts_evalArgs runs c rest).bind fun _ =>
      recounts_pure _
  | splice start rest =>
    rw [evalArgs]
    exact (recounts_evalArgs runs c rest).bind fun _ => recounts_pure _

theorem recounts_evalBlock (runs : RunnerRecounts run) (c : Context) (block : BlockArg) :
    Recounts c.frame (evalBlock run c block) := by
  cases block with
  | none =>
    rw [evalBlock]
    exact recounts_pure _
  | literal arity body =>
    rw [evalBlock]
    exact recounts_pure _
  | passed =>
    rw [evalBlock]
    exact recounts_pure _
  | current =>
    rw [evalBlock]
    exact recounts_read _
  | ofProc value =>
    rw [evalBlock]
    refine (recounts_eval runs c value).bind fun v => (recounts_read _).bind fun found => ?_
    rw [← bind_pure_comp]
    exact (recounts_ofOption _).bind fun _ => recounts_pure _

end

theorem recounts_runEntry (calls : Nat) : RunnerRecounts (runEntry calls) := by
  induction calls with
  | zero => exact fun _ _ _ _ _ _ => .exit nofun
  | succ calls ih =>
    intro entry frame receiver args block
    cases entry with
    | builtin method => exact recounts_builtin ih frame receiver args block method
    | code body => exact recounts_eval ih ⟨frame, receiver, args, block⟩ body

theorem recounts_evalMain (program : Expr) : Recounts .main (evalMain program) :=
  (recounts_read _).bind fun nesting =>
    recounts_eval (recounts_runEntry nesting) ⟨.main, .object .main, [], none⟩ program

end ObjectRuntime.Run
