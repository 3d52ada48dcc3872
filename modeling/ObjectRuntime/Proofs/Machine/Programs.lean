import ObjectRuntime.Proofs.Hierarchy.Order
import ObjectRuntime.Proofs.Machine.Builtins
import ObjectRuntime.Proofs.Machine.Course
import ObjectRuntime.Session

/-!
# Programs take a course

Every evaluation takes a course in the frame it works in, whatever it does and however it ends.
Calls are run by a runner, so that each operation that calls is shown to take a course if the runner
does; `runEntry` closes the circle by induction on the number of calls that may still nest.
-/

set_option autoImplicit false

namespace ObjectRuntime

theorem Step.valid {m m' : Machine} (step : Step m m') (valid : m.Valid fun _ => True) :
    m'.Valid fun _ => True := by
  cases step with
  | change change => exact change.valid valid
  | call frames current depth tokens =>
    exact ⟨valid.methods, valid.classMethods, valid.singletons, valid.payloads,
      fun _ f _ => .of_all (fun _ => True.intro) f, valid.modules⟩

theorem Steps.valid {m m' : Machine} (steps : Steps m m') (valid : m.Valid fun _ => True) :
    m'.Valid fun _ => True := by
  induction steps with
  | refl => exact valid
  | tail _ last ih => exact last.valid ih

abbrev AllowedBlock (free : Bool) (block : Option Block) : Prop :=
  ∀ b, block = some b → b.Satisfies (Allowed free)

theorem AllowedBlock.none {free : Bool} : AllowedBlock free none := nofun

abbrev Rule.AllowsBlock (r : Rule) (block : Option Block) : Prop :=
  ∀ b, block = some b → b.Satisfies r.Code

theorem Rule.AllowsBlock.none {r : Rule} : r.AllowsBlock none := nofun

/-- The code may be evaluated where `away` says whether it may work in other frames. -/
abbrev Rule.PermitsAt (r : Rule) (away : Bool) (e : Expr) : Prop :=
  Permits r.free (e.stays r.scopes away)

namespace Run

variable {α β : Type}

/-- On this machine the computation takes a course in the frame, however it ends. -/
def TakesAt (r : Rule) (away : Bool) (env : FrameId) (m : Machine) (x : Run α) : Prop :=
  m.Valid r.Code → Course r away env m (x m).2

def Takes (r : Rule) (away : Bool) (env : FrameId) (x : Run α) : Prop := ∀ m, TakesAt r away env m x

def RunnerTakes (r : Rule) (run : Runner) : Prop :=
  ∀ entry frame receiver args block, entry.Satisfies r.Code → r.AllowsBlock block →
    Takes r false frame (run entry frame receiver args block)

variable {r : Rule} {away : Bool} {env other : FrameId} {m : Machine}

theorem TakesAt.of_valid {x : Run α} (takes : m.Valid r.Code → TakesAt r away env m x) :
    TakesAt r away env m x :=
  fun valid => takes valid valid

theorem TakesAt.bind {x : Run α} {f : α → Run β} (first : TakesAt r away env m x)
    (rest : ∀ a m', x m = (.ok a, m') → m'.Valid r.Code → TakesAt r away env m' (f a)) :
    TakesAt r away env m (x >>= f) := by
  intro valid
  have before := first valid
  rw [run_bind]
  cases ending : x m with
  | mk outcome m' =>
    rw [ending] at before
    cases outcome with
    | ok a => exact before.trans (rest a m' ending (before.valid valid) (before.valid valid))
    | error e => exact before

theorem Takes.bind {x : Run α} {f : α → Run β} (first : Takes r away env x)
    (rest : ∀ a, Takes r away env (f a)) : Takes r away env (x >>= f) :=
  fun m => (first m).bind fun a m' _ _ => rest a m'

theorem TakesAt.read {f : Machine → α} {g : α → Run β} (rest : TakesAt r away env m (g (f m))) :
    TakesAt r away env m (Run.read f >>= g) := rest

theorem QuietAt.takes {x : Run α} (quiet : QuietAt r.Code other m x) :
    TakesAt r away env m x :=
  fun valid => .calm (quiet valid).calmly

theorem Quiet.takes {x : Run α} (quiet : Quiet r.Code other x) : Takes r away env x :=
  fun m => (quiet m).takes

theorem takes_pure (a : α) : Takes r away env (pure a : Run α) := fun m _ => .refl env m
theorem takes_exit (e : Exit) : Takes r away env (exit e : Run α) := fun m _ => .refl env m
theorem takes_read (f : Machine → α) : Takes r away env (Run.read f) := fun m _ => .refl env m

theorem takes_ofOption_bind {found : Option α} {f : α → Run β}
    (rest : ∀ a, found = some a → TakesAt r away env m (f a)) :
    TakesAt r away env m (ofOption found >>= f) := by
  cases found with
  | none => exact fun _ => .refl env m
  | some a => exact rest a rfl

theorem takes_ofOption (found : Option α) : Takes r away env (ofOption found) := by
  cases found with
  | none => exact takes_exit _
  | some a => exact takes_pure a

theorem Takes.attempt {x : Run α} (takes : Takes r away env x) :
    Takes r away env x.attempt := takes

theorem Takes.afterward {x : Run α} {f : Machine → Machine} (takes : Takes r away env x)
    (calmly : ∀ m, Calmly r.Code m (f m)) : Takes r away env (x.afterward f) :=
  fun m valid => (takes m valid).trans (.calm (calmly _))

theorem Takes.times {x : Run α} (takes : Takes r away env x) (count : Nat) :
    Takes r away env (Run.times count x) := by
  induction count with
  | zero => exact takes_pure ()
  | succ count ih => exact takes.bind fun _ => ih

/-! ### Handlers -/

theorem takes_withTarget {kind : TargetKind} {body : Run α} (takes : Takes r away env body) :
    Takes r away env (withTarget env kind body) :=
  fun m valid => .handler kind (takes (m.opened env kind) (valid.opened env kind))

theorem takes_rescue {body : Run Value} (takes : Takes r away env body) :
    Takes r away env (rescue env body) := by
  refine (takes_withTarget takes).bind ?_
  rintro ⟨token, outcome⟩
  dsimp only
  split
  next => exact takes_pure _
  next id target =>
    split
    next =>
      have delivered : Quiet r.Code env
          (modifyFrame env fun f => { f with exception := some (.object id) }) :=
        quiet_modifyFrame env _ fun _ => ⟨⟨rfl, rfl, rfl, rfl⟩, rfl, rfl⟩
      have told : Quiet r.Code env (setGlobal lastError (.object id)) :=
        quiet_setGlobal _ _
      exact delivered.takes.bind fun _ => told.takes.bind fun _ => takes_pure _
    next => exact takes_exit _
  next => exact takes_exit _

theorem takes_catching {tag : Value} {body : Run Value} (takes : Takes r away env body) :
    Takes r away env (catching env tag body) := by
  refine (takes_withTarget takes).bind ?_
  rintro ⟨token, outcome⟩
  dsimp only
  split
  next =>
    split
    next => exact takes_pure _
    next => exact takes_exit _
  next => exact fun m _ => .refl env m

theorem takes_ensure {body : Run α} {cleanup : Run Unit} (takes : Takes r away env body)
    (cleanup_takes : Takes r away env cleanup) : Takes r away env (ensure body cleanup) := by
  refine takes.attempt.bind ?_
  intro outcome
  split
  next value => exact cleanup_takes.bind fun _ => takes_pure value
  next s => exact cleanup_takes.bind fun _ => takes_exit _
  next => exact takes_exit _

/-! ### Calls -/

theorem takes_fail (fault : Fault) : Takes r away env (fail other fault : Run α) :=
  (quiet_fail other fault).takes

variable {run : Runner} {block : Option Block}

/-- Entering a call and leaving it again, if the limit on nested calls allows it. -/
theorem takes_inNewFrame (runs : RunnerTakes r run) (env : FrameId) {frame : Frame}
    {entry : Entry} (receiver : Value) (args : List Value) (targets : frame.targets = [])
    (code : frame.Satisfies r.Code) (entry_code : entry.Satisfies r.Code)
    (block_code : r.AllowsBlock block) :
    Takes r away env (inNewFrame run env frame entry receiver args block) := by
  intro m
  unfold inNewFrame enterCall
  rw [LawfulMonad.bind_assoc]
  refine .read ?_
  split
  next allowed =>
    intro valid
    refine .call { frame with
      caller := some env, position := m.frames.position env, receiver := some receiver }
      allowed ⟨rfl, rfl, targets⟩ code ?_
    exact runs entry m.frames.next receiver args block entry_code block_code _ (valid.entered code)
  next => exact (takes_fail .stackTooDeep m).bind fun _ _ ending => by cases ending

theorem takes_invokeAt (runs : RunnerTakes r run) (env : FrameId) {method : Method}
    (code : method.Satisfies r.Code) (receiver : Value) (args : List Value)
    (block_code : r.AllowsBlock block) (place : Option Nat) :
    Takes r away env (invokeAt run env method receiver args block place) := by
  have enters : ∀ entry kind outer, entry.Satisfies r.Code →
      Takes r away env
        (invokeAt.enter run env method receiver args block place entry kind outer) := by
    intro entry kind outer entry_code
    unfold invokeAt.enter
    split
    next =>
      refine takes_inNewFrame runs env receiver args rfl ⟨?_, block_code⟩ entry_code block_code
      rintro _ ⟨⟩
      exact code
    next => exact takes_fail _
  unfold Method.Satisfies at code
  unfold invokeAt
  split
  next => exact (takes_read _).bind fun _ => takes_fail _
  next entry body =>
    rw [body] at code
    exact (takes_read _).bind fun outer => enters entry .method outer code
  next entry outer body =>
    rw [body] at code
    exact enters entry .closureMethod (some outer) code

theorem takes_callBlock (runs : RunnerTakes r run) (env : FrameId) {block : Block}
    (code : block.Satisfies r.Code) (args : List Value) :
    Takes r away env (callBlock run env block args) :=
  takes_inNewFrame runs env _ args rfl (.of_none rfl rfl) code .none

theorem takes_route (receiver : Value) (selector : String) (args : List Value) :
    Takes r away env (route receiver selector args) :=
  (quiet_route receiver selector args : Quiet _ env _).takes

theorem takes_methodMissing (runs : RunnerTakes r run) (block_code : r.AllowsBlock block)
    (env : FrameId) (id : ObjectId) (selector : String) (args : List Value) (reason : MissReason) :
    Takes r away env (methodMissing run env id selector args block reason) := by
  have noted : Quiet r.Code env (Run.modify fun m => { m with missReason := reason }) :=
    quiet_noteMiss reason
  have counted : Quiet r.Code env (count .missing) := quiet_count .missing
  refine noted.takes.bind fun _ => counted.takes.bind fun _ m => .of_valid fun valid => .read ?_
  split
  next handler found =>
    have code := valid.resolve (Method.eq_some_of_defined? found)
    have named : Quiet r.Code env (symbol selector) := quiet_symbol selector
    exact (named.takes.bind fun _ => takes_invokeAt runs env code _ _ block_code none) m
  next => exact .read (takes_fail _ m)

theorem takes_sendToObject (runs : RunnerTakes r run) (block_code : r.AllowsBlock block)
    (env : FrameId) (kind : SendKind) (id : ObjectId) (selector : String) (args : List Value) :
    Takes r away env (sendToObject run env kind id selector args block) := by
  intro m
  refine .of_valid fun valid => .read ?_
  split
  next => exact takes_methodMissing runs block_code env id selector args .notFound m
  next method found =>
    have code := valid.resolve (Method.eq_some_of_defined? found)
    split
    next reason _ => exact takes_methodMissing runs block_code env id selector args reason m
    next => exact takes_invokeAt runs env code _ args block_code none m

theorem takes_follow (runs : RunnerTakes r run) (block_code : r.AllowsBlock block)
    (env : FrameId) (kind : SendKind) (selector : String) (args : List Value) (route : Route) :
    Takes r away env (follow run env kind selector args block route) := by
  cases route with
  | direct op receiver argument => exact (quiet_applyOperator env op receiver argument).takes
  | general id => exact takes_sendToObject runs block_code env kind id selector args

theorem takes_send (runs : RunnerTakes r run) (block_code : r.AllowsBlock block)
    (env : FrameId) (kind : SendKind) (receiver : Value) (selector : String) (args : List Value) :
    Takes r away env (send run env kind receiver selector args block) :=
  (takes_route receiver selector args).bind fun route =>
    takes_follow runs block_code env kind selector args route

theorem takes_identify (runs : RunnerTakes r run) (env : FrameId) (receiver : Value)
    (name : String) (args : List Value) {f : Value × Run Value → Run Value}
    (rest : ∀ after result, Takes r away env result → Takes r away env (f (after, result))) :
    Takes r away env (identify run env receiver name args >>= f) := by
  unfold identify
  rw [LawfulMonad.bind_assoc]
  refine (takes_read _).bind ?_
  intro bound
  split
  next value => exact rest receiver _ (takes_pure value)
  next =>
    rw [LawfulMonad.bind_assoc]
    exact (takes_route receiver name args).bind fun route =>
      rest _ _ (takes_follow runs .none env .anyMethod name args route)

theorem takes_callSuper (runs : RunnerTakes r run) (block_code : r.AllowsBlock block)
    (env : FrameId) (receiver : Value) (args : List Value) :
    Takes r away env (callSuper run env receiver args block) := by
  refine (takes_read _).bind ?_
  intro frame
  split
  next => exact takes_fail _
  next f current _ =>
    have hydrated : Quiet r.Code env (hydrate receiver) := quiet_hydrate receiver
    refine hydrated.takes.bind fun id m => .of_valid fun valid => .read ?_
    split
    next place method next =>
      have code := valid.nextDefinition next
      split
      next block => exact takes_invokeAt runs env code _ args block_code place m
      next =>
        have passed : r.AllowsBlock (m.frames.currentBlock? env) :=
          fun _ current => valid.currentBlock current
        exact .read (takes_invokeAt runs env code _ args passed place m)
    next => exact .read (takes_fail _ m)

/-! ### Built-in methods -/

theorem takes_sendByName (runs : RunnerTakes r run) (block_code : r.AllowsBlock block)
    (kind : SendKind) (env : FrameId) (receiver : Value) (args : List Value) :
    Takes r away env (sendByName run kind env receiver args block) := by
  cases args with
  | nil => exact takes_fail _
  | cons selector rest =>
    exact (quiet_selectorArg env selector).takes.bind fun name =>
      takes_send runs block_code env kind receiver name rest

theorem takes_raiseByArgs (runs : RunnerTakes r run) (env : FrameId) (args : List Value) :
    Takes r away env (raiseByArgs run env args) := by
  cases args with
  | nil => exact takes_fail _
  | cons first rest =>
    refine (takes_read _).bind ?_
    intro text
    split
    next message => exact takes_fail _
    next =>
      refine (takes_read _).bind ?_
      intro isClass
      split
      next =>
        exact (takes_send runs .none env .anyMethod first "new" rest).bind fun exception =>
          (quiet_raise env exception).takes
      next =>
        split
        next message _ =>
          refine (takes_read _).bind ?_
          intro isException
          split
          next =>
            refine (takes_read _).bind fun text => ?_
            have edited : Quiet r.Code env (setMessage first text) :=
              quiet_setMessage first text
            exact edited.takes.bind fun _ => (quiet_raise env first).takes
          next => exact (quiet_raise env first).takes
        next => exact (quiet_raise env first).takes

theorem takes_catchByArgs (runs : RunnerTakes r run) (block_code : r.AllowsBlock block)
    (env : FrameId) (args : List Value) : Takes r away env (catchByArgs run env args block) := by
  cases block with
  | none => exact takes_fail _
  | some block =>
    have catches : ∀ tag, Takes r away env (catching env tag (callBlock run env block [tag])) :=
      fun tag => takes_catching (takes_callBlock runs env (block_code block rfl) [tag])
    cases args with
    | nil =>
      have made : Quiet r.Code env (newObject Core.object.id .plain) :=
        quiet_newObject Core.object.id .plain trivial nofun
      exact made.takes.bind catches
    | cons tag rest => exact catches tag

theorem takes_instantiate (runs : RunnerTakes r run) (block_code : r.AllowsBlock block)
    (env : FrameId) (receiver : Value) (args : List Value) :
    Takes r away env (instantiate run env receiver args block) :=
  (takes_send runs .none env .anyMethod receiver "allocate" []).bind fun object =>
    (takes_route object "initialize" args).bind fun route =>
      (takes_follow runs block_code env .anyMethod "initialize" args route).bind fun _ =>
        takes_pure _

theorem takes_builtin (runs : RunnerTakes r run) (block_code : r.AllowsBlock block)
    (env : FrameId) (receiver : Value) (args : List Value) (method : Builtin) :
    Takes r away env (method.perform run env receiver args block) := by
  cases calls : method.calls with
  | false => exact (quiet_builtin run env receiver args block_code method calls).takes
  | true =>
    cases method with
    | send => exact takes_sendByName runs block_code .anyMethod env receiver args
    | publicSend => exact takes_sendByName runs block_code .publicOnly env receiver args
    | raise => exact takes_raiseByArgs runs env args
    | catching => exact takes_catchByArgs runs block_code env args
    | new => exact takes_instantiate runs block_code env receiver args
    | _ => cases calls

/-! ### Expressions -/

theorem takes_moduleOf (v : Value) : Takes r away env (moduleOf v) :=
  (quiet_moduleOf v : Quiet _ env _).takes

theorem takes_placeFrame (c : Context) (place : Place) (operands : List Value) :
    Takes r away env (placeFrame c place operands) := by
  unfold placeFrame
  split
  next => exact takes_pure _
  next => exact takes_pure _
  next v => exact (takes_moduleOf v).bind fun id => (takes_read _).bind fun _ => takes_ofOption _
  next => exact takes_exit _

theorem takes_openClassPrim (c : Context) (name : String) (hasSuperclass : Bool) (place : Place)
    (operands : List Value) :
    Takes r away env (openClassPrim c name hasSuperclass place operands) := by
  have rest : ∀ superclass operands, Takes r away env (do
      let frame ← placeFrame c place operands
      let id ← openClass frame name superclass
      read fun m => m.moduleObject id) :=
    fun superclass operands => (takes_placeFrame c place operands).bind fun frame =>
      (quiet_openClass frame name superclass).takes.bind fun _ => takes_read _
  unfold openClassPrim
  split
  next v operands => exact (takes_moduleOf v).bind fun id => rest (some id) operands
  next => exact fun m _ => .refl env m
  next operands => exact rest none _

/-- Also a primitive that is not disciplined takes a course: it may aim a fault from another frame,
or end with a signal that was kept, but no frame of a call changes. -/
theorem takes_perform (c : Context) (step : Prim) (operands : List Value) :
    Takes r away c.frame (perform c step operands) := by
  cases disciplined : step.isDisciplined with
  | true => exact (quiet_perform c step operands disciplined).takes
  | false =>
    cases step with
    | openClass name hasSuperclass place =>
      exact takes_openClassPrim c name hasSuperclass place operands
    | openModule name place =>
      exact (takes_placeFrame c place operands).bind fun frame =>
        (quiet_openModule frame name).takes.bind fun _ => takes_read _
    | resignal key =>
      cases operands with
      | nil => exact (takes_read _).bind fun _ => (takes_ofOption _).bind fun _ => takes_exit _
      | cons v rest => exact takes_exit _
    | _ => cases disciplined

theorem takes_stash (key : String) {x : Run Value} (takes : Takes r away env x) :
    Takes r away env (stash key x) := by
  refine takes.attempt.bind ?_
  intro outcome
  split
  next => exact takes_pure _
  next s =>
    have kept : Quiet r.Code env (Run.modify fun m =>
        { m with desk := { m.desk with kept := m.desk.kept.insert key s } }) :=
      quiet_modifyDesk fun desk => { desk with kept := desk.kept.insert key s }
    exact kept.takes.bind fun _ => takes_pure _
  next => exact takes_exit _

theorem takes_runMain {x : Run Value} (takes : Takes r away env x) :
    Takes r away env (runMain x) := by
  refine takes.attempt.bind ?_
  intro outcome
  split
  next v => exact takes_pure v
  next s =>
    have logs : ∀ answer, Takes r away env (log answer) :=
      fun answer => (quiet_log answer : Quiet _ env _).takes
    cases s with
    | raise id target =>
      exact (takes_read _).bind fun report => (logs _).bind fun _ => takes_pure _
    | throw tag value target =>
      have reports : Takes r away env (uncaught .main (.throw tag value target)) :=
        (takes_read _).bind fun shown =>
          (quiet_newException _ _ : Quiet _ env _).takes.bind fun id =>
            (quiet_recordBacktrace .main id : Quiet _ env _).takes.bind fun _ => takes_read _
      exact reports.bind fun report => (logs _).bind fun _ => takes_pure _
  next => exact takes_exit _

structure TakesBlock (r : Rule) (away : Bool) (env : FrameId) (x : Run (Option Block)) : Prop where
  takes : Takes r away env x
  block : ∀ m b m', m.Valid r.Code → x m = (.ok b, m') → r.AllowsBlock b

theorem TakesBlock.bind {x : Run (Option Block)} {f : Option Block → Run α}
    (first : TakesBlock r away env x)
    (rest : ∀ b, r.AllowsBlock b → Takes r away env (f b)) :
    Takes r away env (x >>= f) := by
  intro m
  refine .of_valid fun valid => (first.takes m).bind ?_
  intro b m' ending _
  exact rest b (first.block m b m' valid ending) m'

mutual

theorem takes_eval (runs : RunnerTakes r run) (c : Context)
    (block_code : r.AllowsBlock c.block) (e : Expr) (permits : r.PermitsAt away e) :
    Takes r away c.frame (eval run c e) := by
  cases e with
  | literal value =>
    rw [eval]
    exact (quiet_ofLiteral value : Quiet _ c.frame _).takes
  | constant name =>
    rw [eval]
    exact (takes_read _).bind fun _ => takes_ofOption _
  | register name =>
    rw [eval]
    exact (takes_read _).bind fun _ => takes_ofOption _
  | prim step operands =>
    rw [eval]
    rw [Rule.PermitsAt, Expr.stays] at permits
    exact (takes_evalArgs runs c block_code operands permits).bind fun operands =>
      takes_perform c step operands
  | seq first second =>
    rw [eval]
    rw [Rule.PermitsAt, Expr.stays] at permits
    obtain ⟨first_ok, second_ok⟩ := permits.and
    exact (takes_eval runs c block_code first first_ok).bind fun _ =>
      takes_eval runs c block_code second second_ok
  | cond test yes no =>
    rw [eval]
    rw [Rule.PermitsAt, Expr.stays] at permits
    obtain ⟨tested, no_ok⟩ := permits.and
    obtain ⟨test_ok, yes_ok⟩ := tested.and
    refine (takes_eval runs c block_code test test_ok).bind fun v => (takes_read _).bind ?_
    intro truthy
    split
    next => exact takes_eval runs c block_code yes yes_ok
    next => exact takes_eval runs c block_code no no_ok
  | times count body =>
    rw [eval]
    rw [Rule.PermitsAt, Expr.stays] at permits
    exact ((takes_eval runs c block_code body permits).times count).bind fun _ => takes_pure _
  | send kind receiver selector args block =>
    rw [eval]
    rw [Rule.PermitsAt, Expr.stays] at permits
    obtain ⟨operands, block_ok⟩ := permits.and
    obtain ⟨receiver_ok, args_ok⟩ := operands.and
    refine (takes_eval runs c block_code receiver receiver_ok).bind fun before =>
      (takes_evalArgs runs c block_code args args_ok).bind fun args =>
        (takes_evalBlock runs c block_code block block_ok).bind fun block given =>
          (takes_route before selector args).bind fun route => ?_
    exact (takes_follow runs given c.frame kind selector args route).afterward
      fun m => calmly_writeBack _ _ _ m
  | identifier receiver name args =>
    rw [eval]
    rw [Rule.PermitsAt, Expr.stays] at permits
    obtain ⟨receiver_ok, args_ok⟩ := permits.and
    refine (takes_eval runs c block_code receiver receiver_ok).bind fun before =>
      (takes_evalArgs runs c block_code args args_ok).bind fun args => ?_
    exact takes_identify runs c.frame before name args fun after result takes =>
      takes.afterward fun m => calmly_writeBack _ _ _ m
  | callSuper args block =>
    rw [eval]
    rw [Rule.PermitsAt, Expr.stays] at permits
    obtain ⟨args_ok, block_ok⟩ := permits.and
    exact (takes_evalArgs runs c block_code args args_ok).bind fun args =>
      (takes_evalBlock runs c block_code block block_ok).bind fun block given =>
        takes_callSuper runs given c.frame c.receiver args
  | invoke owner name receiver args block =>
    rw [eval]
    rw [Rule.PermitsAt, Expr.stays] at permits
    obtain ⟨operands, block_ok⟩ := permits.and
    obtain ⟨targets, args_ok⟩ := operands.and
    obtain ⟨owner_ok, receiver_ok⟩ := targets.and
    refine (takes_eval runs c block_code owner owner_ok).bind fun v =>
      (takes_moduleOf v).bind fun owner =>
        (takes_eval runs c block_code receiver receiver_ok).bind fun receiver =>
          (takes_evalArgs runs c block_code args args_ok).bind fun args =>
            (takes_evalBlock runs c block_code block block_ok).bind fun block given m => ?_
    refine .of_valid fun valid => .read (takes_ofOption_bind ?_)
    intro method found
    exact takes_invokeAt runs c.frame (valid.findMethod found) receiver args given none m
  | yield args =>
    rw [eval]
    rw [Rule.PermitsAt, Expr.stays] at permits
    intro m
    refine .of_valid fun valid => .read ?_
    split
    next => exact takes_fail _ m
    next block current =>
      have code := valid.currentBlock current
      exact (takes_evalArgs runs c block_code args permits).bind
        (fun args => takes_callBlock runs c.frame code args) m
  | call block args =>
    rw [eval]
    rw [Rule.PermitsAt, Expr.stays] at permits
    obtain ⟨block_ok, args_ok⟩ := permits.and
    refine (takes_evalBlock runs c block_code block block_ok).bind fun block given m =>
      takes_ofOption_bind ?_
    rintro block rfl
    exact (takes_evalArgs runs c block_code args args_ok).bind
      (fun args => takes_callBlock runs c.frame (given block rfl) args) m
  | makeProc arity body =>
    rw [eval]
    rw [Rule.PermitsAt, Expr.stays] at permits
    have code : Payload.Satisfies r.Code (.proc ⟨.code body, c.frame, arity, c.receiver⟩) :=
      (r.code_iff body).2 permits
    exact (quiet_newObject Core.proc.id _ code nofun : Quiet _ c.frame _).takes
  | defineMethod owner name arity capture code visibility =>
    rw [eval]
    rw [Rule.PermitsAt, Expr.stays] at permits
    obtain ⟨owner_ok, code_ok⟩ := permits.and
    refine (takes_eval runs c block_code owner owner_ok).bind fun v =>
      (takes_moduleOf v).bind fun owner => ?_
    have defines : Quiet r.Code c.frame (defineMethod
        { Method.plain name owner arity (body capture code c.frame) with visibility }) :=
      quiet_defineMethod _ (Body.satisfies_code capture c.frame ((r.code_iff code).2 code_ok)) rfl
    exact defines.takes.bind fun _ => takes_pure _
  | defineFromBlock owner name block =>
    rw [eval]
    rw [Rule.PermitsAt, Expr.stays] at permits
    obtain ⟨owner_ok, block_ok⟩ := permits.and
    refine (takes_eval runs c block_code owner owner_ok).bind fun v =>
      (takes_moduleOf v).bind fun owner =>
        (takes_evalBlock runs c block_code block block_ok).bind fun block given m =>
          takes_ofOption_bind ?_
    rintro block rfl
    have defines : Quiet r.Code c.frame (defineMethod (.ofBlock name owner block)) :=
      quiet_defineMethod _ (given block rfl) rfl
    exact (defines.takes.bind fun _ => takes_pure _) m
  | defineSingleton target name arity capture code =>
    rw [eval]
    rw [Rule.PermitsAt, Expr.stays] at permits
    obtain ⟨target_ok, code_ok⟩ := permits.and
    refine (takes_eval runs c block_code target target_ok).bind fun target => ?_
    have defines : Quiet r.Code c.frame (defineSingleton c.frame target name arity
        (body capture code c.frame)) :=
      quiet_defineSingleton c.frame target name arity _
        (Body.satisfies_code capture c.frame ((r.code_iff code).2 code_ok))
    exact defines.takes.bind fun _ => takes_pure _
  | within owner body =>
    rw [eval]
    rw [Rule.PermitsAt, Expr.stays] at permits
    obtain ⟨owner_permits, body_ok⟩ := permits.and
    obtain ⟨is_away, owner_ok⟩ := owner_permits.and
    refine (takes_eval runs c block_code owner owner_ok).bind fun v =>
      (takes_moduleOf v).bind fun owner m => .read (takes_ofOption_bind ?_)
    intro frame at_owner
    refine .read fun valid => ?_
    exact .elsewhere is_away (.inr ⟨owner, at_owner⟩)
      (takes_eval runs ⟨frame, m.moduleObject owner, [], none⟩ .none body body_ok m valid)
  | inFrame kind linked body =>
    rw [eval]
    rw [Rule.PermitsAt, Expr.stays] at permits
    obtain ⟨opens, body_ok⟩ := permits.and
    intro m valid
    exact .scope kind linked opens (takes_eval runs { c with frame := m.frames.next } block_code
      body body_ok _ (valid.called (.of_none rfl rfl) m.current))
  | rescue body handler =>
    rw [eval]
    rw [Rule.PermitsAt, Expr.stays] at permits
    obtain ⟨body_ok, handler_ok⟩ := permits.and
    refine (takes_rescue (takes_eval runs c block_code body body_ok)).bind ?_
    intro rescued
    split
    next v => exact takes_pure v
    next => exact takes_eval runs c block_code handler handler_ok
  | catching tag body =>
    rw [eval]
    rw [Rule.PermitsAt, Expr.stays] at permits
    obtain ⟨tag_ok, body_ok⟩ := permits.and
    exact (takes_eval runs c block_code tag tag_ok).bind fun tag =>
      takes_catching (takes_eval runs c block_code body body_ok)
  | ensure body cleanup =>
    rw [eval]
    rw [Rule.PermitsAt, Expr.stays] at permits
    obtain ⟨body_ok, cleanup_ok⟩ := permits.and
    exact takes_ensure (takes_eval runs c block_code body body_ok)
      ((takes_eval runs c block_code cleanup cleanup_ok).bind fun _ => takes_pure ())
  | stash key body =>
    rw [eval]
    rw [Rule.PermitsAt, Expr.stays] at permits
    exact takes_stash key (takes_eval runs c block_code body permits)
  | runMain body =>
    rw [eval]
    rw [Rule.PermitsAt, Expr.stays] at permits
    obtain ⟨is_away, body_ok⟩ := permits.and
    refine takes_runMain fun m valid => ?_
    exact .elsewhere is_away (.inl rfl)
      (takes_eval runs { c with frame := .main } block_code body body_ok m valid)

theorem takes_evalArgs (runs : RunnerTakes r run) (c : Context)
    (block_code : r.AllowsBlock c.block) (args : Args)
    (permits : Permits r.free (args.stays r.scopes away)) :
    Takes r away c.frame (evalArgs run c args) := by
  cases args with
  | nil =>
    rw [evalArgs]
    exact takes_pure []
  | cons first rest =>
    rw [evalArgs]
    rw [Args.stays] at permits
    obtain ⟨first_ok, rest_ok⟩ := permits.and
    exact (takes_eval runs c block_code first first_ok).bind fun _ =>
      (takes_evalArgs runs c block_code rest rest_ok).bind fun _ => takes_pure _
  | splice start rest =>
    rw [evalArgs]
    rw [Args.stays] at permits
    exact (takes_evalArgs runs c block_code rest permits).bind fun _ => takes_pure _

theorem takes_evalBlock (runs : RunnerTakes r run) (c : Context)
    (block_code : r.AllowsBlock c.block) (block : BlockArg)
    (permits : Permits r.free (block.stays r.scopes away)) :
    TakesBlock r away c.frame (evalBlock run c block) := by
  cases block with
  | none =>
    rw [evalBlock]
    refine ⟨takes_pure _, ?_⟩
    rintro m _ _ - ⟨⟩
    exact .none
  | literal arity body =>
    rw [evalBlock]
    rw [BlockArg.stays] at permits
    refine ⟨takes_pure _, ?_⟩
    rintro m _ _ - ⟨⟩ b ⟨⟩
    exact (r.code_iff body).2 permits
  | passed =>
    rw [evalBlock]
    refine ⟨takes_pure _, ?_⟩
    rintro m _ _ - ⟨⟩
    exact block_code
  | current =>
    rw [evalBlock]
    refine ⟨takes_read _, ?_⟩
    rintro m _ _ valid ⟨⟩ b current
    exact valid.currentBlock current
  | ofProc value =>
    rw [evalBlock]
    rw [BlockArg.stays] at permits
    have values := takes_eval runs c block_code value permits
    refine ⟨values.bind fun v => (takes_read _).bind fun found => ?_, ?_⟩
    · rw [← bind_pure_comp]
      exact (takes_ofOption _).bind fun _ => takes_pure _
    · intro m b m' valid ending
      have later := (values m valid).valid valid
      obtain ⟨v, block, evaluated, found, rfl⟩ := ofProc_eq_ok ending
      rw [evaluated] at later
      rintro _ ⟨⟩
      exact later.block found

end

theorem takes_runEntry (calls : Nat) : RunnerTakes r (runEntry calls) := by
  induction calls with
  | zero => exact fun _ _ _ _ _ _ _ => takes_exit _
  | succ calls ih =>
    intro entry frame receiver args block code block_code
    cases entry with
    | builtin method => exact takes_builtin ih block_code frame receiver args method
    | code body =>
      exact takes_eval ih ⟨frame, receiver, args, block⟩ block_code body ((r.code_iff body).1 code)

theorem takes_program {program : Expr} (permits : r.PermitsAt true program) :
    Takes r true .main (evalMain program) :=
  (takes_read _).bind fun nesting =>
    takes_eval (takes_runEntry nesting) ⟨.main, .object .main, [], none⟩ .none program permits

theorem takes_evalMain {free : Bool} {program : Expr}
    (permits : Permits free (program.isLocal true)) : Takes free true .main (evalMain program) :=
  takes_program (by rw [Rule.PermitsAt, Rule.ofFree, Expr.stays_true]; exact permits)

end Run

/-! ### Sessions -/

theorem Machine.startObjects_modules :
    ∀ o ∈ startObjects, ∀ cls, o.module? = some cls → cls.index < 36 := by
  have small : (startObjects.filterMap Object.module?).all (·.index < 36) = true := by decide
  intro o mem cls is_module
  have at_module := List.all_eq_true.1 small cls (List.mem_filterMap.2 ⟨o, mem, is_module⟩)
  simpa using at_module

def Payload.isBlock : Payload → Bool
  | .proc _ => Bool.true
  | _ => Bool.false

structure Frame.Idle (f : Frame) : Prop where
  caller : f.caller = none
  targets : f.targets = []
  method : f.method = none
  block : f.block = none

theorem Machine.idle_boot {settings : Settings} {id : FrameId} {f : Frame}
    (at_id : (boot settings).frames.get? id = some f) : f.Idle := by
  have all_idle : (startFrame :: Core.all.map Core.bodyFrame).all (fun f =>
      f.caller.isNone && f.targets.isEmpty && f.method.isNone && f.block.isNone) = true := by decide
  change (startFrame :: Core.all.map Core.bodyFrame).toArray[id.index]? = some f at at_id
  rw [List.getElem?_toArray] at at_id
  have idle := List.all_eq_true.1 all_idle f (List.mem_of_getElem? at_id)
  simp only [Bool.and_eq_true, Option.isNone_iff_eq_none, List.isEmpty_iff] at idle
  obtain ⟨⟨⟨caller, targets⟩, method⟩, block⟩ := idle
  exact ⟨caller, targets, method, block⟩

/-- A new machine has built-in methods only, no blocks, and nothing in its frames. -/
theorem Machine.valid_boot {P : Expr → Prop} (settings : Settings) : (boot settings).Valid P := by
  have no_blocks : startObjects.all (fun o => !o.payload.isBlock) = true := by decide
  have at_object {id : ObjectId} {o : Object} (at_id : (boot settings).heap.get? id = some o) :
      o ∈ startObjects := by
    change startObjects.toArray[id.index]? = some o at at_id
    rw [List.getElem?_toArray] at at_id
    exact List.mem_of_getElem? at_id
  refine ⟨?_, ?_, ?_, ?_, ?_, ?_⟩
  · intro id name method own
    obtain ⟨i, -, number, -, -, -, rfl⟩ := ownMethod?_startHierarchy own
    trivial
  · intro id name method own
    change startHierarchy.ownClassMethod? id name = some method at own
    rw [ownClassMethod?_startHierarchy] at own
    cases own
  · intro id name method own
    obtain ⟨o, at_id, own⟩ := Option.bind_eq_some_iff.1 own
    rw [startObjects_bare at_id] at own
    cases own
  · intro id o at_id
    have no_block := List.all_eq_true.1 no_blocks o (at_object at_id)
    cases payload : o.payload with
    | proc block =>
      rw [payload] at no_block
      cases no_block
    | _ => trivial
  · intro id f at_id
    have idle := idle_boot at_id
    exact .of_none idle.method idle.block
  · intro id cls is_module
    have size : (boot settings).hierarchy.size = 36 := Installation.size_install ..
    obtain ⟨o, at_id, is_module⟩ := Option.bind_eq_some_iff.1 is_module
    rw [size]
    exact startObjects_modules o (at_object at_id) cls is_module

theorem Machine.Reachable.valid {m : Machine} (reachable : m.Reachable) :
    m.Valid fun _ => True := by
  obtain ⟨settings, steps⟩ := reachable
  exact steps.valid (valid_boot settings)

theorem Machine.Reachable.steps_runProgram {m : Machine} (reachable : m.Reachable)
    (program : Expr) : Steps m (m.runProgram program).2 := by
  have clear : Steps m m.clearLog :=
    .single (.change (.observe m.globals m.symbols m.missReason m.counters
      { m.desk with log := [] } m.heap.gate))
  have allowed : m.clearLog.Valid (Allowed true) :=
    (reachable.steps clear).valid.of_all fun _ => .of_free _
  exact clear.trans (Run.takes_evalMain (.of_free _) m.clearLog allowed).steps

theorem Machine.Reachable.runProgram {m : Machine} (reachable : m.Reachable) (program : Expr) :
    (m.runProgram program).2.Reachable :=
  reachable.steps (reachable.steps_runProgram program)

end ObjectRuntime
