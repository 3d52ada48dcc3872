import ObjectRuntime.Proofs.Machine.Builtins
import ObjectRuntime.Proofs.Unwind.Handlers

/-!
# Dispatch and built-in methods against the stack

Sends, super calls and the built-in methods that call, each of which agrees with its counterpart if
the runner agrees with its own. The methods and the blocks that they call are disciplined because
all code in the machine is.
-/

set_option autoImplicit false

namespace ObjectRuntime

open Handled (lift)

variable {α : Type} {m : Machine} {env : FrameId} {run : Runner} {ref : Handled.Caller}

theorem refines_fail (env : FrameId) (fault : Fault) :
    Refines env (Run.fail env fault : Run α) (lift (Run.fail env fault)) :=
  refines_quiet (Run.quiet_fail env fault)

theorem refines_invokeAt (runs : CallerRefines run ref) (caller : FrameId) {method : Method}
    (code : method.Satisfies Disciplined) (receiver : Value) (args : List Value)
    {block : Option Block} (block_code : DisciplinedBlock block) (place : Option Nat) :
    Refines caller (Run.invokeAt run caller method receiver args block place)
      (Handled.invokeAt ref caller method receiver args block place) := by
  have enters : ∀ entry kind outer, entry.Satisfies Disciplined →
      Refines caller
        (Run.invokeAt.enter run caller method receiver args block place entry kind outer)
        (Handled.enter ref caller method receiver args block place entry kind outer) := by
    intro entry kind outer entry_code
    unfold Run.invokeAt.enter Handled.enter
    cases method.arity.accepts args.length with
    | true =>
      have frame_code : ({ Frame.fresh kind outer with
          method := some method, block, ancestorIndex := place } : Frame).Satisfies
            Disciplined := by
        refine ⟨?_, block_code⟩
        rintro _ ⟨⟩
        exact code
      exact refines_inNewFrame runs caller _ entry receiver args block rfl frame_code entry_code
        block_code
    | false => exact refines_fail caller _
  unfold Method.Satisfies at code
  unfold Run.invokeAt Handled.invokeAt
  cases body : method.body with
  | undefined => exact fun m => .read (refines_fail caller _ m)
  | native entry =>
    rw [body] at code
    exact fun m => .read (enters entry .method _ code m)
  | closure entry outer =>
    rw [body] at code
    exact enters entry .closureMethod (some outer) code

theorem refines_callBlock (runs : CallerRefines run ref) (caller : FrameId) {block : Block}
    (code : block.Satisfies Disciplined) (args : List Value) :
    Refines caller (Run.callBlock run caller block args)
      (Handled.callBlock ref caller block args) :=
  refines_inNewFrame runs caller _ _ _ _ none rfl (.of_none rfl rfl) code .none

variable {block : Option Block}

theorem refines_methodMissing (runs : CallerRefines run ref) (block_code : DisciplinedBlock block)
    (env : FrameId) (id : ObjectId) (selector : String)
    (args : List Value) (reason : MissReason) :
    Refines env (Run.methodMissing run env id selector args block reason)
      (Handled.methodMissing ref env id selector args block reason) := by
  refine (refines_quiet (Run.quiet_noteMiss reason)).bind fun _ =>
    (refines_quiet (Run.quiet_count .missing)).bind fun _ m => .of_ready fun ready => .read ?_
  cases found : Method.defined? (m.resolve id "method_missing") with
  | none => exact .read (refines_fail env _ m)
  | some handler =>
    have code := ready.valid.resolve (Method.eq_some_of_defined? found)
    exact ((refines_quiet (Run.quiet_symbol selector)).bind fun name =>
      refines_invokeAt runs env code _ _ block_code none) m

theorem refines_sendToObject (runs : CallerRefines run ref) (block_code : DisciplinedBlock block)
    (env : FrameId) (kind : SendKind) (id : ObjectId) (selector : String)
    (args : List Value) :
    Refines env (Run.sendToObject run env kind id selector args block)
      (Handled.sendToObject ref env kind id selector args block) := by
  intro m
  refine .of_ready fun ready => .read ?_
  cases found : Method.defined? (m.resolve id selector) with
  | none => exact refines_methodMissing runs block_code env id selector args .notFound m
  | some method =>
    have code := ready.valid.resolve (Method.eq_some_of_defined? found)
    dsimp only
    cases Run.refusal? kind method with
    | some reason => exact refines_methodMissing runs block_code env id selector args reason m
    | none => exact refines_invokeAt runs env code _ args block_code none m

theorem refines_follow (runs : CallerRefines run ref) (block_code : DisciplinedBlock block)
    (env : FrameId) (kind : SendKind) (selector : String) (args : List Value) (route : Run.Route) :
    Refines env (Run.follow run env kind selector args block route)
      (Handled.follow ref env kind selector args block route) := by
  cases route with
  | direct op receiver argument =>
    exact refines_quiet (Run.quiet_applyOperator env op receiver argument)
  | general id => exact refines_sendToObject runs block_code env kind id selector args

theorem refines_send (runs : CallerRefines run ref) (block_code : DisciplinedBlock block)
    (env : FrameId) (kind : SendKind) (receiver : Value) (selector : String) (args : List Value) :
    Refines env (Run.send run env kind receiver selector args block)
      (Handled.send ref env kind receiver selector args block) :=
  (refines_quiet (Run.quiet_route receiver selector args)).bind fun route =>
    refines_follow runs block_code env kind selector args route

theorem refines_identify (runs : CallerRefines run ref) (env : FrameId) (receiver : Value)
    (name : String) (args : List Value) {f : Value × Run Value → Run Value}
    {g : Value × Handled Value → Handled Value}
    (rest : ∀ after result result', Refines env result result' →
      Refines env (f (after, result)) (g (after, result'))) :
    Refines env (Run.identify run env receiver name args >>= f)
      (Handled.identify ref env receiver name args >>= g) := by
  unfold Run.identify Handled.identify
  rw [LawfulMonad.bind_assoc, Handled.bind_assoc]
  intro m
  refine .read ?_
  have sent : RefinesAt m env
      ((do
        let route ← Run.route receiver name args
        return (route.receiver, Run.follow run env .anyMethod name args none route)) >>= f)
      ((do
        let route ← lift (Run.route receiver name args)
        return (route.receiver, Handled.follow ref env .anyMethod name args none route)) >>=
          g) := by
    rw [LawfulMonad.bind_assoc, Handled.bind_assoc]
    exact (refines_quiet (Run.quiet_route receiver name args)).bind (fun route =>
      rest _ _ _ (refines_follow runs .none env .anyMethod name args route)) m
  cases args with
  | cons first others => exact sent
  | nil =>
    cases m.frames.lookup env name with
    | none => exact sent
    | some value => exact rest receiver _ _ (refines_pure value) m

theorem refines_callSuper (runs : CallerRefines run ref) (block_code : DisciplinedBlock block)
    (env : FrameId) (receiver : Value) (args : List Value) :
    Refines env (Run.callSuper run env receiver args block)
      (Handled.callSuper ref env receiver args block) := by
  intro m
  refine .read ?_
  cases ((m.frames.methodFrame? env).bind m.frames.get?).bind fun f =>
      f.method.map fun method => (f, method) with
  | none => exact refines_fail env _ m
  | some running =>
    obtain ⟨f, current⟩ := running
    refine (refines_quiet (Run.quiet_hydrate receiver) m).bind fun id m' _ ready => .read ?_
    cases next : Run.nextDefinition m' id current f.ancestorIndex with
    | none => exact .read (refines_fail env _ m')
    | some entry =>
      obtain ⟨place, method⟩ := entry
      have code : method.Satisfies Disciplined := ready.valid.nextDefinition next
      cases block with
      | some block => exact refines_invokeAt runs env code _ args block_code place m'
      | none =>
        refine .read ?_
        have passed : DisciplinedBlock (m'.frames.currentBlock? env) :=
          fun _ current => ready.valid.currentBlock current
        exact refines_invokeAt runs env code _ args passed place m'

/-! ### Built-in methods -/

theorem refines_sendByName (runs : CallerRefines run ref) (block_code : DisciplinedBlock block)
    (kind : SendKind) (env : FrameId) (receiver : Value) (args : List Value) :
    Refines env (Run.sendByName run kind env receiver args block)
      (Handled.sendByName ref kind env receiver args block) := by
  cases args with
  | nil => exact refines_fail env _
  | cons selector rest =>
    exact (refines_quiet (Run.quiet_selectorArg env selector)).bind fun name =>
      refines_send runs block_code env kind receiver name rest

theorem refines_raiseByArgs (runs : CallerRefines run ref) (env : FrameId) (args : List Value) :
    Refines env (Run.raiseByArgs run env args) (Handled.raiseByArgs ref env args) := by
  cases args with
  | nil => exact refines_fail env _
  | cons first rest =>
    intro m
    refine .read ?_
    cases m.text? first with
    | some message => exact refines_fail env _ m
    | none =>
      refine .read ?_
      cases ((m.module? first).map fun id =>
          m.hierarchy.inherits id Core.exception.id).getD false with
      | true =>
        exact ((refines_send runs .none env .anyMethod first "new" rest).bind fun exception =>
          refines_quiet (Run.quiet_raise env exception)) m
      | false =>
        refine refinesAt_quiet ?_
        cases rest with
        | nil => exact Run.quiet_raise env first m
        | cons message others =>
          refine .read ?_
          cases m.isException first with
          | false => exact Run.quiet_raise env first m
          | true =>
            refine .read ?_
            exact (Run.quiet_setMessage first _).bind (fun _ => Run.quiet_raise env first) m

theorem refines_catchByArgs (runs : CallerRefines run ref) (block_code : DisciplinedBlock block)
    (env : FrameId) (args : List Value) :
    Refines env (Run.catchByArgs run env args block) (Handled.catchByArgs ref env args block) := by
  cases block with
  | none => exact refines_fail env _
  | some block =>
    have catches : ∀ tag, Refines env (Run.catching env tag (Run.callBlock run env block [tag]))
        (Handled.catching env tag (Handled.callBlock ref env block [tag])) :=
      fun tag => refines_catching tag (refines_callBlock runs env (block_code block rfl) [tag])
    cases args with
    | nil =>
      have made : Run.Quiet Disciplined env (Run.newObject Core.object.id .plain) :=
        Run.quiet_newObject Core.object.id .plain trivial nofun
      exact (refines_quiet made).bind catches
    | cons tag rest => exact catches tag

theorem refines_throwByArgs (env : FrameId) (args : List Value) :
    Refines env (Run.throwByArgs env args) (Handled.throwByArgs env args) := by
  cases args with
  | nil => exact refines_fail env _
  | cons tag rest => exact refines_throw tag _

theorem refines_instantiate (runs : CallerRefines run ref) (block_code : DisciplinedBlock block)
    (env : FrameId) (receiver : Value) (args : List Value) :
    Refines env (Run.instantiate run env receiver args block)
      (Handled.instantiate ref env receiver args block) :=
  (refines_send runs .none env .anyMethod receiver "allocate" []).bind fun object =>
    (refines_quiet (Run.quiet_route object "initialize" args)).bind fun route =>
      (refines_follow runs block_code env .anyMethod "initialize" args route).bind fun _ =>
        refines_pure _

theorem refines_builtin (runs : CallerRefines run ref) (block_code : DisciplinedBlock block)
    (env : FrameId) (receiver : Value) (args : List Value) (method : Builtin) :
    Refines env (method.perform run env receiver args block)
      (Handled.builtin ref env receiver args block method) := by
  have silent : method.calls = false → Refines env (method.perform run env receiver args block)
      (lift (method.perform run env receiver args block)) :=
    fun calls => refines_quiet (Run.quiet_builtin run env receiver args block_code method calls)
  cases method with
  | send => exact refines_sendByName runs block_code .anyMethod env receiver args
  | publicSend => exact refines_sendByName runs block_code .publicOnly env receiver args
  | raise => exact refines_raiseByArgs runs env args
  | catching => exact refines_catchByArgs runs block_code env args
  | throw => exact refines_throwByArgs env args
  | new => exact refines_instantiate runs block_code env receiver args
  | _ => exact silent rfl

end ObjectRuntime
