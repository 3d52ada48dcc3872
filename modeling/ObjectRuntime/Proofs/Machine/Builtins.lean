import ObjectRuntime.Proofs.Machine.Opening
import ObjectRuntime.Builtins

/-!
# Built-in methods that call nothing are quiet

Five built-in methods run other code: the two sends, `raise`, `catch` and `new`. All others are
quiet, and aim their faults from the frame of their own call.
-/

set_option autoImplicit false

namespace ObjectRuntime

def Builtin.calls : Builtin → Bool
  | .send | .publicSend | .raise | .catching | .new => true
  | _ => false

namespace Run

variable {P : Expr → Prop} {env : FrameId} {m : Machine}

theorem quiet_route (receiver : Value) (selector : String) (args : List Value) :
    Quiet P env (route receiver selector args) := by
  refine (quiet_count .send).bind fun _ m => .read ?_
  split
  next => exact (quiet_count .direct).bind (fun _ => quiet_pure _) m
  next =>
    split
    next => exact (quiet_count .hydration).bind (fun _ => (quiet_hydrate receiver).bind fun _ =>
      quiet_pure _) m
    next => exact (quiet_hydrate receiver).bind (fun _ => quiet_pure _) m

theorem quiet_applyOperator (env : FrameId) (op : Operator) (left right : Value) :
    Quiet P env (applyOperator env op left right) :=
  fun m => .read (quiet_orFail env _ m)

theorem quiet_selectorArg (env : FrameId) (v : Value) : Quiet P env (selectorArg env v) :=
  fun m => .read (quiet_orFail env _ m)

theorem quiet_moduleArg (env : FrameId) (v : Value) : Quiet P env (moduleArg env v) := by
  intro m
  refine .read ?_
  split
  next id _ => exact quiet_pure id m
  next => exact .read (quiet_fail env _ m)

theorem moduleArg_of_none {v : Value} (other : m.module? v = none) (env : FrameId) :
    moduleArg env v m = fail env (.receiverNotAModule (m.inspect v)) m := by
  unfold moduleArg
  rw [run_bind, run_read]
  simp only [other]
  rfl

theorem moduleArg_of_some {v : Value} {id : ModuleId} (is_module : m.module? v = some id)
    (env : FrameId) : moduleArg env v m = (.ok id, m) := by
  unfold moduleArg
  rw [run_bind, run_read]
  simp only [is_module]
  rfl

theorem QuietAt.moduleArg {α : Type} {v : Value} {f : ModuleId → Run α}
    (rest : ∀ id, m.module? v = some id → QuietAt P env m (f id)) :
    QuietAt P env m (Run.moduleArg env v >>= f) := by
  refine (quiet_moduleArg env v m).bind ?_
  intro id' m' ending
  cases is_module : m.module? v with
  | none =>
    rw [moduleArg_of_none is_module] at ending
    cases ending
  | some id =>
    rw [moduleArg_of_some is_module] at ending
    obtain ⟨rfl, rfl⟩ : id = id' ∧ m = m' := by simpa using ending
    exact rest id is_module

theorem quiet_exceptionArg (env : FrameId) (v : Value) : Quiet P env (exceptionArg env v) := by
  intro m
  refine .read ?_
  split
  next data _ => exact quiet_pure data m
  next => exact quiet_fail env _ m

theorem quiet_setMessage (v : Value) (message : String) : Quiet P env (setMessage v message) := by
  unfold setMessage
  split
  next id _ => exact quiet_modifyObject id _ fun o => o.mapException_alike _
  next => exact quiet_pure ()

theorem quiet_respondTo (env : FrameId) (receiver : Value) (args : List Value) :
    Quiet P env (respondTo env receiver args) := by
  cases args with
  | nil => exact quiet_fail env _
  | cons selector rest =>
    exact (quiet_selectorArg env selector).bind fun _ => (quiet_read _).bind fun _ =>
      (quiet_read _).bind fun _ => quiet_pure _

theorem quiet_isA (env : FrameId) (receiver : Value) (args : List Value) :
    Quiet P env (isA env receiver args) := by
  intro m
  refine .read ?_
  split
  next id _ => exact (quiet_read _).bind (fun _ => quiet_pure _) m
  next => exact quiet_fail env _ m

theorem quiet_throwByArgs (env : FrameId) (args : List Value) :
    Quiet P env (throwByArgs env args) := by
  cases args with
  | nil => exact quiet_fail env _
  | cons tag rest => exact quiet_throw env tag _

theorem quiet_includeByArgs (env : FrameId) (receiver : Value) (args : List Value) :
    Quiet P env (includeByArgs env receiver args) := by
  refine (quiet_moduleArg env receiver).bind ?_
  intro target
  refine (quiet_forEach ?_ args.reverse).bind fun _ => quiet_pure _
  intro arg m
  refine .moduleArg ?_
  intro id is_module
  exact .of_valid fun valid => quiet_includeModule env target (valid.module is_module)

theorem quiet_forSelectors (env : FrameId) (receiver : Value) (args : List Value)
    {act : ModuleId → String → Run Unit} (each : ∀ owner name, Quiet P env (act owner name)) :
    Quiet P env (forSelectors env receiver args act) := by
  refine (quiet_moduleArg env receiver).bind ?_
  intro owner
  refine quiet_forEach ?_ args
  intro arg
  exact (quiet_selectorArg env arg).bind fun name => each owner name

theorem quiet_methodDefined (env : FrameId) (receiver : Value) (args : List Value) :
    Quiet P env (methodDefined env receiver args) := by
  refine (quiet_moduleArg env receiver).bind ?_
  intro owner
  split
  next => exact quiet_fail env _
  next selector rest =>
    exact (quiet_selectorArg env selector).bind fun _ => (quiet_read _).bind fun _ => quiet_pure _

theorem quiet_defineByBlock (env : FrameId) (receiver : Value) (args : List Value)
    {block : Option Block} (code : ∀ b, block = some b → b.Satisfies P) :
    Quiet P env (defineByBlock env receiver args block) := by
  refine (quiet_moduleArg env receiver).bind ?_
  intro owner
  split
  next => exact quiet_fail env _
  next selector rest =>
    refine (quiet_selectorArg env selector).bind ?_
    intro name
    cases block with
    | none => exact quiet_fail env _
    | some block =>
      have of_block : (Method.ofBlock name owner block).Satisfies P := code block rfl
      exact (quiet_defineMethod _ of_block rfl).bind fun _ => quiet_symbol name

theorem quiet_allocateObject (env : FrameId) (receiver : Value) :
    Quiet P env (allocateObject env receiver) := by
  refine (quiet_moduleArg env receiver).bind ?_
  intro cls m
  refine .read (.read ?_)
  split
  next => exact quiet_fail env _ m
  next =>
    split
    next => exact (quiet_newException cls _).bind (fun _ => quiet_pure _) m
    next =>
      split
      next => exact quiet_newObject cls (.text "") trivial nofun m
      next => exact quiet_newObject cls .plain trivial nofun m

theorem quiet_setUpException (env : FrameId) (receiver : Value) (args : List Value) :
    Quiet P env (setUpException env receiver args) := by
  refine (quiet_exceptionArg env receiver).bind ?_
  intro _
  split
  next message _ =>
    refine (quiet_read _).bind ?_
    intro is_nil
    split
    next => exact (quiet_read _).bind fun text => (quiet_setMessage receiver text).bind fun _ =>
      quiet_pure _
    next => exact quiet_pure _
  next => exact quiet_pure _

theorem quiet_runOperator (env : FrameId) (op : Operator) (receiver : Value) (args : List Value) :
    Quiet P env (runOperator env op receiver args) := by
  unfold runOperator
  split
  next argument => exact quiet_applyOperator env op receiver argument
  next => exact quiet_fail env _

theorem quiet_builtin (run : Runner) (env : FrameId) (receiver : Value) (args : List Value)
    {block : Option Block} (code : ∀ b, block = some b → b.Satisfies P) (method : Builtin)
    (silent : method.calls = false) :
    Quiet P env (method.perform run env receiver args block) := by
  cases method with
  | accept => exact quiet_pure _
  | same => exact quiet_pure _
  | negate => exact (quiet_read _).bind fun _ => quiet_pure _
  | send => cases silent
  | publicSend => cases silent
  | classOf => exact quiet_read _
  | respondTo => exact quiet_respondTo env receiver args
  | objectId => exact (quiet_identityOf receiver).bind fun _ => quiet_pure _
  | isA => exact quiet_isA env receiver args
  | inspect => exact (quiet_read _).bind fun text => quiet_newText text
  | ivarGet =>
    cases args with
    | nil => exact quiet_fail env _
    | cons selector _ =>
      exact (quiet_selectorArg env selector).bind fun name => quiet_ivarGet env receiver name
  | ivarSet =>
    match args with
    | [selector, value] =>
      exact (quiet_selectorArg env selector).bind fun name => quiet_ivarSet env receiver name value
    | [] => exact quiet_fail env _
    | [_] => exact quiet_fail env _
    | _ :: _ :: _ :: _ => exact quiet_fail env _
  | raise => cases silent
  | catching => cases silent
  | throw => exact quiet_throwByArgs env args
  | moduleName =>
    refine (quiet_moduleArg env receiver).bind ?_
    intro id
    refine (quiet_read _).bind ?_
    intro name
    split
    next name => exact quiet_newText name
    next => exact quiet_pure _
  | includeModule => exact quiet_includeByArgs env receiver args
  | methodDefined => exact quiet_methodDefined env receiver args
  | defineMethod => exact quiet_defineByBlock env receiver args code
  | undefMethod =>
    exact (quiet_forSelectors env receiver args (quiet_undefMethod env)).bind fun _ => quiet_pure _
  | removeMethod =>
    exact (quiet_forSelectors env receiver args (quiet_removeMethod env)).bind fun _ => quiet_pure _
  | setVisibility visibility =>
    exact (quiet_forSelectors env receiver args fun owner name =>
      quiet_setVisibility env owner name visibility).bind fun _ => quiet_pure _
  | new => cases silent
  | allocate => exact quiet_allocateObject env receiver
  | superclass =>
    refine (quiet_moduleArg env receiver).bind ?_
    intro id
    refine (quiet_read _).bind ?_
    intro parent
    split
    next parent => exact quiet_read _
    next => exact quiet_pure _
  | operator op => exact quiet_runOperator env op receiver args
  | exceptionSetup => exact quiet_setUpException env receiver args
  | exceptionMessage => exact (quiet_exceptionArg env receiver).bind fun data => quiet_newText _
  | exceptionBacktrace =>
    refine (quiet_exceptionArg env receiver).bind ?_
    intro data
    split
    next => exact quiet_pure _
    next => exact quiet_newText _

end Run

end ObjectRuntime
