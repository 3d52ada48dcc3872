import ObjectRuntime.Proofs.Machine.Performing

/-!
# Calls and built-in methods are deeds

Every call, send and built-in method performs deeds if the runner does that runs what is called. The
code comes from the machine or from the block that is handed on, both of which are in order.
-/

set_option autoImplicit false

namespace ObjectRuntime

abbrev CodedBlock (free : Bool) (block : Option Block) : Prop := ∀ b, block = some b → b.Coded free

theorem CodedBlock.none {free : Bool} : CodedBlock free none := nofun

variable {free : Bool} {m : Machine}

theorem Machine.Coded.currentBlock (coded : m.Coded free) (env : FrameId) :
    CodedBlock free (m.frames.currentBlock? env) := by
  intro b current
  obtain ⟨id, f, at_id, passed⟩ := Frames.currentBlock?_eq_some current
  exact (coded.frame at_id).block b passed

theorem Machine.Coded.block (coded : m.Coded free) {v : Value} {b : Block}
    (is_proc : m.block? v = some b) : b.Coded free := by
  obtain ⟨id, o, at_object, is_block⟩ := Machine.block?_eq_some is_proc
  exact ⟨coded.valid.block is_proc, coded.procs id o b at_object is_block⟩

theorem Machine.apply_error {op : Operator} {left right : Value} {fault : Fault}
    (failed : m.apply op left right = .error fault) :
    m.num? left = none ∧ fault = .notANumber (m.inspect left) ∨
      fault = .zeroDivision ∨ fault = .integerOverflow ∨
      (∃ a b, fault = .incomparable a b) ∨ ∃ a b, fault = .notCoercible a b := by
  have on_other {x : Num} {shown : String} (failed : op.onOther x shown = .error fault) :
      (∃ a b, fault = .incomparable a b) ∨ ∃ a b, fault = .notCoercible a b := by
    cases op <;> cases failed <;> first | exact .inl ⟨_, _, rfl⟩ | exact .inr ⟨_, _, rfl⟩
  have exactly {result : Option Int64} (failed : Operator.exactly result = .error fault) :
      fault = .integerOverflow := by
    cases result <;> cases failed
    rfl
  have on_ints {a b : Int64} (failed : op.onInts a b = .error fault) :
      fault = .zeroDivision ∨ fault = .integerOverflow := by
    unfold Operator.onInts at failed
    split at failed
    case h_1 | h_2 | h_3 => exact .inr (exactly failed)
    case h_4 =>
      split at failed
      next =>
        cases failed
        exact .inl rfl
      next => exact .inr (exactly failed)
    case h_5 =>
      split at failed <;> cases failed
      exact .inl rfl
    all_goals cases failed
  unfold Machine.apply at failed
  split at failed
  next no_number =>
    cases failed
    exact .inl ⟨no_number, rfl⟩
  next => exact .inr (.inr (.inr (on_other failed)))
  next => exact .inr ((on_ints failed).imp_right .inl)
  next => cases failed

theorem Machine.apply_isOrdinary {op : Operator} {left right : Value} {fault : Fault}
    (failed : m.apply op left right = .error fault) : fault.isOrdinary = true := by
  obtain ⟨-, rfl⟩ | rfl | rfl | ⟨_, _, rfl⟩ | ⟨_, _, rfl⟩ := m.apply_error failed <;> rfl

theorem Block.Coded.permits_ofBlock {b : Block} (coded : b.Coded free) {name : String}
    {owner : ModuleId} : Permits free (Method.ofBlock name owner b).body.builtin?.isNone := by
  have written : (Method.ofBlock name owner b).body.builtin? = none := coded.written
  rw [written]
  exact .inr rfl

namespace Run

def RunnerPerforms (free : Bool) (run : Runner) : Prop :=
  ∀ entry frame receiver args block, entry.Satisfies (Ordinary free) → CodedBlock free block →
    Performs free (run entry frame receiver args block)

variable {α : Type} {run : Runner} {block : Option Block}

/-! ### Calls -/

theorem performs_enterCall (caller : FrameId) : Performs free (enterCall caller) := by
  intro m
  refine .read ?_
  split
  next =>
    exact fun coded => .single (.call m.frames m.current (m.depth + 1) m.tokens
      fun _ _ => coded.frame)
  next => exact performs_fail caller (.inr rfl) m

theorem performs_inNewFrame (runs : RunnerPerforms free run) (env : FrameId) {frame : Frame}
    {entry : Entry} (receiver : Value) (args : List Value) (frame_coded : frame.Coded free)
    (entry_code : entry.Satisfies (Ordinary free)) (block_coded : CodedBlock free block) :
    Performs free (inNewFrame run env frame entry receiver args block) := by
  refine (performs_enterCall env).bind fun _ => (performs_read _).bind fun position => ?_
  refine Performs.bind (performs_newFrame ⟨frame_coded.method, frame_coded.block⟩) fun id => ?_
  have enters : Performs free (enterFrame id) :=
    performs_update fun m coded => .single (.call m.frames (some id) m.depth m.tokens
      fun _ _ => coded.frame)
  refine enters.bind fun previous => ?_
  refine (runs entry id receiver args block entry_code block_coded).afterward fun m coded => ?_
  exact .single (.call _ previous (m.depth - 1) m.tokens
    fun _ _ => coded.editFrame id (fun f => { f with caller := none, receiver := none })
      (fun _ => rfl) fun _ => rfl)

theorem performs_invokeAt (runs : RunnerPerforms free run) (env : FrameId) {method : Method}
    (code : method.Satisfies (Ordinary free)) (receiver : Value) (args : List Value)
    (block_coded : CodedBlock free block) (place : Option Nat) :
    Performs free (invokeAt run env method receiver args block place) := by
  have enters : ∀ entry kind outer, entry.Satisfies (Ordinary free) →
      Performs free
        (invokeAt.enter run env method receiver args block place entry kind outer) := by
    intro entry kind outer entry_code
    unfold invokeAt.enter
    split
    next =>
      refine performs_inNewFrame runs env receiver args ⟨?_, block_coded⟩ entry_code block_coded
      rintro _ ⟨⟩
      exact code
    next => exact performs_fail _ (.inr rfl)
  unfold Method.Satisfies at code
  unfold invokeAt
  split
  next => exact (performs_read _).bind fun _ => performs_fail _ (.inr rfl)
  next entry body =>
    rw [body] at code
    exact (performs_read _).bind fun outer => enters entry .method outer code
  next entry outer body =>
    rw [body] at code
    exact enters entry .closureMethod (some outer) code

theorem performs_callBlock (runs : RunnerPerforms free run) (env : FrameId) {block : Block}
    (coded : block.Coded free) (args : List Value) :
    Performs free (callBlock run env block args) :=
  performs_inNewFrame runs env _ args (.of_none rfl rfl) coded.code .none

/-! ### Dispatch -/

theorem performs_route (receiver : Value) (selector : String) (args : List Value) :
    Performs free (route receiver selector args) := by
  refine (performs_count .send).bind fun _ => (performs_read _).bind fun direct => ?_
  split
  next => exact (performs_count .direct).bind fun _ => performs_pure _
  next =>
    split
    next =>
      exact (performs_count .hydration).bind fun _ => (performs_hydrate receiver).bind fun _ =>
        performs_pure _
    next => exact (performs_hydrate receiver).bind fun _ => performs_pure _

theorem performs_applyOperator (env : FrameId) (op : Operator) (left right : Value) :
    Performs free (applyOperator env op left right) :=
  fun m => .read (performs_orFail env (fun _ => m.apply_isOrdinary) m)

theorem performs_methodMissing (runs : RunnerPerforms free run)
    (block_coded : CodedBlock free block) (env : FrameId) (id : ObjectId) (selector : String)
    (args : List Value) (reason : MissReason) :
    Performs free (methodMissing run env id selector args block reason) := by
  refine (performs_noteMiss reason).bind fun _ => (performs_count .missing).bind fun _ m => ?_
  refine .of_coded fun coded => .read ?_
  split
  next handler found =>
    have code := coded.valid.resolve (Method.eq_some_of_defined? found)
    exact (performs_symbol selector).bind
      (fun _ => performs_invokeAt runs env code _ _ block_coded none) m
  next => exact .read (performs_fail _ (.inr rfl) m)

theorem performs_sendToObject (runs : RunnerPerforms free run)
    (block_coded : CodedBlock free block) (env : FrameId) (kind : SendKind) (id : ObjectId)
    (selector : String) (args : List Value) :
    Performs free (sendToObject run env kind id selector args block) := by
  intro m
  refine .of_coded fun coded => .read ?_
  split
  next => exact performs_methodMissing runs block_coded env id selector args .notFound m
  next method found =>
    have code := coded.valid.resolve (Method.eq_some_of_defined? found)
    split
    next reason _ => exact performs_methodMissing runs block_coded env id selector args reason m
    next => exact performs_invokeAt runs env code _ args block_coded none m

theorem performs_follow (runs : RunnerPerforms free run) (block_coded : CodedBlock free block)
    (env : FrameId) (kind : SendKind) (selector : String) (args : List Value) (route : Route) :
    Performs free (follow run env kind selector args block route) := by
  cases route with
  | direct op receiver argument => exact performs_applyOperator env op receiver argument
  | general id => exact performs_sendToObject runs block_coded env kind id selector args

theorem performs_send (runs : RunnerPerforms free run) (block_coded : CodedBlock free block)
    (env : FrameId) (kind : SendKind) (receiver : Value) (selector : String) (args : List Value) :
    Performs free (send run env kind receiver selector args block) :=
  (performs_route receiver selector args).bind fun route =>
    performs_follow runs block_coded env kind selector args route

theorem performs_identify (runs : RunnerPerforms free run) (env : FrameId) (receiver : Value)
    (name : String) (args : List Value) {f : Value × Run Value → Run Value}
    (rest : ∀ after result, Performs free result → Performs free (f (after, result))) :
    Performs free (identify run env receiver name args >>= f) := by
  unfold identify
  rw [LawfulMonad.bind_assoc]
  refine (performs_read _).bind ?_
  intro bound
  split
  next value => exact rest receiver _ (performs_pure value)
  next =>
    rw [LawfulMonad.bind_assoc]
    exact (performs_route receiver name args).bind fun route =>
      rest _ _ (performs_follow runs .none env .anyMethod name args route)

theorem performs_callSuper (runs : RunnerPerforms free run) (block_coded : CodedBlock free block)
    (env : FrameId) (receiver : Value) (args : List Value) :
    Performs free (callSuper run env receiver args block) := by
  refine (performs_read _).bind ?_
  intro frame
  split
  next => exact performs_fail _ (.inr rfl)
  next f current _ =>
    refine (performs_hydrate receiver).bind fun id m => .of_coded fun coded => .read ?_
    split
    next place method next =>
      have code := coded.valid.nextDefinition next
      split
      next block => exact performs_invokeAt runs env code _ args block_coded place m
      next => exact .read (performs_invokeAt runs env code _ args (coded.currentBlock env) place m)
    next => exact .read (performs_fail _ (.inr rfl) m)

/-! ### Built-in methods -/

theorem performs_selectorArg (env : FrameId) (v : Value) : Performs free (selectorArg env v) := by
  refine fun m => .read (performs_orFail env ?_ m)
  intro fault failed
  unfold selectorOf at failed
  split at failed
  next => cases failed
  next =>
    split at failed
    next => cases failed
    next =>
      cases failed
      rfl

theorem PerformsAt.moduleArg {env : FrameId} {v : Value} {f : ModuleId → Run α}
    (rest : ∀ id, m.module? v = some id → PerformsAt free m (f id)) :
    PerformsAt free m (Run.moduleArg env v >>= f) := by
  unfold Run.moduleArg
  rw [LawfulMonad.bind_assoc]
  refine .read ?_
  cases is_module : m.module? v with
  | some id => exact rest id is_module
  | none =>
    dsimp only
    rw [LawfulMonad.bind_assoc]
    exact .read ((performs_fail env (.inr rfl) m).bind fun _ _ ending => by cases ending)

theorem performs_moduleArg_bind (env : FrameId) (v : Value) {f : ModuleId → Run α}
    (rest : ∀ id, Performs free (f id)) : Performs free (Run.moduleArg env v >>= f) :=
  fun m => .moduleArg fun id _ => rest id m

theorem performs_exceptionArg (env : FrameId) (v : Value) :
    Performs free (exceptionArg env v) := by
  intro m
  refine .read ?_
  split
  next data _ => exact performs_pure data m
  next => exact performs_fail env (.inr rfl) m

theorem performs_setMessage (v : Value) (message : String) :
    Performs free (setMessage v message) := by
  unfold setMessage
  split
  next id _ => exact fun _ _ => .single (.message id message)
  next => exact performs_pure ()

theorem performs_sendByName (runs : RunnerPerforms free run) (block_coded : CodedBlock free block)
    (kind : SendKind) (env : FrameId) (receiver : Value) (args : List Value) :
    Performs free (sendByName run kind env receiver args block) := by
  cases args with
  | nil => exact performs_fail _ (.inr rfl)
  | cons selector rest =>
    exact (performs_selectorArg env selector).bind fun name =>
      performs_send runs block_coded env kind receiver name rest

theorem performs_respondTo (env : FrameId) (receiver : Value) (args : List Value) :
    Performs free (respondTo env receiver args) := by
  cases args with
  | nil => exact performs_fail env (.inr rfl)
  | cons selector rest =>
    exact (performs_selectorArg env selector).bind fun _ => (performs_read _).bind fun _ =>
      (performs_read _).bind fun _ => performs_pure _

theorem performs_isA (env : FrameId) (receiver : Value) (args : List Value) :
    Performs free (isA env receiver args) := by
  refine (performs_read _).bind fun cls => ?_
  split
  next id => exact (performs_read _).bind fun _ => performs_pure _
  next => exact performs_fail env (.inr rfl)

theorem performs_raiseByArgs (runs : RunnerPerforms free run) (env : FrameId)
    (args : List Value) : Performs free (raiseByArgs run env args) := by
  cases args with
  | nil => exact performs_fail _ (.inr rfl)
  | cons first rest =>
    refine (performs_read _).bind fun text => ?_
    split
    next message => exact performs_fail _ (.inr rfl)
    next =>
      refine (performs_read _).bind fun isClass => ?_
      split
      next =>
        exact (performs_send runs .none env .anyMethod first "new" rest).bind fun exception =>
          performs_raise env exception
      next =>
        split
        next message _ =>
          refine (performs_read _).bind fun isException => ?_
          split
          next =>
            exact (performs_read _).bind fun text => (performs_setMessage first text).bind
              fun _ => performs_raise env first
          next => exact performs_raise env first
        next => exact performs_raise env first

theorem performs_catchByArgs (runs : RunnerPerforms free run)
    (block_coded : CodedBlock free block) (env : FrameId) (args : List Value) :
    Performs free (catchByArgs run env args block) := by
  cases block with
  | none => exact performs_fail _ (.inr rfl)
  | some block =>
    have catches : ∀ tag, Performs free (catching env tag (callBlock run env block [tag])) :=
      fun tag => performs_catching (performs_callBlock runs env (block_coded block rfl) [tag])
    cases args with
    | nil =>
      have made : Performs free (newObject Core.object.id .plain) := fun _ => .newObject .tag
      exact made.bind catches
    | cons tag rest => exact catches tag

theorem performs_throwByArgs (env : FrameId) (args : List Value) :
    Performs free (throwByArgs env args) := by
  cases args with
  | nil => exact performs_fail env (.inr rfl)
  | cons tag rest => exact performs_throw env tag _

theorem performs_includeByArgs (env : FrameId) (receiver : Value) (args : List Value) :
    Performs free (includeByArgs env receiver args) := by
  refine performs_moduleArg_bind env receiver fun target => ?_
  refine (performs_forEach ?_ args.reverse).bind fun _ => performs_pure _
  intro arg m
  refine .moduleArg fun id is_module => ?_
  exact .of_coded fun coded => performs_includeModule env target (coded.valid.module is_module)

theorem performs_forSelectors (env : FrameId) (receiver : Value) (args : List Value)
    {act : ModuleId → String → Run Unit} (each : ∀ owner name, Performs free (act owner name)) :
    Performs free (forSelectors env receiver args act) := by
  refine performs_moduleArg_bind env receiver fun owner => performs_forEach ?_ args
  exact fun arg => (performs_selectorArg env arg).bind fun name => each owner name

theorem performs_methodDefined (env : FrameId) (receiver : Value) (args : List Value) :
    Performs free (methodDefined env receiver args) := by
  refine performs_moduleArg_bind env receiver fun owner => ?_
  split
  next => exact performs_fail env (.inr rfl)
  next selector rest =>
    exact (performs_selectorArg env selector).bind fun _ => (performs_read _).bind fun _ =>
      performs_pure _

theorem performs_defineByBlock (env : FrameId) (receiver : Value) (args : List Value)
    (block_coded : CodedBlock free block) :
    Performs free (defineByBlock env receiver args block) := by
  refine performs_moduleArg_bind env receiver fun owner => ?_
  split
  next => exact performs_fail env (.inr rfl)
  next selector rest =>
    refine (performs_selectorArg env selector).bind fun name => ?_
    cases block with
    | none => exact performs_fail env (.inr rfl)
    | some block =>
      have coded := block_coded block rfl
      exact (performs_defineMethod (.ofBlock name owner block) coded.code coded.permits_ofBlock
        rfl).bind fun _ => performs_symbol name

theorem performs_instantiate (runs : RunnerPerforms free run)
    (block_coded : CodedBlock free block) (env : FrameId) (receiver : Value) (args : List Value) :
    Performs free (instantiate run env receiver args block) :=
  (performs_send runs .none env .anyMethod receiver "allocate" []).bind fun object =>
    (performs_route object "initialize" args).bind fun route =>
      (performs_follow runs block_coded env .anyMethod "initialize" args route).bind fun _ =>
        performs_pure _

theorem performs_allocateObject (env : FrameId) (receiver : Value) :
    Performs free (allocateObject env receiver) := by
  intro m
  refine .moduleArg fun cls is_module => .of_coded fun coded => .read (.read ?_)
  split
  next => exact performs_fail env (.inr rfl) m
  next allows =>
    have makes : m.Makes free cls (m.allocation cls) :=
      .allocated cls (coded.valid.module is_module) (Bool.eq_false_iff.2 allows)
    unfold Machine.allocation at makes
    split
    next exceptional =>
      rw [if_pos exceptional] at makes
      exact (PerformsAt.allocate makes).bind fun _ m' _ => performs_pure _ m'
    next ordinary =>
      rw [if_neg ordinary] at makes
      split
      next textual =>
        rw [if_pos textual] at makes
        exact .newObject makes
      next plain =>
        rw [if_neg plain] at makes
        exact .newObject makes

theorem performs_setUpException (env : FrameId) (receiver : Value) (args : List Value) :
    Performs free (setUpException env receiver args) := by
  refine (performs_exceptionArg env receiver).bind fun _ => ?_
  split
  next message _ =>
    refine (performs_read _).bind fun is_nil => ?_
    split
    next =>
      exact (performs_read _).bind fun text => (performs_setMessage receiver text).bind fun _ =>
        performs_pure _
    next => exact performs_pure _
  next => exact performs_pure _

theorem performs_runOperator (env : FrameId) (op : Operator) (receiver : Value)
    (args : List Value) : Performs free (runOperator env op receiver args) := by
  unfold runOperator
  split
  next argument => exact performs_applyOperator env op receiver argument
  next => exact performs_fail env (.inr rfl)

theorem performs_builtin (runs : RunnerPerforms free run) (block_coded : CodedBlock free block)
    (env : FrameId) (receiver : Value) (args : List Value) (method : Builtin) :
    Performs free (method.perform run env receiver args block) := by
  cases method with
  | accept => exact performs_pure _
  | same => exact performs_pure _
  | negate => exact (performs_read _).bind fun _ => performs_pure _
  | send => exact performs_sendByName runs block_coded .anyMethod env receiver args
  | publicSend => exact performs_sendByName runs block_coded .publicOnly env receiver args
  | classOf => exact performs_read _
  | respondTo => exact performs_respondTo env receiver args
  | objectId => exact (performs_identityOf receiver).bind fun _ => performs_pure _
  | isA => exact performs_isA env receiver args
  | inspect => exact (performs_read _).bind fun text => performs_newText text
  | ivarGet =>
    cases args with
    | nil => exact performs_fail env (.inr rfl)
    | cons selector _ =>
      exact (performs_selectorArg env selector).bind fun name => performs_ivarGet env receiver name
  | ivarSet =>
    match args with
    | [selector, value] =>
      exact (performs_selectorArg env selector).bind fun name =>
        performs_ivarSet env receiver name value
    | [] => exact performs_fail env (.inr rfl)
    | [_] => exact performs_fail env (.inr rfl)
    | _ :: _ :: _ :: _ => exact performs_fail env (.inr rfl)
  | raise => exact performs_raiseByArgs runs env args
  | catching => exact performs_catchByArgs runs block_coded env args
  | throw => exact performs_throwByArgs env args
  | moduleName =>
    refine performs_moduleArg_bind env receiver fun id => (performs_read _).bind fun name => ?_
    split
    next name => exact performs_newText name
    next => exact performs_pure _
  | includeModule => exact performs_includeByArgs env receiver args
  | methodDefined => exact performs_methodDefined env receiver args
  | defineMethod => exact performs_defineByBlock env receiver args block_coded
  | undefMethod =>
    exact (performs_forSelectors env receiver args (performs_undefMethod env)).bind fun _ =>
      performs_pure _
  | removeMethod =>
    exact (performs_forSelectors env receiver args (performs_removeMethod env)).bind fun _ =>
      performs_pure _
  | setVisibility visibility =>
    exact (performs_forSelectors env receiver args fun owner name =>
      performs_setVisibility env owner name visibility).bind fun _ => performs_pure _
  | new => exact performs_instantiate runs block_coded env receiver args
  | allocate => exact performs_allocateObject env receiver
  | superclass =>
    refine performs_moduleArg_bind env receiver fun id => (performs_read _).bind fun parent => ?_
    split
    next parent => exact performs_read _
    next => exact performs_pure _
  | operator op => exact performs_runOperator env op receiver args
  | exceptionSetup => exact performs_setUpException env receiver args
  | exceptionMessage =>
    exact (performs_exceptionArg env receiver).bind fun data => performs_newText _
  | exceptionBacktrace =>
    refine (performs_exceptionArg env receiver).bind fun data => ?_
    split
    next => exact performs_pure _
    next => exact performs_newText _

end Run

end ObjectRuntime
