import ObjectRuntime.Numbered.Builtins
import ObjectRuntime.Proofs.Numbered.Dispatching
import ObjectRuntime.Proofs.Numbered.Opening

/-!
# Built-in methods with numbered names

A method name that is given as a symbol is the name of the symbol, one that is given as a string is
the name of its text. From there on every built-in method takes the same steps on both machines.
-/

set_option autoImplicit false

namespace ObjectRuntime.Sim

open Numbered.Run (lift)

variable {α β : Type} {i : Interner} {R : Interner → α → β → Prop}

/-! ### Arguments -/

/-- The text machine decides on the kind of the argument at once, or step after step. -/
theorem selectorArg_eq (env : FrameId) (v : Value) :
    Run.selectorArg env v = (do
      match ← Run.read fun m => m.symbol? v with
      | some name => return name
      | none =>
        match ← Run.read fun m => m.text? v with
        | some content => return content
        | none =>
          let shown ← Run.read fun m => m.inspect v
          Run.fail env (.notASelector shown)) := by
  funext m
  simp only [Run.selectorArg, Run.selectorOf, Run.run_bind, Run.run_read]
  cases m.symbol? v with
  | some name => rfl
  | none =>
    simp only [Run.run_bind, Run.run_read]
    cases m.text? v <;> rfl

theorem selectorArg (env : FrameId) (v : Value) :
    Sim i (Named fun ρ => ρ) (Numbered.Run.selectorArg env v) (Run.selectorArg env v) := by
  rw [selectorArg_eq]
  have symbol : Sim i (Named fun ρ => Option.map ρ) (Numbered.Run.see fun m => m.symbol? v)
      (Run.read fun m => m.symbol? v) := see (fun _ _ m => m.symbol?_rename v) fun _ _ => rfl
  refine symbol.option ?_ fun j name text _ _ named => pure fun k later => named.later later
  refine (seen (fun _ _ m => m.text?_rename v) fun _ _ => rfl).andThen fun content => ?_
  cases content with
  | some content => exact interned content
  | none =>
    exact (shown (f := fun m => m.inspect v) fun _ _ => rfl).andThen fun shown =>
      fail env (.notASelector shown)

theorem moduleArg (env : FrameId) (v : Value) :
    Sim i Same (Numbered.Run.moduleArg env v) (Run.moduleArg env v) := by
  refine (seen (fun _ _ m => congrFun m.module?_rename v) fun _ _ => rfl).andThen fun id => ?_
  cases id with
  | some id => exact value id
  | none =>
    exact (shown (f := fun m => m.inspect v) fun _ _ => rfl).andThen fun shown =>
      fail env (.receiverNotAModule shown)

theorem exceptionArg (env : FrameId) (v : Value) :
    Sim i (Named ExceptionData.rename) (Numbered.Run.exceptionArg env v)
      (Run.exceptionArg env v) := by
  have data : Sim i (Named fun ρ => Option.map (ExceptionData.rename ρ))
      (Numbered.Run.see fun m => m.exception? v) (Run.read fun m => m.exception? v) :=
    see (fun _ _ m => m.exception?_rename v) fun _ _ => rfl
  exact data.option (fail env .receiverNotAnException)
    fun j _ _ _ _ named => pure fun k later => named.later later

theorem setMessage (v : Value) (message : String) :
    Sim i Same (lift (Run.setMessage v message)) (Run.setMessage v message) := by
  unfold Run.setMessage
  cases v.object? with
  | none => exact value ()
  | some id => exact modifyObject id fun ρ _ o => o.mapException_rename fun _ => rfl

theorem identityOf (v : Value) :
    Sim i Same (lift (Run.identityOf v)) (Run.identityOf v) := by
  refine (seen (fun _ _ m => m.int?_rename v) fun _ _ => rfl).lifted fun n => ?_
  cases n with
  | some n => exact value (n * 2 + 1, v)
  | none => exact (hydrate v).lifted fun id => value (Run.objectNumber id, Value.object id)

section Runs

variable {run : Numbered.Runner} {run' : Runner} (runs : Runs run run') (env : FrameId)
  (receiver : Value) (args : List Value) (block : Option Block)

/-! ### Methods of all objects -/

include runs in
theorem sendByName (kind : SendKind) :
    Sim i Same (Numbered.Run.sendByName run kind env receiver args block)
      (Run.sendByName run' kind env receiver args block) := by
  cases args with
  | nil => exact fail env .noMethodName
  | cons selector rest =>
    exact (selectorArg env selector).bind fun j name text _ _ named =>
      send runs env named rest block kind receiver

theorem respondTo :
    Sim i Same (Numbered.Run.respondTo env receiver args) (Run.respondTo env receiver args) := by
  cases args with
  | nil => exact fail env _
  | cons selector rest =>
    refine (selectorArg env selector).bind fun j name text _ _ named => ?_
    refine (seen (fun _ _ m => by rw [Machine.truthy_rename]) fun _ _ => rfl).andThen
      fun includePrivate => ?_
    refine (seen (fun ρ naming m => ?_) fun _ _ => rfl).andThen
      fun answer => value (Value.bool answer)
    rw [named ρ naming]
    exact m.respondsTo_rename naming.injective text receiver includePrivate

theorem isA : Sim i Same (Numbered.Run.isA env receiver args) (Run.isA env receiver args) := by
  refine (seen (fun _ _ m => by rw [Machine.module?_rename]) fun _ _ => rfl).andThen fun id => ?_
  cases id with
  | some id =>
    exact (seen (fun _ _ m => m.isA_rename receiver id) fun _ _ => rfl).andThen
      fun answer => value (Value.bool answer)
  | none => exact fail env .classRequired

include runs in
theorem raiseByArgs :
    Sim i Same (Numbered.Run.raiseByArgs run env args) (Run.raiseByArgs run' env args) := by
  cases args with
  | nil => exact fail env .unhandled
  | cons first rest =>
    refine (seen (fun _ _ m => m.text?_rename first) fun _ _ => rfl).andThen fun message => ?_
    cases message with
    | some message => exact fail env (.runtimeError message)
    | none =>
      refine (seen (fun _ _ m => by
        rw [Machine.module?_rename, Machine.rename_hierarchy, Hierarchy.inherits_rename])
        fun _ _ => rfl).andThen fun isClass => ite _ ?_ ?_
      · refine core "new" (by decide) fun j name _ named => ?_
        exact (send runs env named rest none .anyMethod first).andThen fun exception =>
          raise env exception
      · cases rest with
        | nil => exact raise env first
        | cons message rest =>
          refine (seen (fun _ _ m => m.isException_rename first) fun _ _ => rfl).andThen
            fun isException => ?_
          refine ite _ ?_ (raise env first)
          exact (shown (f := fun m => m.messageText message) fun _ _ => rfl).andThen fun text =>
            (setMessage first text).andThen fun _ => raise env first

theorem catchByArgs (runs : Runs run run') :
    Sim i Same (Numbered.Run.catchByArgs run env args block)
      (Run.catchByArgs run' env args block) := by
  cases block with
  | none => exact fail env .noBlockGiven
  | some block =>
    have caught (tag : Value) := catching env tag (callBlock (i := i) runs env [tag] block)
    cases args with
    | cons tag rest => exact caught tag
    | nil => exact (newObject _ fun _ => rfl).andThen caught

theorem throwByArgs :
    Sim i Same (Numbered.Run.throwByArgs env args) (Run.throwByArgs env args) := by
  cases args with
  | nil => exact fail env _
  | cons tag rest => exact throw env tag _

/-! ### Methods of classes and modules -/

theorem includeByArgs :
    Sim i Same (Numbered.Run.includeByArgs env receiver args)
      (Run.includeByArgs env receiver args) := by
  refine (moduleArg env receiver).andThen fun target => ?_
  refine (forEach args.reverse fun arg => ?_).andThen fun _ => value receiver
  exact (moduleArg env arg).andThen fun id => includeModule env target id

theorem forSelectors {act : ModuleId → String → Numbered.Run Unit}
    {act' : ModuleId → String → Run Unit}
    (acts : ∀ j owner name text, Named (fun ρ => ρ) j name text →
      Sim j Same (act owner name) (act' owner text)) :
    Sim i Same (Numbered.Run.forSelectors env receiver args act)
      (Run.forSelectors env receiver args act') := by
  refine (moduleArg env receiver).andThen fun owner => forEach args fun arg => ?_
  exact (selectorArg env arg).bind fun j name text _ _ named => acts j owner name text named

theorem methodDefined :
    Sim i Same (Numbered.Run.methodDefined env receiver args)
      (Run.methodDefined env receiver args) := by
  refine (moduleArg env receiver).andThen fun owner => ?_
  cases args with
  | nil => exact fail env _
  | cons selector rest =>
    refine (selectorArg env selector).bind fun j name text _ _ named => ?_
    refine (findDefined owner named).option (value (Value.bool false))
      fun k method method' _ sound found => ?_
    have visibility : method.visibility = method'.visibility := found.part sound fun _ => rfl
    simp only [Option.map_some, visibility]
    exact value (Value.bool (method'.visibility != .isPrivate))

theorem ofBlock {name text : String} (named : Named (fun ρ => ρ) i name text) (owner : ModuleId)
    (block : Block) :
    Named Method.rename i (.ofBlock name owner block) (.ofBlock text owner block) :=
  plain named owner block.arity (.closure block.entry block.frame)

theorem defineByBlock :
    Sim i Same (Numbered.Run.defineByBlock env receiver args block)
      (Run.defineByBlock env receiver args block) := by
  refine (moduleArg env receiver).andThen fun owner => ?_
  cases args with
  | nil => exact fail env _
  | cons selector rest =>
    refine (selectorArg env selector).bind fun j name text _ _ named => ?_
    cases block with
    | none => exact fail env .noBlockToDefine
    | some block =>
      exact (defineMethod (ofBlock named owner block)).andThen fun _ => symbol named

include runs in
theorem instantiate :
    Sim i Same (Numbered.Run.instantiate run env receiver args block)
      (Run.instantiate run' env receiver args block) := by
  refine core "allocate" (by decide) fun j allocator _ named => ?_
  refine (send runs env named [] none .anyMethod receiver).andThen fun object => ?_
  refine core "initialize" (by decide) fun k setup _ named => ?_
  refine (route object named args).andThen fun way => ?_
  exact (follow runs env named args block .anyMethod way).andThen fun _ => value way.receiver

theorem allocateObject :
    Sim i Same (Numbered.Run.allocateObject env receiver) (Run.allocateObject env receiver) := by
  refine (moduleArg env receiver).andThen fun cls => ?_
  refine (seen (fun _ _ m => congrFun m.hierarchy.inherits_rename cls) fun _ _ => rfl).andThen
    fun inherits => ?_
  refine (shown (f := fun m => m.className cls) fun _ _ => rfl).andThen fun shown => ?_
  refine ite _ (fail env (.noAllocator shown)) (ite _ ?_ (ite _ ?_ ?_))
  · exact (newException cls fun _ _ => rfl).andThen fun id => value (Value.object id)
  · exact newObject cls fun _ => rfl
  · exact newObject cls fun _ => rfl

theorem setUpException :
    Sim i Same (Numbered.Run.setUpException env receiver args)
      (Run.setUpException env receiver args) := by
  refine (exceptionArg env receiver).bind fun j _ _ _ _ _ => ?_
  cases args with
  | nil => exact value _
  | cons message rest =>
    refine (seen (fun _ _ m => m.isNil_rename message) fun _ _ => rfl).andThen
      fun isNil => ite _ ?_ (value _)
    exact (shown (f := fun m => m.messageText message) fun _ _ => rfl).andThen fun text =>
      (setMessage receiver text).andThen fun _ => value _

theorem runOperator (op : Operator) :
    Sim i Same (Numbered.Run.runOperator env op receiver args)
      (Run.runOperator env op receiver args) := by
  match args with
  | [argument] => exact applyOperator env op receiver argument
  | [] => exact fail env _
  | _ :: _ :: _ => exact fail env _

theorem moduleObject (id : ModuleId) :
    Sim i Same (Numbered.Run.see fun m => m.moduleObject id)
      (Run.read fun m => m.moduleObject id) :=
  seen (fun _ _ m => m.moduleObject_rename id) fun _ _ => rfl

include runs in
theorem performBuiltin (method : Builtin) :
    Sim i Same (Numbered.Run.performBuiltin run env receiver args block method)
      (method.perform run' env receiver args block) := by
  cases method with
  | accept => exact value _
  | same => exact value _
  | negate =>
    exact (seen (fun _ _ m => congrFun m.truthy_rename receiver) fun _ _ => rfl).andThen
      fun truthy => value _
  | send => exact sendByName runs env receiver args block .anyMethod
  | publicSend => exact sendByName runs env receiver args block .publicOnly
  | classOf =>
    refine seen (fun _ _ m => ?_) fun _ _ => rfl
    rw [Machine.classOf_rename, Machine.moduleObject_rename]
  | respondTo => exact respondTo env receiver args
  | objectId => exact (identityOf receiver).andThen fun identity => value _
  | isA => exact isA env receiver args
  | inspect =>
    exact (shown (f := fun m => m.inspect receiver) fun _ _ => rfl).andThen fun text => newText text
  | ivarGet =>
    cases args with
    | nil => exact fail env _
    | cons selector rest =>
      exact (selectorArg env selector).bind fun _ _ _ _ _ named => ivarGet env receiver named
  | ivarSet =>
    match args with
    | [selector, v] =>
      exact (selectorArg env selector).bind fun _ _ _ _ _ named => ivarSet env receiver named v
    | [] => exact fail env _
    | [_] => exact fail env _
    | _ :: _ :: _ :: _ => exact fail env _
  | raise => exact raiseByArgs runs env args
  | catching => exact catchByArgs env args block runs
  | throw => exact throwByArgs env args
  | moduleName =>
    refine (moduleArg env receiver).andThen fun id => ?_
    refine (shown (f := fun m => m.moduleName? id) fun _ _ => rfl).andThen fun name => ?_
    cases name with
    | some name => exact newText name
    | none => exact value _
  | includeModule => exact includeByArgs env receiver args
  | methodDefined => exact methodDefined env receiver args
  | defineMethod => exact defineByBlock env receiver args block
  | undefMethod =>
    exact (forSelectors env receiver args fun _ owner _ _ named =>
      undefMethod env owner named).andThen fun _ => value receiver
  | removeMethod =>
    exact (forSelectors env receiver args fun _ owner _ _ named =>
      removeMethod env owner named).andThen fun _ => value receiver
  | setVisibility visibility =>
    exact (forSelectors env receiver args fun _ owner _ _ named =>
      setVisibility env owner named visibility).andThen fun _ => value _
  | new => exact instantiate runs env receiver args block
  | allocate => exact allocateObject env receiver
  | superclass =>
    refine (moduleArg env receiver).andThen fun id => ?_
    refine (seen (fun _ _ m => congrFun m.hierarchy.superclass?_rename id) fun _ _ => rfl).andThen
      fun parent => ?_
    cases parent with
    | some parent => exact moduleObject parent
    | none => exact value _
  | operator op => exact runOperator env receiver args op
  | exceptionSetup => exact setUpException env receiver args
  | exceptionMessage =>
    refine (exceptionArg env receiver).bind fun j data data' _ sound named => ?_
    have message : data.message = data'.message := named.part sound fun _ => rfl
    rw [message]
    exact newText data'.message
  | exceptionBacktrace =>
    refine (exceptionArg env receiver).bind fun j data data' _ sound named => ?_
    have backtrace : data.backtrace = data'.backtrace := named.part sound fun _ => rfl
    rw [backtrace]
    exact ite _ (value _) (newText _)

end Runs

end ObjectRuntime.Sim
