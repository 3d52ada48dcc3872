import ObjectRuntime.Opening
import ObjectRuntime.Proofs.Machine.Quiet

/-!
# Opening and editing modules is quiet

Each operation on classes, modules, methods and variables is one change of the machine or a fault
that is raised from the frame that asked.
-/

set_option autoImplicit false

namespace ObjectRuntime.Run

variable {P : Expr → Prop} {env : FrameId} {m : Machine}

theorem quiet_createModule (lexical : FrameId) (name : String) (kind : ModuleKind)
    (superclass : Option ModuleId) (outer : Option FrameId)
    (root : kind = .moduleKind → superclass = none) :
    Quiet P env (createModule lexical name kind superclass outer) := by
  intro m _
  have made (metaclass : ModuleId) :
      Calm P m (m.withModule name kind superclass outer metaclass) :=
    ⟨.create name kind superclass outer metaclass root, m.frames.keeps_push ⟨rfl, rfl, rfl⟩⟩
  have bound (metaclass : ModuleId) := (Relation.ReflTransGen.single (made metaclass)).tail
    ⟨.frame lexical (fun f => f.define name (.object m.heap.next)) fun _ => ⟨rfl, rfl, rfl, rfl⟩,
      Frames.keeps_modify _ lexical fun _ => ⟨⟨rfl, rfl, rfl, rfl⟩, rfl, rfl⟩⟩
  refine ⟨?_, ?_⟩
  · cases kind with
    | classKind => exact bound Core.classClass.id
    | moduleKind => exact bound Core.moduleClass.id
  · intro s is_signal
    cases is_signal

theorem quiet_openClass (lexical : FrameId) (name : String) (superclass : Option ModuleId) :
    Quiet P lexical (openClass lexical name superclass) := by
  intro m
  refine .read ?_
  split
  next existing _ =>
    refine .read ?_
    split
    next => exact quiet_fail lexical _ m
    next id _ =>
      refine .read ?_
      split
      next => exact quiet_pure id m
      next => exact quiet_fail lexical _ m
  next =>
    refine .read ?_
    exact quiet_createModule lexical name .classKind _ _ nofun m

theorem quiet_openModule (lexical : FrameId) (name : String) :
    Quiet P lexical (openModule lexical name) := by
  intro m
  refine .read ?_
  split
  next existing _ =>
    refine .read ?_
    split
    next => exact quiet_fail lexical _ m
    next id _ => exact quiet_pure id m
  next => exact quiet_createModule lexical name .moduleKind none _ (fun _ => rfl) m

theorem quiet_defineMethod (method : Method) (code : method.Satisfies P)
    (general : method.operator = none) : Quiet P env (defineMethod method) := by
  intro m _
  refine ⟨.single ⟨.define method code general, .refl _⟩, ?_⟩
  intro s is_signal
  cases is_signal

theorem quiet_defineSingleton (env : FrameId) (target : Value) (name : String) (arity : Arity)
    (body : Body) (code : body.Satisfies P) :
    Quiet P env (defineSingleton env target name arity body) := by
  intro m
  refine .read ?_
  split
  next => exact quiet_fail env _ m
  next id is_object =>
    obtain ⟨at_target, general⟩ := Option.filter_eq_some_iff.1 is_object
    obtain rfl := Value.object?_eq_some_iff.1 at_target
    refine .read ?_
    split
    next cls is_module =>
      intro _
      refine ⟨.single ⟨.defineClassMethod (.plain name cls arity body) code rfl, .refl _⟩, ?_⟩
      intro s is_signal
      cases is_signal
    next not_module =>
      refine .read ?_
      intro _
      refine ⟨.single ⟨.singleton id (.plain name (m.classOf (.object id)) arity body) code rfl
        not_module ?_, .refl _⟩, ?_⟩
      · intro o at_id
        change ((m.heap.get? id).map (·.cls)).getD Core.object.id = o.cls
        rw [at_id]
        rfl
      · intro s is_signal
        cases is_signal

theorem quiet_includeModule (env : FrameId) (target : ModuleId) {id : ModuleId}
    (present : id.index < m.hierarchy.size) : QuietAt P env m (includeModule env target id) := by
  refine .read ?_
  split
  next after done =>
    intro _
    refine ⟨.single ⟨.includeModule target id after present done, .refl _⟩, ?_⟩
    intro s is_signal
    cases is_signal
  next => exact quiet_fail env _ m
  next => exact .read (quiet_fail env _ m)

theorem quiet_removeMethod (env : FrameId) (owner : ModuleId) (name : String) :
    Quiet P env (removeMethod env owner name) := by
  intro m
  refine .read ?_
  split
  next => exact quiet_modify (fun _ _ => .single ⟨.remove owner name, .refl _⟩) m
  next => exact .read (quiet_fail env _ m)

theorem quiet_failNotFound {α : Type} (env : FrameId) (owner : ModuleId) (name : String) :
    Quiet P env (failNotFound env owner name : Run α) :=
  fun m => .read (quiet_fail env _ m)

theorem quiet_undefMethod (env : FrameId) (owner : ModuleId) (name : String) :
    Quiet P env (undefMethod env owner name) := by
  intro m
  refine .read ?_
  split
  next => exact quiet_defineMethod (.undefined name owner) trivial rfl m
  next => exact quiet_failNotFound env owner name m

theorem quiet_setVisibility (env : FrameId) (owner : ModuleId) (name : String)
    (visibility : Visibility) : Quiet P env (setVisibility env owner name visibility) := by
  intro m
  refine .read ?_
  split
  next method is_found =>
    obtain ⟨found, -⟩ := Option.filter_eq_some_iff.1 is_found
    intro _
    refine ⟨.single ⟨.retag owner name visibility method found, .refl _⟩, ?_⟩
    intro s is_signal
    cases is_signal
  next => exact quiet_failNotFound env owner name m

theorem quiet_checkIvarName (env : FrameId) (name : String) :
    Quiet P env (checkIvarName env name) := by
  unfold checkIvarName
  split
  next => exact quiet_pure ()
  next => exact quiet_fail env _

theorem quiet_ivarGet (env : FrameId) (receiver : Value) (name : String) :
    Quiet P env (ivarGet env receiver name) :=
  (quiet_checkIvarName env name).bind fun _ => (quiet_read _).bind fun _ => quiet_pure _

theorem quiet_ivarSet (env : FrameId) (receiver : Value) (name : String) (value : Value) :
    Quiet P env (ivarSet env receiver name value) := by
  refine (quiet_checkIvarName env name).bind ?_
  intro _ m
  refine .read ?_
  split
  next id _ =>
    have edited : Quiet P env (modifyObject id fun o =>
        { o with ivars := o.ivars.insert name value }) :=
      quiet_modifyObject id _ fun _ => ⟨rfl, rfl, .inl rfl⟩
    exact edited.bind (fun _ => quiet_pure value) m
  next => exact .read (quiet_fail env _ m)

theorem quiet_identityOf (v : Value) : Quiet P env (identityOf v) := by
  intro m
  refine .read ?_
  split
  next i _ => exact quiet_pure _ m
  next => exact (quiet_hydrate v).bind (fun _ => quiet_pure _) m

end ObjectRuntime.Run
