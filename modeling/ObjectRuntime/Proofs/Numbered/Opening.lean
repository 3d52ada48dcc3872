import ObjectRuntime.Proofs.Numbered.Unwinding

/-!
# Opening classes and setting variables with numbered names

Classes and modules are opened, methods defined, removed and hidden, and variables read and set
under names for the same texts. A refusal shows the text of the name.
-/

set_option autoImplicit false

namespace ObjectRuntime.Sim

open Numbered.Run (lift)

variable {α β : Type} {i : Interner} {R : Interner → α → β → Prop} {name text : String}

/-! ### Classes and modules -/

theorem createModule (lexical : FrameId) (named : Named (fun ρ => ρ) i name text)
    (kind : ModuleKind) (superclass : Option ModuleId) (outer : Option FrameId) :
    Sim i Same (lift (Run.createModule lexical name kind superclass outer))
      (Run.createModule lexical text kind superclass outer) := by
  refine (newFrame fun _ _ => rfl).lifted fun frame => ?_
  refine (seen (fun _ _ m => congrArg ModuleId.mk m.hierarchy.size_rename) fun _ _ => rfl).lifted
    fun id => ?_
  refine (allocate fun _ _ => rfl).lifted fun object => ?_
  refine (modifyHierarchy fun ρ naming h => ?_).lifted fun _ => ?_
  · rw [named ρ naming]
    exact h.create_rename ⟨some text, kind, superclass, [], .empty, .empty, frame, object⟩
  · exact (define lexical named (.object object)).lifted fun _ => value id

theorem bound (lexical : FrameId) (named : Named (fun ρ => ρ) i name text) :
    Sim i Same (Numbered.Run.see fun m => (m.frames.lookupLocal lexical name).map m.module?)
      (Run.read fun m => (m.frames.lookupLocal lexical text).map m.module?) := by
  refine seen (fun ρ naming m => ?_) fun _ _ => rfl
  rw [named ρ naming, Machine.module?_rename]
  exact congrArg _ (m.frames.lookupLocal_rename naming.injective lexical text)

theorem isClass : Sim i Same (Numbered.Run.see fun m => m.hierarchy.isClass)
    (Run.read fun m => m.hierarchy.isClass) :=
  seen (fun _ _ m => m.hierarchy.isClass_rename) fun _ _ => rfl

theorem openClass (lexical : FrameId) (named : Named (fun ρ => ρ) i name text)
    (superclass : Option ModuleId) :
    Sim i Same (Numbered.Run.openClass lexical name superclass)
      (Run.openClass lexical text superclass) := by
  refine (bound lexical named).andThen fun existing => ?_
  cases existing with
  | some existing =>
    refine Sim.text named (isClass.andThen fun isClass => ?_)
    cases existing.filter isClass with
    | none => exact fail lexical (.notAClass text)
    | some id =>
      refine (seen (fun _ _ m => congrFun m.hierarchy.superclass?_rename id) fun _ _ => rfl).andThen
        fun actual => ?_
      exact ite _ (value id) (fail lexical (.superclassMismatch text))
  | none =>
    refine (seen (fun _ _ m => m.ownerFrame_rename _) fun _ _ => rfl).andThen fun outer => ?_
    exact createModule lexical named .classKind _ outer

theorem openModule (lexical : FrameId) (named : Named (fun ρ => ρ) i name text) :
    Sim i Same (Numbered.Run.openModule lexical name) (Run.openModule lexical text) := by
  refine (bound lexical named).andThen fun existing => ?_
  cases existing with
  | some existing =>
    refine isClass.andThen fun isClass => ?_
    cases existing.filter fun id => !isClass id with
    | none => exact Sim.text named (fail lexical (.notAModule text))
    | some id => exact value id
  | none => exact createModule lexical named .moduleKind none (some lexical)

theorem includeModule (env : FrameId) (target id : ModuleId) :
    Sim i Same (Numbered.Run.includeModule env target id) (Run.includeModule env target id) := by
  have included : Sim i (Named fun ρ => Except.map (Hierarchy.rename ρ))
      (Numbered.Run.see fun m => m.hierarchy.includeModule target id)
      (Run.read fun m => m.hierarchy.includeModule target id) :=
    see (fun _ _ m => m.hierarchy.includeModule_rename target id) fun _ _ => rfl
  refine included.bind fun j result result' _ sound both => ?_
  obtain ⟨e, rfl, rfl⟩ | ⟨h, h', rfl, rfl, named⟩ := both.except sound
  · cases e with
    | cyclic => exact fail env .cyclicInclude
    | notAModule =>
      exact (shown (f := fun m => m.className id) fun _ _ => rfl).andThen fun shown =>
        fail env (.includesClass shown)
  · refine modify (fun ρ naming m => ?_) fun _ _ => rfl
    rw [named ρ naming]
    rfl

/-! ### Methods -/

section Methods

variable {method method' : Method}

theorem defineMethod (named : Named Method.rename i method method') :
    Sim i Same (lift (Run.defineMethod method)) (Run.defineMethod method') := by
  refine (stamp named).liftedBind fun j method method' _ _ named => ?_
  refine modifyHierarchy fun ρ naming h => ?_
  rw [named ρ naming]
  exact h.defineMethod_rename naming.injective method'.owner method'

theorem defineIn (owner : ModuleId) (named : Named Method.rename i method method') :
    Sim i Same (lift (Run.modifyHierarchy fun h => h.defineMethod owner method))
      (Run.modifyHierarchy fun h => h.defineMethod owner method') :=
  modifyHierarchy fun ρ naming h => by
    rw [named ρ naming]
    exact h.defineMethod_rename naming.injective owner method'

theorem plain (named : Named (fun ρ => ρ) i name text) (owner : ModuleId) (arity : Arity)
    (body : Body) :
    Named Method.rename i (.plain name owner arity body) (.plain text owner arity body) :=
  fun ρ naming => by rw [named ρ naming]; rfl

theorem defineSingleton (env : FrameId) (target : Value) (named : Named (fun ρ => ρ) i name text)
    (arity : Arity) (body : Body) :
    Sim i Same (Numbered.Run.defineSingleton env target name arity body)
      (Run.defineSingleton env target text arity body) := by
  refine (seen (fun _ _ m => m.unboxed?_rename target) fun _ _ => rfl).andThen fun id => ?_
  cases id with
  | none => exact fail env .noSingleton
  | some id =>
    refine (seen (fun _ _ m => congrFun m.module?_rename target) fun _ _ => rfl).andThen
      fun cls => ?_
    cases cls with
    | some cls =>
      refine (stamp (plain named cls arity body)).bind fun j method method' _ _ named => ?_
      refine modifyHierarchy fun ρ naming h => ?_
      rw [named ρ naming]
      exact h.defineClassMethod_rename naming.injective cls method'
    | none =>
      refine (seen (fun _ _ m => m.classOf_rename target) fun _ _ => rfl).andThen fun cls => ?_
      refine (stamp (plain named cls arity body)).bind fun j method method' later _ stamped => ?_
      refine modifyObject id fun ρ naming o => ?_
      rw [stamped ρ naming, named ρ (naming.before later)]
      exact congrArg (fun singletonMethods => { o.rename ρ with singletonMethods })
        (o.singletonMethods.insert_rename naming.injective text method')

theorem findMethod (owner : ModuleId) (named : Named (fun ρ => ρ) i name text) :
    Sim i (Named fun ρ => Option.map (Method.rename ρ))
      (Numbered.Run.see fun m => m.hierarchy.findMethod owner name)
      (Run.read fun m => m.hierarchy.findMethod owner text) := by
  refine see (fun ρ naming m => ?_) fun _ _ => rfl
  rw [named ρ naming]
  exact m.hierarchy.findMethod_rename naming.injective text owner

theorem findDefined (owner : ModuleId) (named : Named (fun ρ => ρ) i name text) :
    Sim i (Named fun ρ => Option.map (Method.rename ρ))
      (Numbered.Run.see fun m => Method.defined? (m.hierarchy.findMethod owner name))
      (Run.read fun m => Method.defined? (m.hierarchy.findMethod owner text)) := by
  refine see (fun ρ naming m => ?_) fun _ _ => rfl
  rw [named ρ naming]
  exact (congrArg Method.defined? (m.hierarchy.findMethod_rename naming.injective text owner)).trans
    (Method.defined?_rename _)

theorem removeMethod (env : FrameId) (owner : ModuleId) (named : Named (fun ρ => ρ) i name text) :
    Sim i Same (Numbered.Run.removeMethod env owner name) (Run.removeMethod env owner text) := by
  have own : Sim i (Named fun ρ => Option.map (Method.rename ρ))
      (Numbered.Run.see fun m => m.hierarchy.ownMethod? owner name)
      (Run.read fun m => m.hierarchy.ownMethod? owner text) := by
    refine see (fun ρ naming m => ?_) fun _ _ => rfl
    rw [named ρ naming]
    exact m.hierarchy.ownMethod?_rename naming.injective text owner
  have removed (j : Interner) (later : i.Extends j) :
      Sim j Same (lift (Run.modifyHierarchy fun h => h.removeMethod owner name))
        (Run.modifyHierarchy fun h => h.removeMethod owner text) :=
    modifyHierarchy fun ρ naming h => by
      rw [named ρ (naming.before later)]
      exact h.removeMethod_rename naming.injective text owner
  refine own.option ?_ fun j _ _ later _ _ => removed j later
  exact failAbout env .methodNotInTable (fun m => m.className owner) (fun _ _ => rfl) named

theorem failNotFound (env : FrameId) (owner : ModuleId) (named : Named (fun ρ => ρ) i name text) :
    Sim i R (Numbered.Run.failNotFound env owner name) (Run.failNotFound env owner text) := by
  have fault : Sim i Same
      (Numbered.Run.read fun s =>
        .methodNotFound (s.text name) (s.shown.moduleNoun owner) (s.shown.className owner))
      (Run.read fun m => Fault.methodNotFound text (m.moduleNoun owner) (m.className owner)) :=
    read fun s m later represents => by
      rw [represents.text (named.later later), represents.shown]
      rfl
  exact fault.andThen fun fault => fail env fault

theorem undefMethod (env : FrameId) (owner : ModuleId) (named : Named (fun ρ => ρ) i name text) :
    Sim i Same (Numbered.Run.undefMethod env owner name) (Run.undefMethod env owner text) := by
  have defined : Sim i Same (Numbered.Run.see fun m => m.hierarchy.isMethodDefined owner name)
      (Run.read fun m => m.hierarchy.isMethodDefined owner text) := by
    refine seen (fun ρ naming m => ?_) fun _ _ => rfl
    rw [named ρ naming]
    exact m.hierarchy.isMethodDefined_rename naming.injective text owner
  refine defined.andThen fun isDefined => ite _ ?_ (failNotFound env owner named)
  exact defineMethod (plain named owner (.atLeast 0) .undefined)

theorem setVisibility (env : FrameId) (owner : ModuleId) (named : Named (fun ρ => ρ) i name text)
    (visibility : Visibility) :
    Sim i Same (Numbered.Run.setVisibility env owner name visibility)
      (Run.setVisibility env owner text visibility) := by
  refine (findDefined owner named).option (failNotFound env owner named)
    fun j method method' _ _ found => ?_
  have shown : Named Method.rename j { method with visibility } { method' with visibility } :=
    fun ρ naming => by rw [found ρ naming]; rfl
  exact (stamp shown).bind fun k _ _ _ _ stamped => defineIn owner stamped

end Methods

/-! ### Instance variables -/

theorem checkIvarName (env : FrameId) (named : Named (fun ρ => ρ) i name text) :
    Sim i Same (Numbered.Run.checkIvarName env name) (Run.checkIvarName env text) :=
  Sim.text named (ite _ (value ()) (fail env (.invalidIvarName text)))

theorem ivarGet (env : FrameId) (receiver : Value) (named : Named (fun ρ => ρ) i name text) :
    Sim i Same (Numbered.Run.ivarGet env receiver name) (Run.ivarGet env receiver text) := by
  refine (checkIvarName env named).andThen fun _ => ?_
  have found : Sim i Same
      (Numbered.Run.see fun m =>
        ((m.unboxed? receiver).bind m.heap.get?).bind fun o => o.ivars.get? name)
      (Run.read fun m =>
        ((m.unboxed? receiver).bind m.heap.get?).bind fun o => o.ivars.get? text) := by
    refine seen (fun ρ naming m => ?_) fun _ _ => rfl
    rw [named ρ naming]
    exact m.ivar_rename naming.injective text receiver
  exact found.andThen fun found => value (found.getD .nil)

theorem ivarSet (env : FrameId) (receiver : Value) (named : Named (fun ρ => ρ) i name text)
    (v : Value) :
    Sim i Same (Numbered.Run.ivarSet env receiver name v) (Run.ivarSet env receiver text v) := by
  refine (checkIvarName env named).andThen fun _ => ?_
  refine (seen (fun _ _ m => m.unboxed?_rename receiver) fun _ _ => rfl).andThen fun id => ?_
  cases id with
  | some id =>
    refine (modifyObject id fun ρ naming o => ?_).andThen fun _ => value v
    rw [named ρ naming]
    exact congrArg (fun ivars => { o.rename ρ with ivars })
      (o.ivars.insert_rename_id naming.injective text v)
  | none =>
    refine (shown (f := fun m => Fault.frozen (m.className (m.classOf receiver))
      (m.inspect receiver)) fun _ _ => rfl).andThen fun fault => fail env fault

end ObjectRuntime.Sim
