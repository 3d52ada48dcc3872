import ObjectRuntime.Numbered.Renaming
import Mathlib.Logic.Function.Basic

/-!
# What a renaming commutes with

Renaming is functorial. A renaming that keeps different names apart commutes with every operation on
tables, frames and the hierarchy that compares names only with each other.
-/

set_option autoImplicit false

namespace ObjectRuntime

/-- One renaming after the other is a renaming, and renaming everything to itself is nothing. -/
structure Functorial {α : Type} (act : (String → String) → α → α) : Prop where
  id : ∀ a, act id a = a
  comp : ∀ f g a, act g (act f a) = act (g ∘ f) a

variable {f : String → String}

/-! ### Bindings -/

namespace Bindings

variable {α : Type} {g : α → α}

theorem functorial {act : (String → String) → α → α} (functorial : Functorial act) :
    Functorial fun f (b : Bindings α) => b.rename f (act f) where
  id b := by
    have same : act id = id := funext functorial.id
    simp [rename, same]
  comp f g b := by
    simp [rename, functorial.comp]

theorem functorial_keys : Functorial fun f (b : Bindings α) => b.rename f id :=
  functorial ⟨fun _ => rfl, fun _ _ _ => rfl⟩

theorem find?_rename (injective : Function.Injective f) (list : List (String × α)) (name : String) :
    find? (list.map fun entry => (f entry.1, g entry.2)) (f name) = (find? list name).map g := by
  induction list with
  | nil => rfl
  | cons entry rest ih =>
    rw [List.map_cons, find?, find?, ih]
    by_cases same : entry.1 = name
    · rw [if_pos same, if_pos (congrArg f same)]
      rfl
    · rw [if_neg same, if_neg (injective.ne same)]

theorem get?_rename (injective : Function.Injective f) (b : Bindings α) (name : String) :
    (b.rename f g).get? (f name) = (b.get? name).map g :=
  find?_rename injective b.entries name

theorem get?_rename_id (injective : Function.Injective f) (b : Bindings α) (name : String) :
    (b.rename f id).get? (f name) = b.get? name := by
  rw [get?_rename injective, Option.map_id_fun, id_eq]

theorem insert_rename (injective : Function.Injective f) (b : Bindings α) (name : String)
    (value : α) : (b.rename f g).insert (f name) (g value) = (b.insert name value).rename f g := by
  have puts (list : List (String × α)) :
      put (list.map fun entry => (f entry.1, g entry.2)) (f name) (g value) =
        (put list name value).map fun entry => (f entry.1, g entry.2) := by
    induction list with
    | nil => rfl
    | cons entry rest ih =>
      rw [List.map_cons, put, put, ih]
      by_cases same : entry.1 = name
      · rw [if_pos same, if_pos (congrArg f same)]
        rfl
      · rw [if_neg same, if_neg (injective.ne same)]
        rfl
  exact congrArg Bindings.mk (puts b.entries)

theorem insert_rename_id (injective : Function.Injective f) (b : Bindings α) (name : String)
    (value : α) : (b.rename f id).insert (f name) value = (b.insert name value).rename f id :=
  insert_rename injective b name value

theorem erase_rename (injective : Function.Injective f) (b : Bindings α) (name : String) :
    (b.rename f g).erase (f name) = (b.erase name).rename f g := by
  refine congrArg Bindings.mk ?_
  rw [rename, List.filter_map]
  congr 1
  refine List.filter_congr fun entry _ => ?_
  simp only [Function.comp_apply, bne, beq_eq_decide, injective.eq_iff]

theorem values_rename (b : Bindings α) : (b.rename f g).values = b.values.map g := by
  simp [values, rename]

theorem values_rename_id (b : Bindings α) : (b.rename f id).values = b.values := by
  rw [values_rename, List.map_id]

end Bindings

/-! ### Methods, frames, objects and modules -/

namespace Method

theorem functorial : Functorial Method.rename := ⟨fun _ => rfl, fun _ _ _ => rfl⟩

@[simp] theorem rename_name (m : Method) : (m.rename f).name = f m.name := rfl

@[simp] theorem rename_owner (m : Method) : (m.rename f).owner = m.owner := rfl

theorem defined?_rename (found : Option Method) :
    defined? (found.map (·.rename f)) = (defined? found).map (·.rename f) := by
  cases found with
  | none => rfl
  | some m =>
    rw [Option.map_some, defined?, defined?, Option.filter_some, Option.filter_some]
    change (if !m.isUndefined then _ else _) = _
    split <;> rfl

end Method

theorem Frame.functorial : Functorial Frame.rename where
  id frame := by
    simp [Frame.rename, Bindings.functorial_keys.id, Position.rename, Method.rename]
  comp f g frame := by
    have bindings := Bindings.functorial_keys.comp f g frame.bindings
    simp only [Frame.rename, bindings, Option.map_map]
    rfl

theorem Frame.define_rename (injective : Function.Injective f) (frame : Frame) (name : String)
    (value : Value) :
    (frame.rename f).define (f name) value = (frame.define name value).rename f := by
  simp only [define, rename, Bindings.insert_rename_id injective]

namespace Object

theorem functorial_payload : Functorial Payload.rename where
  id payload := by cases payload <;> simp [Payload.rename, ExceptionData.rename]
  comp f g payload := by cases payload <;> simp [Payload.rename, ExceptionData.rename]

theorem functorial : Functorial Object.rename where
  id o := by
    simp [Object.rename, functorial_payload.id, Bindings.functorial_keys.id,
      (Bindings.functorial Method.functorial).id]
  comp f g o := by
    simp [Object.rename, functorial_payload.comp, Bindings.functorial_keys.comp,
      (Bindings.functorial Method.functorial).comp]

@[simp] theorem module?_rename (o : Object) : (o.rename f).module? = o.module? := by
  obtain ⟨cls, payload, ivars, singletons⟩ := o
  cases payload <;> rfl

@[simp] theorem exception?_rename (o : Object) :
    (o.rename f).exception? = o.exception?.map (·.rename f) := by
  obtain ⟨cls, payload, ivars, singletons⟩ := o
  cases payload <;> rfl

@[simp] theorem isBoxedNumber_rename (o : Object) :
    (o.rename f).isBoxedNumber = o.isBoxedNumber := by
  obtain ⟨cls, payload, ivars, singletons⟩ := o
  cases payload <;> rfl

theorem mapException_rename (o : Object) {edit edit' : ExceptionData → ExceptionData}
    (commutes : ∀ data, edit' (data.rename f) = (edit data).rename f) :
    (o.rename f).mapException edit' = (o.mapException edit).rename f := by
  obtain ⟨cls, payload, ivars, singletons⟩ := o
  cases payload with
  | exception data =>
    simp only [mapException, Object.rename, Payload.rename, commutes]
  | _ => rfl

end Object

theorem Module.functorial : Functorial Module.rename where
  id m := by
    simp [Module.rename, (Bindings.functorial Method.functorial).id]
  comp f g m := by
    simp [Module.rename, (Bindings.functorial Method.functorial).comp]

theorem Machine.functorial : Functorial Machine.rename where
  id m := by
    have objects : Object.rename id = id := funext Object.functorial.id
    have frames : Frame.rename id = id := funext Frame.functorial.id
    have modules : Module.rename id = id := funext Module.functorial.id
    simp [Machine.rename, Heap.rename, Frames.rename, Hierarchy.rename,
      Bindings.functorial_keys.id, objects, frames, modules]
  comp f g m := by
    simp [Machine.rename, Heap.rename, Frames.rename, Hierarchy.rename,
      Bindings.functorial_keys.comp, Function.comp_def, Object.functorial.comp,
      Frame.functorial.comp, Module.functorial.comp]

/-! ### Tables of objects, frames and modules -/

theorem modify_map {α : Type} {xs : Array α} {act edit edit' : α → α}
    (commutes : ∀ a, edit' (act a) = act (edit a)) (i : Nat) :
    (xs.map act).modify i edit' = (xs.modify i edit).map act := by
  refine Array.ext (by simp) ?_
  intro place _ _
  simp only [Array.getElem_modify, Array.getElem_map]
  split
  next => exact commutes _
  next => rfl

namespace Heap

theorem size_rename (h : Heap) : (h.rename f).size = h.size := Array.size_map ..

theorem get?_rename (h : Heap) (id : ObjectId) :
    (h.rename f).get? id = (h.get? id).map (·.rename f) := Array.getElem?_map ..

theorem push_rename (h : Heap) (o : Object) :
    (h.rename f).push (o.rename f) = (h.push o).rename f := by
  simp [push, rename]

theorem modify_rename (h : Heap) (id : ObjectId) {edit edit' : Object → Object}
    (commutes : ∀ o, edit' (o.rename f) = (edit o).rename f) :
    (h.rename f).modify id edit' = (h.modify id edit).rename f := by
  rw [modify, modify, rename, rename, modify_map commutes]

end Heap

namespace Frames

theorem get?_rename (fs : Frames) (id : FrameId) :
    (fs.rename f).get? id = (fs.get? id).map (·.rename f) := Array.getElem?_map ..

theorem size_rename (fs : Frames) : (fs.rename f).size = fs.size := Array.size_map ..

theorem push_rename (fs : Frames) (frame : Frame) :
    (fs.rename f).push (frame.rename f) = (fs.push frame).rename f := by
  simp [push, rename]

theorem modify_rename (fs : Frames) (id : FrameId) {edit edit' : Frame → Frame}
    (commutes : ∀ frame, edit' (frame.rename f) = (edit frame).rename f) :
    (fs.rename f).modify id edit' = (fs.modify id edit).rename f := by
  rw [modify, modify, rename, rename, modify_map commutes]

theorem bind_get?_rename {α : Type} (fs : Frames) (id : FrameId) {part : Frame → Option α}
    (same : ∀ frame, part (frame.rename f) = part frame) :
    ((fs.rename f).get? id).bind part = (fs.get? id).bind part := by
  rw [get?_rename, Option.bind_map]
  exact congrArg _ (funext same)

theorem outer?_rename (fs : Frames) : (fs.rename f).outer? = fs.outer? :=
  funext fun id => fs.bind_get?_rename id fun _ => rfl

theorem caller?_rename (fs : Frames) : (fs.rename f).caller? = fs.caller? :=
  funext fun id => fs.bind_get?_rename id fun _ => rfl

theorem scopes_rename (fs : Frames) (id : FrameId) : (fs.rename f).scopes id = fs.scopes id := by
  rw [scopes, outer?_rename, scopes]

theorem callers_rename (fs : Frames) (id : FrameId) : (fs.rename f).callers id = fs.callers id := by
  rw [callers, caller?_rename, callers]

theorem kindOf_rename (fs : Frames) : (fs.rename f).kindOf = fs.kindOf := by
  funext id
  rw [kindOf, get?_rename, Option.map_map, kindOf]
  rfl

theorem searched_rename (fs : Frames) (visible : Bool) (list : List FrameId) :
    (fs.rename f).searched visible list = fs.searched visible list := by
  induction list with
  | nil => rfl
  | cons id rest ih => rw [searched, searched, ih, kindOf_rename]

theorem lookupLocal_rename (injective : Function.Injective f) (fs : Frames) (id : FrameId)
    (name : String) : (fs.rename f).lookupLocal id (f name) = fs.lookupLocal id name := by
  rw [lookupLocal, get?_rename, Option.bind_map, lookupLocal]
  exact congrArg _ (funext fun frame => Bindings.get?_rename_id injective frame.bindings name)

theorem define_rename (injective : Function.Injective f) (fs : Frames) (id : FrameId)
    (name : String) (value : Value) :
    (fs.rename f).define id (f name) value = (fs.define id name value).rename f :=
  fs.modify_rename id fun frame => frame.define_rename injective name value

theorem position_rename (fs : Frames) (id : FrameId) :
    (fs.rename f).position id = (fs.position id).map (·.rename f) := by
  rw [position_eq, position_eq, scopes_rename, List.map_findSome?]
  congr 1
  funext frame
  rw [get?_rename, Option.bind_map, Function.comp_apply, Option.map_bind]
  rfl

theorem setLine_rename (fs : Frames) (id : FrameId) (line : Nat) :
    (fs.rename f).setLine id line = (fs.setLine id line).rename f := by
  rw [setLine, setLine, position_rename]
  cases fs.position id with
  | none => rfl
  | some p => exact fs.modify_rename id fun _ => rfl

theorem methodFrame?_rename (fs : Frames) (id : FrameId) :
    (fs.rename f).methodFrame? id = fs.methodFrame? id := by
  have among (list : List FrameId) :
      (fs.rename f).methodFrameAmong list = fs.methodFrameAmong list := by
    induction list with
    | nil => rfl
    | cons id rest ih => rw [methodFrameAmong, methodFrameAmong, ih, kindOf_rename]
  rw [methodFrame?, methodFrame?, scopes_rename, among]

theorem currentBlock?_rename (fs : Frames) (id : FrameId) :
    (fs.rename f).currentBlock? id = fs.currentBlock? id := by
  rw [currentBlock?, currentBlock?, methodFrame?_rename, Option.bind_assoc, Option.bind_assoc]
  congr 1
  funext frame
  exact fs.bind_get?_rename frame fun _ => rfl

theorem methodFrame_rename (fs : Frames) (id : FrameId) :
    ((fs.rename f).methodFrame? id).bind (fs.rename f).get? =
      ((fs.methodFrame? id).bind fs.get?).map (·.rename f) := by
  rw [methodFrame?_rename, Option.map_bind]
  exact congrArg _ (funext fun frame => fs.get?_rename frame)

theorem findTarget_rename (fs : Frames) (id : FrameId) (accepts : TargetKind → Bool) :
    (fs.rename f).findTarget id accepts = fs.findTarget id accepts := by
  rw [findTarget_eq, findTarget_eq, callers_rename]
  congr 1
  funext frame
  exact fs.bind_get?_rename frame fun _ => rfl

end Frames

namespace Hierarchy

theorem size_rename (h : Hierarchy) : (h.rename f).size = h.size := Array.size_map ..

theorem get?_rename (h : Hierarchy) (id : ModuleId) :
    (h.rename f).get? id = (h.get? id).map (·.rename f) := Array.getElem?_map ..

theorem create_rename (h : Hierarchy) (entry : Module) :
    (h.rename f).create (entry.rename f) = (h.create entry).rename f := by
  simp [create, rename]

theorem modify_rename (h : Hierarchy) (id : ModuleId) {edit edit' : Module → Module}
    (commutes : ∀ entry, edit' (entry.rename f) = (edit entry).rename f) :
    (h.rename f).modify id edit' = (h.modify id edit).rename f := by
  rw [modify, modify, rename, rename, modify_map commutes]

theorem isClass_rename (h : Hierarchy) : (h.rename f).isClass = h.isClass := by
  funext id
  rw [isClass, get?_rename, Option.map_map, isClass]
  rfl

theorem superclass?_rename (h : Hierarchy) : (h.rename f).superclass? = h.superclass? := by
  funext id
  rw [superclass?, get?_rename, Option.bind_map, superclass?]
  rfl

theorem includesOf_rename (h : Hierarchy) : (h.rename f).includesOf = h.includesOf := by
  funext id
  rw [includesOf, get?_rename, Option.map_map, includesOf]
  rfl

theorem superclasses_rename (h : Hierarchy) (id : ModuleId) :
    (h.rename f).superclasses id = h.superclasses id := by
  rw [superclasses, superclass?_rename, superclasses]

theorem expand_rename (h : Hierarchy) : (h.rename f).expand = h.expand := by
  have expandTo (depth : Nat) : (h.rename f).expandTo depth = h.expandTo depth := by
    induction depth with
    | zero => rfl
    | succ depth ih =>
      funext id
      rw [Hierarchy.expandTo, ih, includesOf_rename, Hierarchy.expandTo]
  funext id
  rw [expand, size_rename, expandTo, expand]

theorem ancestors_rename (h : Hierarchy) (id : ModuleId) :
    (h.rename f).ancestors id = h.ancestors id := by
  rw [ancestors, superclasses_rename, expand_rename, ancestors]

theorem inherits_rename (h : Hierarchy) : (h.rename f).inherits = h.inherits := by
  funext id ancestor
  rw [inherits, ancestors_rename, inherits]

theorem includeModule_rename (h : Hierarchy) (target id : ModuleId) :
    (h.rename f).includeModule target id = (h.includeModule target id).map (·.rename f) := by
  rw [includeModule, isClass_rename, ancestors_rename, includeModule]
  split
  · rfl
  split
  · rfl
  · exact congrArg Except.ok (h.modify_rename target fun _ => rfl)

section Names

variable (injective : Function.Injective f) (h : Hierarchy) (name : String)
include injective

theorem ownMethod?_rename (id : ModuleId) :
    (h.rename f).ownMethod? id (f name) = (h.ownMethod? id name).map (·.rename f) := by
  rw [ownMethod?, get?_rename, Option.bind_map, ownMethod?, Option.map_bind]
  exact congrArg _ (funext fun entry => Bindings.get?_rename injective entry.methods name)

theorem ownClassMethod?_rename (id : ModuleId) :
    (h.rename f).ownClassMethod? id (f name) = (h.ownClassMethod? id name).map (·.rename f) := by
  rw [ownClassMethod?, get?_rename, Option.bind_map, ownClassMethod?, Option.map_bind]
  exact congrArg _ (funext fun entry => Bindings.get?_rename injective entry.classMethods name)

theorem lookupIn_rename (id : ModuleId) :
    (h.rename f).lookupIn id (f name) = (h.lookupIn id name).map (·.rename f) := by
  have lookupTo (depth : Nat) : ∀ id, (h.rename f).lookupTo (f name) depth id =
      (h.lookupTo name depth id).map (·.rename f) := by
    induction depth with
    | zero => exact fun _ => rfl
    | succ depth ih =>
      intro id
      rw [Hierarchy.lookupTo, ownMethod?_rename injective, Hierarchy.lookupTo]
      cases h.ownMethod? id name with
      | some method => rfl
      | none =>
        simp only [Option.map_none, includesOf_rename, List.map_findSome?]
        exact congrArg₂ _ (funext ih) rfl
  rw [lookupIn, size_rename, lookupTo, lookupIn]

theorem findMethod_rename (id : ModuleId) :
    (h.rename f).findMethod id (f name) = (h.findMethod id name).map (·.rename f) := by
  rw [findMethod, superclasses_rename, findMethod, List.map_findSome?]
  exact congrArg₂ _ (funext fun id => h.lookupIn_rename injective name id) rfl

theorem findClassMethod_rename (id : ModuleId) :
    (h.rename f).findClassMethod id (f name) = (h.findClassMethod id name).map (·.rename f) := by
  rw [findClassMethod, superclasses_rename, findClassMethod, List.map_findSome?]
  exact congrArg₂ _ (funext fun id => h.ownClassMethod?_rename injective name id) rfl

theorem search_rename (table : MethodSearch) (id : ModuleId) :
    (h.rename f).search table id (f name) = (h.search table id name).map (·.rename f) := by
  cases table with
  | instanceMethod => exact h.findMethod_rename injective name id
  | ownInstanceMethod => exact h.ownMethod?_rename injective name id
  | classMethod => exact h.findClassMethod_rename injective name id
  | ownClassMethod => exact h.ownClassMethod?_rename injective name id

theorem firstEntry_rename (list : List ModuleId) : ∀ place,
    (h.rename f).firstEntry (f name) place list =
      (h.firstEntry name place list).map fun entry => (entry.1, entry.2.rename f) := by
  induction list with
  | nil => exact fun _ => rfl
  | cons id rest ih =>
    intro place
    rw [firstEntry, ownMethod?_rename injective, firstEntry]
    cases h.ownMethod? id name with
    | some method => rfl
    | none => exact ih (place + 1)

theorem findMethodAfter_rename (cls owner : ModuleId) (recorded : Option Nat) :
    (h.rename f).findMethodAfter cls owner (f name) recorded =
      (h.findMethodAfter cls owner name recorded).map fun entry => (entry.1, entry.2.rename f) := by
  rw [findMethodAfter, ancestors_rename, findMethodAfter, Option.map_bind]
  exact congrArg _ (funext fun place => h.firstEntry_rename injective name _ _)

theorem findClassMethodAfter_rename (id owner : ModuleId) :
    (h.rename f).findClassMethodAfter id owner (f name) =
      (h.findClassMethodAfter id owner name).map (·.rename f) := by
  rw [findClassMethodAfter, superclasses_rename, findClassMethodAfter, List.map_findSome?]
  exact congrArg₂ _ (funext fun id => h.ownClassMethod?_rename injective name id) rfl

theorem isMethodDefined_rename (owner : ModuleId) :
    (h.rename f).isMethodDefined owner (f name) = h.isMethodDefined owner name := by
  rw [isMethodDefined, findMethod_rename injective, Method.defined?_rename, Option.isSome_map,
    isMethodDefined]

theorem defineMethod_rename (owner : ModuleId) (method : Method) :
    (h.rename f).defineMethod owner (method.rename f) = (h.defineMethod owner method).rename f :=
  h.modify_rename owner fun entry => congrArg (fun methods => { entry.rename f with methods })
    (Bindings.insert_rename injective entry.methods method.name method)

theorem defineClassMethod_rename (owner : ModuleId) (method : Method) :
    (h.rename f).defineClassMethod owner (method.rename f) =
      (h.defineClassMethod owner method).rename f :=
  h.modify_rename owner fun entry =>
    congrArg (fun classMethods => { entry.rename f with classMethods })
      (Bindings.insert_rename injective entry.classMethods method.name method)

theorem removeMethod_rename (owner : ModuleId) :
    (h.rename f).removeMethod owner (f name) = (h.removeMethod owner name).rename f :=
  h.modify_rename owner fun entry => congrArg (fun methods => { entry.rename f with methods })
    (Bindings.erase_rename injective entry.methods name)

end Names

end Hierarchy

end ObjectRuntime
