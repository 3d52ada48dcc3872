import ObjectRuntime.Proofs.Dispatch.Direct
import ObjectRuntime.Proofs.Machine.Moves

/-!
# Which rescue receives a refused opening

Opening a class or a module is refused where its name is bound to something else, or where the class
has another superclass. The exception is then raised from the lexical frame of the opening and not
from the frame that runs, so its target is the nearest rescue on the lexical frame or its callers.
`refused_opening_target` says when this is the rescue nearest to the frame that runs. A place has no
callers: an opening in the frame of a module is rescued on that frame or not at all, however many
rescues the running frame and its callers have.
-/

set_option autoImplicit false

namespace ObjectRuntime

open Run

/-! ### The nearest rescue -/

namespace Frames

variable {fs : Frames} {accepts : TargetKind → Bool} {env id : FrameId} {token : Token}

def targetOn? (fs : Frames) (accepts : TargetKind → Bool) (id : FrameId) : Option Token :=
  (fs.get? id).bind fun f => f.findTarget accepts

def rescuer? (fs : Frames) (env : FrameId) : Option FrameId :=
  (fs.callers env).find? fun id => (fs.targetOn? isRescue id).isSome

theorem findTarget_eq_rescuer? (fs : Frames) (env : FrameId) :
    fs.findTarget env isRescue = (fs.rescuer? env).bind (fs.targetOn? isRescue) := by
  rw [findTarget_eq, rescuer?]
  change (fs.callers env).findSome? (fs.targetOn? isRescue) = _
  induction fs.callers env with
  | nil => rfl
  | cons id rest ih =>
    rw [List.findSome?_cons, List.find?_cons]
    cases on_id : fs.targetOn? isRescue id with
    | none => exact ih
    | some token => exact on_id.symm

theorem targetOn?_of_rescuer? (found : fs.rescuer? env = some id) :
    ∃ token, fs.targetOn? isRescue id = some token ∧ fs.findTarget env isRescue = some token := by
  have has_rescue := List.find?_some (p := fun id => (fs.targetOn? isRescue id).isSome) found
  obtain ⟨token, on_id⟩ := Option.isSome_iff_exists.1 has_rescue
  refine ⟨token, on_id, ?_⟩
  rw [findTarget_eq_rescuer?, found]
  exact on_id

theorem exists_of_targetOn? (on_id : fs.targetOn? accepts id = some token) :
    ∃ t ∈ fs.targetsOf id, t.token = token := by
  obtain ⟨f, at_id, found⟩ := Option.bind_eq_some_iff.1 on_id
  obtain ⟨t, is_target, rfl⟩ := Option.map_eq_some_iff.1 found
  refine ⟨t, ?_, rfl⟩
  rw [targetsOf, at_id]
  exact List.mem_of_find?_eq_some is_target

theorem rescuer?_of_uncalled (uncalled : fs.caller? id = none) :
    fs.rescuer? id = if (fs.targetOn? isRescue id).isSome then some id else none := by
  rw [rescuer?, callers_of_uncalled uncalled, List.find?_singleton]

theorem targetOn?_pushTarget (present : env.index < fs.size) (token : Token) :
    (fs.modify env fun f => f.pushTarget ⟨token, .rescue⟩).targetOn? isRescue env = some token := by
  obtain ⟨f, at_env⟩ := get?_isSome present
  rw [targetOn?, get?_modify, if_pos rfl, at_env]
  rfl

end Frames

namespace Machine

variable {m : Machine} {env env' id id' lexical : FrameId}

theorem Ticketed.eq_of_targetOn? (ticketed : m.Ticketed) {accepts accepts' : TargetKind → Bool}
    {token : Token} (on_id : m.frames.targetOn? accepts id = some token)
    (on_id' : m.frames.targetOn? accepts' id' = some token) : id = id' := by
  obtain ⟨t, mem, rfl⟩ := Frames.exists_of_targetOn? on_id
  obtain ⟨t', mem', same⟩ := Frames.exists_of_targetOn? on_id'
  exact ticketed.apart id id' t t' mem mem' same.symm

theorem Ticketed.findTarget_eq_iff (ticketed : m.Ticketed) :
    m.frames.findTarget env isRescue = m.frames.findTarget env' isRescue ↔
      m.frames.rescuer? env = m.frames.rescuer? env' := by
  constructor
  · intro same
    cases found : m.frames.rescuer? env with
    | none =>
      rw [m.frames.findTarget_eq_rescuer? env, found] at same
      cases found' : m.frames.rescuer? env' with
      | none => rfl
      | some id' =>
        obtain ⟨token, -, target⟩ := Frames.targetOn?_of_rescuer? found'
        cases same.trans target
    | some id =>
      obtain ⟨token, on_id, target⟩ := Frames.targetOn?_of_rescuer? found
      rw [target] at same
      cases found' : m.frames.rescuer? env' with
      | none =>
        rw [m.frames.findTarget_eq_rescuer? env', found'] at same
        cases same
      | some id' =>
        obtain ⟨token', on_id', target'⟩ := Frames.targetOn?_of_rescuer? found'
        obtain rfl := Option.some.inj (same.trans target')
        exact congrArg some (ticketed.eq_of_targetOn? on_id on_id')
  · intro same
    rw [Frames.findTarget_eq_rescuer?, Frames.findTarget_eq_rescuer?, same]

theorem Ticketed.findTarget_opened_iff (ticketed : m.Ticketed)
    (present : env.index < m.frames.size) :
    (m.opened env .rescue).frames.findTarget lexical isRescue =
        some (m.nextTarget .rescue).token ↔
      (m.opened env .rescue).frames.rescuer? lexical = some env := by
  have on_env : (m.opened env .rescue).frames.targetOn? isRescue env =
      some (m.nextTarget .rescue).token := Frames.targetOn?_pushTarget present _
  rw [Frames.findTarget_eq_rescuer?]
  constructor
  · intro target
    obtain ⟨id, found, on_id⟩ := Option.bind_eq_some_iff.1 target
    rw [found, (ticketed.opened env .rescue).eq_of_targetOn? on_id on_env]
  · intro found
    rw [found]
    exact on_env

theorem rescuer?_opened (present : env.index < m.frames.size) :
    (m.opened env .rescue).frames.rescuer? env = some env := by
  have on_env : (m.opened env .rescue).frames.targetOn? isRescue env =
      some (m.nextTarget .rescue).token := Frames.targetOn?_pushTarget present _
  rw [Frames.rescuer?, Frames.callers, chain_eq, List.find?_cons_of_pos]
  rw [on_env]
  rfl

end Machine

/-- A rescue delivers the exceptions that carry its own token, and lets others pass. -/
theorem Run.rescue_of_raise {env : FrameId} {body : Run Value} {m m' : Machine} {id : ObjectId}
    {target : Option Token}
    (raises : body (m.opened env .rescue) = (.error (.signal (.raise id target)), m')) :
    ∃ m'', m''.heap = m'.heap ∧
      rescue env body m = (if target = some (m.nextTarget .rescue).token
        then .ok (.delivered (.object id)) else .error (.signal (.raise id target)), m'') := by
  have ended : withTarget env .rescue body m =
      (.ok ((m.nextTarget .rescue).token, (body (m.opened env .rescue)).1),
        (body (m.opened env .rescue)).2.closed env (m.nextTarget .rescue).token) := rfl
  unfold rescue
  rw [run_bind, ended, raises]
  dsimp only
  split
  next =>
    refine ⟨_, ?_, rfl⟩
    rfl
  next =>
    refine ⟨_, ?_, rfl⟩
    rfl

/-! ### Openings -/

inductive Opening where
  | ofClass (name : String) (superclass : Option ModuleId)
  | ofModule (name : String)

def Opening.run (lexical : FrameId) : Opening → Run ModuleId
  | .ofClass name superclass => openClass lexical name superclass
  | .ofModule name => openModule lexical name

def Opening.object (lexical : FrameId) (o : Opening) : Run Value := do
  let id ← o.run lexical
  read fun m => m.moduleObject id

/-- What stands in the way of an opening. -/
inductive Machine.Refuses (m : Machine) (lexical : FrameId) : Opening → Fault → Prop where
  | notAClass {name : String} {superclass : Option ModuleId} {v : Value}
      (bound : m.frames.lookupLocal lexical name = some v)
      (other : ∀ id, m.module? v = some id → m.hierarchy.isClass id = false) :
      Refuses m lexical (.ofClass name superclass) (.notAClass name)
  | superclassMismatch {name : String} {asked id : ModuleId} {v : Value}
      (bound : m.frames.lookupLocal lexical name = some v) (is : m.module? v = some id)
      (is_class : m.hierarchy.isClass id = true)
      (differs : m.hierarchy.superclass? id ≠ some asked) :
      Refuses m lexical (.ofClass name (some asked)) (.superclassMismatch name)
  | notAModule {name : String} {v : Value}
      (bound : m.frames.lookupLocal lexical name = some v)
      (other : ∀ id, m.module? v = some id → m.hierarchy.isClass id = true) :
      Refuses m lexical (.ofModule name) (.notAModule name)

namespace Machine

variable {m : Machine} {lexical : FrameId} {o : Opening} {fault : Fault}

theorem Refuses.cls (refuses : m.Refuses lexical o fault) : fault.cls = Core.typeError.id := by
  cases refuses <;> rfl

theorem Refuses.run (refuses : m.Refuses lexical o fault) :
    o.run lexical m = fail lexical fault m := by
  cases refuses with
  | @notAClass name superclass v bound other =>
    have none_left : (m.module? v).filter m.hierarchy.isClass = none := by
      rw [Option.filter_eq_none_iff]
      intro id is
      rw [other id is]
      exact Bool.false_ne_true
    change openClass lexical name superclass m = _
    unfold openClass
    simp only [run_bind, run_read, bound, Option.map_some, none_left]
  | @superclassMismatch name asked id v bound is is_class differs =>
    have left : (m.module? v).filter m.hierarchy.isClass = some id := by
      rw [is, Option.filter_some, if_pos is_class]
    have mismatch : (some asked == m.hierarchy.superclass? id) = false :=
      beq_eq_false_iff_ne.2 (Ne.symm differs)
    change openClass lexical name (some asked) m = _
    unfold openClass
    simp only [run_bind, run_read, bound, Option.map_some, left, mismatch, Option.isNone_some,
      Bool.false_or, Bool.false_eq_true, if_false]
  | @notAModule name v bound other =>
    have none_left : (m.module? v).filter (fun id => !m.hierarchy.isClass id) = none := by
      rw [Option.filter_eq_none_iff]
      intro id is
      rw [other id is]
      exact Bool.false_ne_true
    change openModule lexical name m = _
    unfold openModule
    simp only [run_bind, run_read, bound, Option.map_some, none_left]

theorem run_of_not_refuses (free : ∀ fault, ¬ m.Refuses lexical o fault) :
    ∃ id m', o.run lexical m = (.ok id, m') := by
  cases o with
  | ofClass name superclass =>
    change ∃ id m', openClass lexical name superclass m = (.ok id, m')
    unfold openClass
    cases bound : m.frames.lookupLocal lexical name with
    | none =>
      simp only [run_bind, run_read, bound, Option.map_none]
      exact ⟨_, _, rfl⟩
    | some v =>
      cases left : (m.module? v).filter m.hierarchy.isClass with
      | none =>
        rw [Option.filter_eq_none_iff] at left
        exact absurd (.notAClass bound fun id is => Bool.eq_false_iff.2 (left id is)) (free _)
      | some id =>
        obtain ⟨is, is_class⟩ := Option.filter_eq_some_iff.1 left
        have agrees : (superclass.isNone || superclass == m.hierarchy.superclass? id) = true := by
          cases superclass with
          | none => rfl
          | some asked =>
            refine beq_iff_eq.2 (Decidable.not_not.1 ?_)
            exact fun differs =>
              free _ (.superclassMismatch bound is is_class (Ne.symm differs))
        simp only [run_bind, run_read, bound, Option.map_some, left, agrees, if_true]
        exact ⟨_, _, rfl⟩
  | ofModule name =>
    change ∃ id m', openModule lexical name m = (.ok id, m')
    unfold openModule
    cases bound : m.frames.lookupLocal lexical name with
    | none =>
      simp only [run_bind, run_read, bound, Option.map_none]
      exact ⟨_, _, rfl⟩
    | some v =>
      cases left : (m.module? v).filter fun id => !m.hierarchy.isClass id with
      | none =>
        rw [Option.filter_eq_none_iff] at left
        refine absurd (.notAModule bound fun id is => ?_) (free _)
        simpa using left id is
      | some id =>
        simp only [run_bind, run_read, bound, Option.map_some, left]
        exact ⟨_, _, rfl⟩

theorem Refuses.opened (refuses : m.Refuses lexical o fault) (env : FrameId) (kind : TargetKind) :
    (m.opened env kind).Refuses lexical o fault := by
  have bindings : ∀ {name v}, m.frames.lookupLocal lexical name = some v →
      (m.opened env kind).frames.lookupLocal lexical name = some v := by
    intro name v bound
    exact (Frames.bind_get?_modify m.frames env lexical (fun f => f.pushTarget (m.nextTarget kind))
      (fun f => f.bindings.get? name) fun _ => rfl).trans bound
  cases refuses with
  | notAClass bound other => exact .notAClass (bindings bound) other
  | superclassMismatch bound is is_class differs =>
    exact .superclassMismatch (bindings bound) is is_class differs
  | notAModule bound other => exact .notAModule (bindings bound) other

/-! ### Where the exception goes -/

theorem Refuses.raises (refuses : m.Refuses lexical o fault) :
    ∃ id m', o.run lexical m =
        (.error (.signal (.raise id (m.frames.findTarget lexical isRescue))), m') ∧
      m'.exceptionKind? id = some (Core.typeError.id, fault.message) := by
  obtain ⟨m', failing, kind⟩ := fail_eq (α := ModuleId) lexical fault m
  rw [refuses.cls] at kind
  exact ⟨_, m', refuses.run.trans failing, kind⟩

/-- A rescue on the frame, around the opening, receives the exception of the fault. -/
def Delivers (m : Machine) (env lexical : FrameId) (o : Opening) (fault : Fault) : Prop :=
  ∃ id m', rescue env (o.object lexical) m = (.ok (.delivered (.object id)), m') ∧
    m'.exceptionKind? id = some (Core.typeError.id, fault.message)

theorem Refuses.delivers_iff (refuses : m.Refuses lexical o fault) (ticketed : m.Ticketed)
    {env : FrameId} (present : env.index < m.frames.size) :
    m.Delivers env lexical o fault ↔
      (m.opened env .rescue).frames.rescuer? lexical = some env := by
  obtain ⟨id, failed, raised, kind⟩ := (refuses.opened env .rescue).raises
  have ends : o.object lexical (m.opened env .rescue) = (.error (.signal (.raise id
      ((m.opened env .rescue).frames.findTarget lexical isRescue))), failed) := by
    rw [Opening.object, run_bind, raised]
  obtain ⟨m', heap, rescued⟩ := rescue_of_raise ends
  rw [← ticketed.findTarget_opened_iff present]
  by_cases takes : (m.opened env .rescue).frames.findTarget lexical isRescue =
      some (m.nextTarget .rescue).token
  · rw [if_pos takes] at rescued
    refine iff_of_true ⟨id, m', rescued, ?_⟩ takes
    rw [exceptionKind?, heap]
    exact kind
  · rw [if_neg takes] at rescued
    refine iff_of_false ?_ takes
    rintro ⟨_, _, delivered, -⟩
    cases rescued.symm.trans delivered

/-- The exception of a refused opening goes to the nearest rescue on the lexical frame or one of its
callers. That is the nearest one of another frame exactly if both searches end on the same frame. A
rescue around the opening receives it exactly if no rescue is nearer to the lexical frame; in the
frame of the program or of a module, exactly if it is registered on that very frame. -/
theorem refused_opening_target (met : m.Encountered) (o : Opening) (lexical : FrameId) :
    ((∀ fault, ¬ m.Refuses lexical o fault) → ∃ id m', o.run lexical m = (.ok id, m')) ∧
    ∀ fault, m.Refuses lexical o fault →
      (∃ id m', o.run lexical m =
          (.error (.signal (.raise id (m.frames.findTarget lexical isRescue))), m') ∧
        m'.exceptionKind? id = some (Core.typeError.id, fault.message)) ∧
      (∀ env, m.frames.findTarget lexical isRescue = m.frames.findTarget env isRescue ↔
        m.frames.rescuer? lexical = m.frames.rescuer? env) ∧
      (m.IsPlace lexical → m.frames.rescuer? lexical =
        if (m.frames.targetOn? isRescue lexical).isSome then some lexical else none) ∧
      ∀ env : FrameId, env.index < m.frames.size →
        (m.Delivers env lexical o fault ↔
          (m.opened env .rescue).frames.rescuer? lexical = some env) ∧
        (lexical = env → m.Delivers env lexical o fault) ∧
        (m.IsPlace lexical → m.Delivers env lexical o fault → lexical = env) := by
  have uncalled : ∀ {m' : Machine}, m'.Encountered → m'.IsPlace lexical →
      m'.frames.rescuer? lexical =
        if (m'.frames.targetOn? isRescue lexical).isSome then some lexical else none :=
    fun met place => Frames.rescuer?_of_uncalled (met.housed.uncalled lexical place)
  refine ⟨run_of_not_refuses, ?_⟩
  intro fault refuses
  refine ⟨refuses.raises, fun env => met.ticketed.findTarget_eq_iff, uncalled met, ?_⟩
  intro env present
  have delivers := refuses.delivers_iff met.ticketed present
  refine ⟨delivers, ?_, ?_⟩
  · rintro rfl
    exact delivers.2 (rescuer?_opened present)
  · intro place delivered
    have found := delivers.1 delivered
    rw [uncalled (met.moves (.single (.register env .rescue))) place] at found
    split at found
    next => exact Option.some.inj found
    next => cases found

/-- A new machine on which module `M` holds module `X`, and a rescue is active in the main frame. -/
def nested : Machine :=
  let opening : Expr := .seq (.prim (.openModule "M" .main) .nil)
    (.prim (.openModule "X" .inModule) (.cons (.constant "M") .nil))
  ((boot { Settings.standard with callDepthLimit := some 2 }).runProgram opening).2.opened .main
    .rescue

theorem nested_encountered : nested.Encountered :=
  (Encountered.runProgram ⟨_, .refl⟩ _).moves (.single (.register .main .rescue))

def nestedFrame : FrameId := (Run.ownerFrame nested ⟨36⟩).getD .main

theorem nestedFrame_place : nested.IsPlace nestedFrame := .inr ⟨⟨36⟩, by decide +kernel⟩

theorem nested_refuses (superclass : Option ModuleId) :
    nested.Refuses nestedFrame (.ofClass "X" superclass) (.notAClass "X") := by
  have is_module : (nested.frames.lookupLocal nestedFrame "X").bind nested.module? = some ⟨37⟩ := by
    decide +kernel
  obtain ⟨v, bound, is⟩ := Option.bind_eq_some_iff.1 is_module
  refine .notAClass bound ?_
  intro id is'
  obtain rfl := Option.some.inj (is.symm.trans is')
  decide +kernel

theorem refused_opening_target_nested :
    nested.Encountered ∧ nested.IsPlace nestedFrame ∧
    nested.Refuses nestedFrame (.ofClass "X" none) (.notAClass "X") ∧
    nestedFrame.index < nested.frames.size ∧
    nested.Delivers nestedFrame nestedFrame (.ofClass "X" none) (.notAClass "X") := by
  have present : nestedFrame.index < nested.frames.size := by decide +kernel
  obtain ⟨-, at_refusal⟩ :=
    refused_opening_target nested_encountered (.ofClass "X" none) nestedFrame
  obtain ⟨-, -, -, delivers⟩ := at_refusal _ (nested_refuses none)
  exact ⟨nested_encountered, nestedFrame_place, nested_refuses none, present,
    (delivers nestedFrame present).2.1 rfl⟩

/-- The main frame has a rescue, but the exception has no target, and a rescue more on the main
frame, around the opening itself, does not receive it. -/
theorem opening_misses_rescue :
    nested.Encountered ∧ nested.IsPlace nestedFrame ∧
    nested.frames.findTarget .main isRescue = some ⟨1⟩ ∧
    (∃ id m', (Opening.ofClass "X" none).run nestedFrame nested =
        (.error (.signal (.raise id none)), m') ∧
      m'.exceptionKind? id = some (Core.typeError.id, (Fault.notAClass "X").message)) ∧
    ¬ nested.Delivers .main nestedFrame (.ofClass "X" none) (.notAClass "X") := by
  have refuses := nested_refuses none
  have no_target : nested.frames.findTarget nestedFrame isRescue = none := by decide +kernel
  have present : FrameId.main.index < nested.frames.size := by decide +kernel
  refine ⟨nested_encountered, nestedFrame_place, by decide +kernel, ?_, ?_⟩
  · exact no_target ▸ refuses.raises
  · rw [refuses.delivers_iff nested_encountered.ticketed present]
    decide +kernel

end Machine

end ObjectRuntime
