import ObjectRuntime.Proofs.Machine.Programs

/-!
# Moments of a run

A move is what happens between one moment of a run and the next, whatever the program: an operation,
or a call, a handler or a scope that is opened or closed, in any frame. Every evaluation is a
sequence of moves, and the machines that moves lead to from a new one are `Encountered`. On all of
them a token stands for one registration, on one frame; and the places, which are the main frame and
the frames of classes and modules, have no caller, since only the new frame of a call or a scope
gets one.
-/

set_option autoImplicit false

namespace ObjectRuntime

inductive Move (m : Machine) : Machine → Prop where
  | operate {m' : Machine} (calm : Calm (fun _ => True) m m') : Move m m'
  | enter (f : Frame) (bare : f.targets = []) : Move m (m.entered f)
  | leave (frame : FrameId) (previous : Option FrameId) : Move m (Run.leaveCall frame previous m)
  | register (env : FrameId) (kind : TargetKind) : Move m (m.opened env kind)
  | withdraw (env : FrameId) (token : Token) : Move m (m.closed env token)
  | openScope (kind : FrameKind) (env : FrameId) (linked : Bool) :
      Move m (m.called (.scope kind env linked) m.current)
  | closeScope (frame : FrameId) : Move m (Run.unlink frame m)

abbrev Moves : Machine → Machine → Prop := Relation.ReflTransGen Move

theorem Move.step {m m' : Machine} (move : Move m m') : Step m m' := by
  cases move with
  | operate calm => exact .change calm.change
  | enter | leave | register | withdraw | openScope | closeScope => exact .call _ _ _ _

theorem Calm.move {P : Expr → Prop} {m m' : Machine} (calm : Calm P m m') : Move m m' :=
  .operate ⟨calm.change.forget, calm.keeps⟩

/-- The course of an evaluation, whatever its code may do, is a sequence of moves. -/
theorem Course.moves {r : Rule} {away : Bool} {env : FrameId} {m m' : Machine}
    (course : Course r away env m m') : Moves m m' := by
  induction course with
  | calm calmly => exact Relation.ReflTransGen.mono (fun _ _ calm => calm.move) _ _ calmly
  | trans _ _ first second => exact first.trans second
  | call f _ called _ _ ih =>
    exact ((Relation.ReflTransGen.single (.enter f called.targets)).trans ih).tail (.leave _ _)
  | @handler _ env _ _ kind _ ih =>
    exact ((Relation.ReflTransGen.single (.register env kind)).trans ih).tail (.withdraw _ _)
  | @scope _ env _ _ kind linked _ _ ih =>
    exact ((Relation.ReflTransGen.single (.openScope kind env linked)).trans ih).tail
      (.closeScope _)
  | elsewhere _ _ _ ih => exact ih

namespace Machine

variable {m m' : Machine}

/-- The machine is one in the middle of some run, or at its start or its end. -/
def Encountered (m : Machine) : Prop := ∃ settings, Moves (.boot settings) m

theorem Encountered.moves (met : m.Encountered) (moves : Moves m m') : m'.Encountered := by
  obtain ⟨settings, before⟩ := met
  exact ⟨settings, before.trans moves⟩

theorem Encountered.reachable (met : m.Encountered) : m.Reachable := by
  obtain ⟨settings, moves⟩ := met
  exact ⟨settings, Relation.ReflTransGen.mono (fun _ _ move => move.step) _ _ moves⟩

theorem Encountered.induction (I : Machine → Prop) (boot : ∀ settings, I (.boot settings))
    (move : ∀ m m', I m → Move m m' → I m') (met : m.Encountered) : I m := by
  obtain ⟨settings, moves⟩ := met
  induction moves with
  | refl => exact boot settings
  | tail _ last ih => exact move _ _ ih last

theorem Encountered.eval (met : m.Encountered) (calls : Nat) (c : Context) (e : Expr) :
    (Run.eval (runEntry calls) c e m).2.Encountered := by
  have allowed : m.Valid (Allowed true) := met.reachable.valid.of_all fun _ => .of_free _
  have blocks : AllowedBlock true c.block := fun b _ => .of_all (fun _ => .of_free _) b.entry
  have takes : Run.Takes true true c.frame _ :=
    Run.takes_eval (Run.takes_runEntry calls) c blocks e (.of_free _)
  exact met.moves (takes m allowed).moves

theorem Encountered.runProgram (met : m.Encountered) (program : Expr) :
    (m.runProgram program).2.Encountered := by
  have cleared : m.clearLog.Encountered := met.moves (.single (.operate
    ⟨.observe m.globals m.symbols m.missReason m.counters { m.desk with log := [] } m.heap.gate,
      .refl _⟩))
  exact cleared.eval m.settings.nesting _ program

end Machine

/-! ### Targets on a frame -/

namespace Frames

variable {fs : Frames} {env id : FrameId}

theorem mem_targetsOf_pushTarget {t u : Target}
    (mem : t ∈ (fs.modify env fun f => f.pushTarget u).targetsOf id) :
    t ∈ fs.targetsOf id ∨ id = env ∧ t = u := by
  rw [targetsOf, get?_modify] at mem
  split at mem
  next same =>
    cases at_id : fs.get? id with
    | none =>
      rw [at_id] at mem
      cases mem
    | some f =>
      rw [at_id] at mem
      obtain is_new | before := List.mem_cons.1 mem
      · exact .inr ⟨same.symm, is_new⟩
      · rw [targetsOf, at_id]
        exact .inl before
  next => exact .inl mem

theorem mem_targetsOf_dropTarget {t : Target} {token : Token}
    (mem : t ∈ (fs.modify env fun f => f.dropTarget token).targetsOf id) :
    t ∈ fs.targetsOf id := by
  by_cases same : env = id
  · subst same
    rw [targetsOf_dropTarget] at mem
    exact List.mem_of_mem_eraseP mem
  · rwa [targetsOf_modify_of_ne fs _ same] at mem

end Frames

/-! ### What a token stands for -/

namespace Machine

/-- The targets carry tokens that were handed out, and no two frames share one. -/
structure Ticketed (m : Machine) : Prop where
  issued : ∀ id, ∀ t ∈ m.frames.targetsOf id, t.token.serial ≤ m.tokens
  apart : ∀ id id' t t', t ∈ m.frames.targetsOf id → t' ∈ m.frames.targetsOf id' →
    t.token = t'.token → id = id'

variable {m m' : Machine}

theorem ticketed_boot (settings : Settings) : (boot settings).Ticketed := by
  have none_at : ∀ id, (boot settings).frames.targetsOf id = [] := by
    intro id
    rw [Frames.targetsOf]
    cases at_id : (boot settings).frames.get? id with
    | none => rfl
    | some f => exact (idle_boot at_id).targets
  refine ⟨?_, ?_⟩
  · intro id t mem
    rw [none_at] at mem
    cases mem
  · intro id _ t _ mem _ _
    rw [none_at] at mem
    cases mem

theorem Ticketed.of_kept (ticketed : m.Ticketed) (tokens : m'.tokens = m.tokens)
    (kept : ∀ id, ∀ t ∈ m'.frames.targetsOf id, t ∈ m.frames.targetsOf id) : m'.Ticketed := by
  refine ⟨?_, ?_⟩
  · intro id t mem
    rw [tokens]
    exact ticketed.issued id t (kept id t mem)
  · exact fun id id' t t' mem mem' => ticketed.apart id id' t t' (kept id t mem) (kept id' t' mem')

theorem Ticketed.opened (ticketed : m.Ticketed) (env : FrameId) (kind : TargetKind) :
    (m.opened env kind).Ticketed := by
  have cases_of : ∀ {id t}, t ∈ (m.opened env kind).frames.targetsOf id →
      t ∈ m.frames.targetsOf id ∨ id = env ∧ t = m.nextTarget kind :=
    Frames.mem_targetsOf_pushTarget
  -- the new token is larger than all that were handed out
  have unlike : ∀ {id t}, t ∈ m.frames.targetsOf id → t.token ≠ (m.nextTarget kind).token := by
    intro id t mem same
    have le := ticketed.issued id t mem
    rw [same] at le
    exact Nat.not_succ_le_self _ le
  refine ⟨?_, ?_⟩
  · intro id t mem
    obtain before | ⟨-, rfl⟩ := cases_of mem
    · exact Nat.le_succ_of_le (ticketed.issued id t before)
    · exact Nat.le_refl _
  · intro id id' t t' mem mem' same
    obtain before | ⟨at_env, rfl⟩ := cases_of mem
    · obtain before' | ⟨-, rfl⟩ := cases_of mem'
      · exact ticketed.apart id id' t t' before before' same
      · exact absurd same (unlike before)
    · obtain before' | ⟨at_env', -⟩ := cases_of mem'
      · exact absurd same.symm (unlike before')
      · exact at_env.trans at_env'.symm

theorem Ticketed.of_same (ticketed : m.Ticketed) (tokens : m'.tokens = m.tokens)
    (same : ∀ id, m'.frames.targetsOf id = m.frames.targetsOf id) : m'.Ticketed := by
  refine ticketed.of_kept tokens ?_
  intro id t mem
  rwa [same] at mem

theorem Ticketed.move (ticketed : m.Ticketed) (move : Move m m') : m'.Ticketed := by
  cases move with
  | operate calm =>
    have changes : Changes (fun _ => True) m m' := .single calm.change
    exact ticketed.of_same changes.calls.2.2 calm.keeps.targets
  | enter f bare => exact ticketed.of_same rfl fun id => Frames.targetsOf_push bare
  | leave frame previous =>
    exact ticketed.of_same rfl fun id => Frames.targetsOf_modify fun _ => rfl
  | register env kind => exact ticketed.opened env kind
  | withdraw env token => exact ticketed.of_kept rfl fun id t => Frames.mem_targetsOf_dropTarget
  | openScope kind env linked => exact ticketed.of_same rfl fun id => Frames.targetsOf_push rfl
  | closeScope frame => exact ticketed.of_same rfl fun id => Frames.targetsOf_modify fun _ => rfl

theorem Encountered.ticketed (met : m.Encountered) : m.Ticketed :=
  met.induction Ticketed ticketed_boot fun _ _ => Ticketed.move

end Machine

/-! ### Where places come from -/

namespace Hierarchy

variable (h : Hierarchy) (owner id : ModuleId)

theorem frame_defineMethod (method : Method) :
    ((h.defineMethod owner method).get? id).map (·.frame) = (h.get? id).map (·.frame) :=
  map_get?_modify h owner id _ (·.frame) fun _ => rfl

theorem frame_defineClassMethod (method : Method) :
    ((h.defineClassMethod owner method).get? id).map (·.frame) = (h.get? id).map (·.frame) :=
  map_get?_modify h owner id _ (·.frame) fun _ => rfl

theorem frame_removeMethod (name : String) :
    ((h.removeMethod owner name).get? id).map (·.frame) = (h.get? id).map (·.frame) :=
  map_get?_modify h owner id _ (·.frame) fun _ => rfl

theorem frame_includeModule {h : Hierarchy} {target other : ModuleId} {after : Hierarchy}
    (done : h.includeModule target other = .ok after) (id : ModuleId) :
    (after.get? id).map (·.frame) = (h.get? id).map (·.frame) := by
  obtain ⟨-, rfl⟩ := includeModule_eq_ok done
  exact map_get?_modify h target id _ (·.frame) fun _ => rfl

end Hierarchy

theorem Change.ownerFrame_cases {P : Expr → Prop} {m m' : Machine} (change : Change P m m')
    {owner : ModuleId} {id : FrameId} (owned : Run.ownerFrame m' owner = some id) :
    Run.ownerFrame m owner = some id ∨ id = m.frames.next ∧ m'.frames.size = m.frames.size + 1 := by
  cases change with
  | make | edit | singleton | frame | observe => exact .inl owned
  | define | retag => exact .inl ((Hierarchy.frame_defineMethod ..).symm.trans owned)
  | defineClassMethod => exact .inl ((Hierarchy.frame_defineClassMethod ..).symm.trans owned)
  | remove => exact .inl ((Hierarchy.frame_removeMethod ..).symm.trans owned)
  | includeModule target other after present done =>
    exact .inl ((Hierarchy.frame_includeModule done owner).symm.trans owned)
  | create name kind superclass outer metaclass root =>
    change ((m.hierarchy.create _).get? owner).map (·.frame) = some id at owned
    rw [Hierarchy.get?_create] at owned
    split at owned
    next =>
      refine .inr ⟨(Option.some.inj owned).symm, ?_⟩
      exact Frames.size_push ..
    next => exact .inl owned

theorem Installation.frame_install (h : Hierarchy) (serial : Nat) (list : List Installation)
    (id : ModuleId) :
    ((install h serial list).get? id).map (·.frame) = (h.get? id).map (·.frame) := by
  induction list generalizing h serial with
  | nil => rfl
  | cons i rest ih => rw [install, ih, Hierarchy.frame_defineMethod]

namespace Machine

variable {m m' : Machine} {id : FrameId}

theorem IsPlace.present_boot {settings : Settings} (place : (boot settings).IsPlace id) :
    id.index < (boot settings).frames.size := by
  have inside : ∀ c : Core, c.entry.frame.index < 37 := by
    intro c
    cases c <;> decide
  have size : (boot settings).frames.size = 37 := rfl
  rw [size]
  obtain rfl | ⟨owner, owned⟩ := place
  · decide
  · have same := Installation.frame_install bareHierarchy 1 Installation.all owner
    have bare := same.symm.trans owned
    obtain ⟨entry, at_owner, rfl⟩ := Option.map_eq_some_iff.1 bare
    obtain ⟨c, rfl⟩ := get?_bareHierarchy at_owner
    exact inside c

theorem IsPlace.of_hierarchy (place : m'.IsPlace id) (hierarchy : m'.hierarchy = m.hierarchy) :
    m.IsPlace id := by
  refine place.imp_right ?_
  rintro ⟨owner, owned⟩
  refine ⟨owner, ?_⟩
  unfold Run.ownerFrame at owned ⊢
  rw [← hierarchy]
  exact owned

/-! ### Places have no callers -/

structure Housed (m : Machine) : Prop where
  present : ∀ id, m.IsPlace id → id.index < m.frames.size
  uncalled : ∀ id, m.IsPlace id → m.frames.caller? id = none

theorem housed_boot (settings : Settings) : (boot settings).Housed := by
  refine ⟨fun _ place => place.present_boot, ?_⟩
  intro id _
  rw [Frames.caller?]
  cases at_id : (boot settings).frames.get? id with
  | none => rfl
  | some f => exact (idle_boot at_id).caller

/-- A frame that is pushed is new, so it is no place. -/
theorem Housed.push (housed : m.Housed) (hierarchy : m'.hierarchy = m.hierarchy) {f : Frame}
    (frames : m'.frames = m.frames.push f) : m'.Housed := by
  refine ⟨?_, ?_⟩
  · intro id place
    rw [frames, Frames.size_push]
    exact Nat.lt_succ_of_lt (housed.present id (place.of_hierarchy hierarchy))
  · intro id place
    have before := place.of_hierarchy hierarchy
    rw [frames, Frames.caller?, Frames.get?_push_of_lt f (housed.present id before)]
    exact housed.uncalled id before

theorem Housed.modify (housed : m.Housed) (hierarchy : m'.hierarchy = m.hierarchy) {env : FrameId}
    {f : Frame → Frame} (frames : m'.frames = m.frames.modify env f)
    (callers : ∀ frame : Frame, frame.caller = none → (f frame).caller = none) : m'.Housed := by
  refine ⟨?_, ?_⟩
  · intro id place
    rw [frames, Frames.size_modify]
    exact housed.present id (place.of_hierarchy hierarchy)
  · intro id place
    have before := housed.uncalled id (place.of_hierarchy hierarchy)
    rw [frames, Frames.caller?, Frames.get?_modify]
    rw [Frames.caller?] at before
    split
    next =>
      cases at_id : m.frames.get? id with
      | none => rfl
      | some frame =>
        rw [at_id] at before
        exact callers frame before
    next => exact before

theorem Housed.operate {P : Expr → Prop} (housed : m.Housed) (calm : Calm P m m') : m'.Housed := by
  have cases_of : ∀ {id}, m'.IsPlace id →
      m.IsPlace id ∨ id = m.frames.next ∧ m'.frames.size = m.frames.size + 1 := by
    rintro id (is_main | ⟨owner, owned⟩)
    · exact .inl (.inl is_main)
    · exact (calm.change.ownerFrame_cases owned).imp_left fun before => .inr ⟨owner, before⟩
  refine ⟨?_, ?_⟩
  · intro id place
    obtain before | ⟨rfl, size⟩ := cases_of place
    · exact Nat.lt_of_lt_of_le (housed.present id before) calm.keeps.size
    · rw [size]
      exact Nat.lt_succ_self _
  · intro id place
    rw [calm.keeps.caller id]
    obtain before | ⟨rfl, -⟩ := cases_of place
    · exact housed.uncalled id before
    · rw [Frames.caller?, Frames.get?_next]
      rfl

theorem Housed.move (housed : m.Housed) (move : Move m m') : m'.Housed := by
  cases move with
  | operate calm => exact housed.operate calm
  | enter f bare => exact housed.push rfl rfl
  | openScope kind env linked => exact housed.push rfl rfl
  | leave | closeScope => exact housed.modify rfl rfl fun _ _ => rfl
  | register | withdraw => exact housed.modify rfl rfl fun _ no_caller => no_caller

theorem Encountered.housed (met : m.Encountered) : m.Housed :=
  met.induction Housed housed_boot fun _ _ => Housed.move

end Machine

theorem Frames.callers_of_uncalled {fs : Frames} {id : FrameId} (uncalled : fs.caller? id = none) :
    fs.callers id = [id] := by
  rw [callers, chain_eq, lower?, uncalled]
  rfl

end ObjectRuntime
