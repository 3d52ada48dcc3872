import ObjectRuntime.Proofs.Machine.Change

/-!
# Active targets

The targets that a search from a frame passes, innermost first, are those of the frame, of its
caller, of the caller of that, and so on. A computation that keeps the frames it found leaves them
alone; a call starts with those of its caller; registering a target puts it in front.
-/

set_option autoImplicit false

namespace ObjectRuntime

/-- The same call with the same handlers, in the same scope: what an edit of a frame's data leaves
alone. -/
structure Frame.Settled (f f' : Frame) : Prop extends f.Alike f' where
  receiver : f'.receiver = f.receiver
  outer : f'.outer = f.outer

/-- What leaving a call does to its frame: nothing is left of the caller and of the receiver that
the frame was made with. -/
structure Frame.Released (f : Frame) (g : Frame → Frame) : Prop where
  caller : ∀ frame, (g frame).caller = none
  receiver : ∀ frame : Frame, frame.receiver = f.receiver → (g frame).receiver = none
  targets : ∀ frame, (g frame).targets = frame.targets
  method : ∀ frame, (g frame).method = frame.method
  block : ∀ frame, (g frame).block = frame.block

namespace Frames

def receiver? (fs : Frames) (id : FrameId) : Option Value := (fs.get? id).bind (·.receiver)

def block? (fs : Frames) (id : FrameId) : Option Block := (fs.get? id).bind (·.block)

def targetsOf (fs : Frames) (id : FrameId) : List Target :=
  ((fs.get? id).map (·.targets)).getD []

def active (fs : Frames) (env : FrameId) : List Target := (fs.callers env).flatMap fs.targetsOf

theorem findTarget_eq_active (fs : Frames) (env : FrameId) (accepts : TargetKind → Bool) :
    fs.findTarget env accepts = ((fs.active env).find? fun t => accepts t.kind).map (·.token) := by
  rw [findTarget_eq, active]
  induction fs.callers env with
  | nil => rfl
  | cons id rest ih =>
    have at_frame : ((fs.get? id).bind fun f => f.findTarget accepts) =
        ((fs.targetsOf id).find? fun t => accepts t.kind).map (·.token) := by
      rw [targetsOf]
      cases fs.get? id with
      | none => rfl
      | some f => rfl
    rw [List.findSome?_cons, List.flatMap_cons, List.find?_append, at_frame, ih]
    cases (fs.targetsOf id).find? fun t => accepts t.kind with
    | none => rfl
    | some t => rfl

/-- No frame has another caller, receiver or targets than before, so a new one has none, and the
frames that were there have the same scope and the same block. -/
structure Keeps (fs fs' : Frames) : Prop where
  size : fs.size ≤ fs'.size
  caller : ∀ id, fs'.caller? id = fs.caller? id
  receiver : ∀ id, fs'.receiver? id = fs.receiver? id
  targets : ∀ id, fs'.targetsOf id = fs.targetsOf id
  outer : ∀ id : FrameId, id.index < fs.size → fs'.outer? id = fs.outer? id
  block : ∀ id : FrameId, id.index < fs.size → fs'.block? id = fs.block? id

variable {fs fs' fs'' : Frames} {env id : FrameId}

theorem Keeps.refl (fs : Frames) : fs.Keeps fs :=
  ⟨Nat.le_refl _, fun _ => rfl, fun _ => rfl, fun _ => rfl, fun _ _ => rfl, fun _ _ => rfl⟩

theorem Keeps.trans (first : fs.Keeps fs') (second : fs'.Keeps fs'') : fs.Keeps fs'' := by
  refine ⟨Nat.le_trans first.size second.size, ?_, ?_, ?_, ?_, ?_⟩
  · exact fun id => (second.caller id).trans (first.caller id)
  · exact fun id => (second.receiver id).trans (first.receiver id)
  · exact fun id => (second.targets id).trans (first.targets id)
  · intro id present
    rw [second.outer id (Nat.lt_of_lt_of_le present first.size), first.outer id present]
  · intro id present
    rw [second.block id (Nat.lt_of_lt_of_le present first.size), first.block id present]

theorem active_congr
    (caller : ∀ id : FrameId, id.index ≤ env.index → fs'.caller? id = fs.caller? id)
    (targets : ∀ id : FrameId, id.index ≤ env.index → fs'.targetsOf id = fs.targetsOf id) :
    fs'.active env = fs.active env := by
  have callers_eq : fs'.callers env = fs.callers env := chain_congr caller
  rw [active, active, callers_eq, List.flatMap_def, List.flatMap_def]
  refine congrArg List.flatten (List.map_congr_left ?_)
  intro id mem
  exact targets id (index_le_of_mem_chain mem)

theorem Keeps.active (keeps : fs.Keeps fs') (env : FrameId) : fs'.active env = fs.active env :=
  active_congr (fun id _ => keeps.caller id) fun id _ => keeps.targets id

theorem get?_push_of_lt (f : Frame) (present : id.index < fs.size) :
    (fs.push f).get? id = fs.get? id := by
  rw [get?_push, if_neg]
  rintro rfl
  exact Nat.lt_irrefl _ present

theorem get?_next (fs : Frames) : fs.get? fs.next = none := Array.getElem?_eq_none (Nat.le_refl _)

theorem get?_push_next (fs : Frames) (f : Frame) : (fs.push f).get? fs.next = some f := by
  rw [get?_push, if_pos rfl]

structure Bare (f : Frame) : Prop where
  caller : f.caller = none
  receiver : f.receiver = none
  targets : f.targets = []

theorem bind_get?_push {β : Type} (fs : Frames) (id : FrameId) {f : Frame}
    (field : Frame → Option β) (bare : field f = none) :
    ((fs.push f).get? id).bind field = (fs.get? id).bind field := by
  rw [get?_push]
  split
  next same => rw [same, get?_next, Option.bind_some, bare, Option.bind_none]
  next => rfl

theorem targetsOf_push {f : Frame} (bare : f.targets = []) :
    (fs.push f).targetsOf id = fs.targetsOf id := by
  rw [targetsOf, targetsOf, get?_push]
  split
  next same =>
    rw [same, get?_next, Option.map_some, bare]
    rfl
  next => rfl

theorem keeps_push (fs : Frames) {f : Frame} (bare : Bare f) : fs.Keeps (fs.push f) := by
  refine ⟨?_, ?_, ?_, ?_, ?_, ?_⟩
  · rw [size_push]
    omega
  · exact fun id => bind_get?_push fs id (·.caller) bare.caller
  · exact fun id => bind_get?_push fs id (·.receiver) bare.receiver
  · exact fun id => targetsOf_push bare.targets
  · intro id present
    rw [outer?, outer?, get?_push_of_lt f present]
  · intro id present
    rw [block?, block?, get?_push_of_lt f present]

theorem map_get?_modify {β : Type} (fs : Frames) (env id : FrameId) (f : Frame → Frame)
    (field : Frame → β) (same : ∀ frame, field (f frame) = field frame) :
    ((fs.modify env f).get? id).map field = (fs.get? id).map field := by
  rw [get?_modify]
  split
  · cases fs.get? id with
    | none => rfl
    | some frame => exact congrArg some (same frame)
  · rfl

theorem bind_get?_modify {β : Type} (fs : Frames) (env id : FrameId) (f : Frame → Frame)
    (field : Frame → Option β) (same : ∀ frame, field (f frame) = field frame) :
    ((fs.modify env f).get? id).bind field = (fs.get? id).bind field := by
  rw [get?_modify]
  split
  · cases fs.get? id with
    | none => rfl
    | some frame => exact same frame
  · rfl

theorem targetsOf_modify {f : Frame → Frame} (same : ∀ frame, (f frame).targets = frame.targets) :
    (fs.modify env f).targetsOf id = fs.targetsOf id := by
  rw [targetsOf, targetsOf, map_get?_modify fs env id f _ same]

theorem keeps_modify (fs : Frames) (env : FrameId) {f : Frame → Frame}
    (settled : ∀ frame : Frame, frame.Settled (f frame)) : fs.Keeps (fs.modify env f) := by
  refine ⟨Nat.le_of_eq (size_modify ..).symm, ?_, ?_, ?_, ?_, ?_⟩
  · exact fun id => bind_get?_modify fs env id f _ fun frame => (settled frame).caller
  · exact fun id => bind_get?_modify fs env id f _ fun frame => (settled frame).receiver
  · exact fun id => targetsOf_modify fun frame => (settled frame).targets
  · exact fun id _ => bind_get?_modify fs env id f _ fun frame => (settled frame).outer
  · exact fun id _ => bind_get?_modify fs env id f _ fun frame => (settled frame).block

theorem active_push_call (fs : Frames) {f : Frame} (caller : f.caller = some env)
    (bare : f.targets = []) (present : env.index < fs.size) :
    (fs.push f).active fs.next = fs.active env := by
  have at_next := get?_push_next fs f
  have lower : lower? FrameId.index (fs.push f).caller? fs.next = some env := by
    have below : env.index < fs.next.index := present
    rw [lower?, caller?, at_next, Option.bind_some, caller, Option.filter_some,
      if_pos (decide_eq_true below)]
  have callers_eq : (fs.push f).callers fs.next = fs.next :: (fs.push f).callers env := by
    rw [callers, chain_eq, lower]
    rfl
  have no_targets : (fs.push f).targetsOf fs.next = [] := by
    rw [targetsOf, at_next]
    exact bare
  have before : (fs.push f).active env = fs.active env := by
    refine active_congr ?_ ?_
    · intro id le
      rw [caller?, caller?, get?_push_of_lt f (by omega)]
    · intro id le
      rw [targetsOf, targetsOf, get?_push_of_lt f (by omega)]
  rw [active, callers_eq, List.flatMap_cons, no_targets, List.nil_append]
  exact before

/-- Leaving a call unlinks its frame, which was not there before the call. -/
theorem Keeps.leave {f : Frame} {g : Frame → Frame} (keeps : (fs.push f).Keeps fs')
    (no_targets : f.targets = []) (released : f.Released g) :
    fs.Keeps (fs'.modify fs.next g) := by
  have at_next := get?_push_next fs f
  have others : ∀ {id : FrameId}, fs.next ≠ id → (fs.push f).get? id = fs.get? id :=
    fun other => by rw [get?_push, if_neg (Ne.symm other)]
  have other_of_lt : ∀ {id : FrameId}, id.index < fs.size → fs.next ≠ id := by
    rintro id present rfl
    exact Nat.lt_irrefl _ present
  refine ⟨?_, ?_, ?_, ?_, ?_, ?_⟩
  · have grown := keeps.size
    rw [size_push] at grown
    rw [size_modify]
    omega
  · intro id
    rw [caller?, get?_modify]
    split
    next same =>
      subst same
      rw [caller?, get?_next, Option.bind_map]
      cases fs'.get? fs.next with
      | none => rfl
      | some frame => exact released.caller frame
    next other =>
      have kept := keeps.caller id
      rwa [caller?, caller?, others other] at kept
  · intro id
    have kept := keeps.receiver id
    rw [receiver?, receiver?] at kept
    rw [receiver?, get?_modify]
    split
    next same =>
      subst same
      rw [at_next] at kept
      rw [receiver?, get?_next, Option.bind_map]
      cases at_frame : fs'.get? fs.next with
      | none => rfl
      | some frame =>
        rw [at_frame] at kept
        exact released.receiver frame kept
    next other => rwa [others other] at kept
  · intro id
    rw [targetsOf_modify released.targets, keeps.targets id, targetsOf_push no_targets]
  · intro id present
    have other := other_of_lt present
    have kept := keeps.outer id (by rw [size_push]; omega)
    rw [outer?, get?_modify, if_neg other]
    rwa [outer?, outer?, others other] at kept
  · intro id present
    have other := other_of_lt present
    have kept := keeps.block id (by rw [size_push]; omega)
    rw [block?, get?_modify, if_neg other]
    rwa [block?, block?, others other] at kept

/-! ### Registering and withdrawing a target -/

theorem get?_isSome (present : env.index < fs.size) : ∃ f, fs.get? env = some f :=
  ⟨_, Array.getElem?_eq_getElem present⟩

theorem caller?_modify (fs : Frames) (env id : FrameId) (f : Frame → Frame)
    (same : ∀ frame : Frame, (f frame).caller = frame.caller) :
    (fs.modify env f).caller? id = fs.caller? id :=
  bind_get?_modify fs env id f (·.caller) same

theorem targetsOf_pushTarget (present : env.index < fs.size) (t : Target) :
    (fs.modify env fun f => f.pushTarget t).targetsOf env = t :: fs.targetsOf env := by
  obtain ⟨f, at_env⟩ := get?_isSome present
  rw [targetsOf, targetsOf, get?_modify, if_pos rfl, at_env]
  rfl

theorem targetsOf_modify_of_ne (fs : Frames) (f : Frame → Frame) (other : env ≠ id) :
    (fs.modify env f).targetsOf id = fs.targetsOf id := by
  rw [targetsOf, targetsOf, get?_modify, if_neg other]

theorem targetsOf_dropTarget (fs : Frames) (env : FrameId) (token : Token) :
    (fs.modify env fun f => f.dropTarget token).targetsOf env =
      (fs.targetsOf env).eraseP fun t => t.token == token := by
  rw [targetsOf, targetsOf, get?_modify, if_pos rfl]
  cases fs.get? env with
  | none => rfl
  | some f => rfl

theorem eraseP_targetsOf_pushTarget (fs : Frames) (env : FrameId) (t : Target) :
    (((fs.modify env fun f => f.pushTarget t).targetsOf env).eraseP fun other =>
      other.token == t.token) = fs.targetsOf env := by
  rw [targetsOf, targetsOf, get?_modify, if_pos rfl]
  cases fs.get? env with
  | none => rfl
  | some f => exact List.eraseP_cons_of_pos (beq_self_eq_true t.token)

theorem active_pushTarget (present : env.index < fs.size) (t : Target) :
    (fs.modify env fun f => f.pushTarget t).active env = t :: fs.active env := by
  have callers_eq : (fs.modify env fun f => f.pushTarget t).callers env = fs.callers env :=
    chain_congr fun id _ => caller?_modify fs env id _ fun _ => rfl
  rw [active, active, callers_eq, callers, chain_eq, List.flatMap_cons, List.flatMap_cons,
    targetsOf_pushTarget present, List.cons_append]
  refine congrArg (fun rest => t :: (fs.targetsOf env ++ rest)) ?_
  rw [List.flatMap_def, List.flatMap_def]
  refine congrArg List.flatten (List.map_congr_left ?_)
  intro id mem
  refine targetsOf_modify_of_ne fs _ ?_
  rintro rfl
  cases lower : lower? FrameId.index fs.caller? env with
  | none =>
    rw [lower] at mem
    cases mem
  | some caller =>
    rw [lower] at mem
    have below : caller.index < env.index := index_lt_of_lower? lower
    have le : env.index ≤ caller.index := index_le_of_mem_chain mem
    omega

structure TargetEdit (f : Frame → Frame) : Prop where
  caller : ∀ frame, (f frame).caller = frame.caller
  receiver : ∀ frame, (f frame).receiver = frame.receiver
  outer : ∀ frame, (f frame).outer = frame.outer
  block : ∀ frame, (f frame).block = frame.block

theorem targetEdit_push (t : Target) : TargetEdit fun f => f.pushTarget t :=
  ⟨fun _ => rfl, fun _ => rfl, fun _ => rfl, fun _ => rfl⟩

theorem targetEdit_drop (token : Token) : TargetEdit fun f => f.dropTarget token :=
  ⟨fun _ => rfl, fun _ => rfl, fun _ => rfl, fun _ => rfl⟩

/-- Withdrawing the target that was registered last leaves the frames as they were. -/
theorem Keeps.withdraw {t : Target}
    (keeps : (fs.modify env fun f => f.pushTarget t).Keeps fs') :
    fs.Keeps (fs'.modify env fun f => f.dropTarget t.token) := by
  have size_eq : (fs.modify env fun f => f.pushTarget t).size = fs.size := size_modify ..
  have pushes := targetEdit_push t
  have drops := targetEdit_drop t.token
  refine ⟨?_, ?_, ?_, ?_, ?_, ?_⟩
  · rw [size_modify, ← size_eq]
    exact keeps.size
  · intro id
    exact (bind_get?_modify fs' env id _ _ drops.caller).trans
      ((keeps.caller id).trans (bind_get?_modify fs env id _ _ pushes.caller))
  · intro id
    exact (bind_get?_modify fs' env id _ _ drops.receiver).trans
      ((keeps.receiver id).trans (bind_get?_modify fs env id _ _ pushes.receiver))
  · intro id
    by_cases same : env = id
    · subst same
      rw [targetsOf_dropTarget, keeps.targets env, eraseP_targetsOf_pushTarget]
    · rw [targetsOf_modify_of_ne fs' _ same, keeps.targets id, targetsOf_modify_of_ne fs _ same]
  · intro id present
    exact (bind_get?_modify fs' env id _ _ drops.outer).trans
      ((keeps.outer id (size_eq ▸ present)).trans (bind_get?_modify fs env id _ _ pushes.outer))
  · intro id present
    exact (bind_get?_modify fs' env id _ _ drops.block).trans
      ((keeps.block id (size_eq ▸ present)).trans (bind_get?_modify fs env id _ _ pushes.block))

end Frames

end ObjectRuntime
