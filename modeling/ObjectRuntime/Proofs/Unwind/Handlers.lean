import ObjectRuntime.Proofs.Machine.Course
import ObjectRuntime.Proofs.Unwind.Refinement

/-!
# Handlers and calls against the stack

A rescue takes a raise by the token it carries. The token is that of the innermost rescue, and if a
raise leaves the body of a rescue, that is this rescue itself. A catch takes a throw by the token of
the innermost catch of its tag: this one if the tags are the same, and otherwise one that was there
before, whose token is an older one. The frame of a call has no targets of its own, so the body of
the call runs under the stack of the caller.
-/

set_option autoImplicit false

namespace ObjectRuntime

open Handled (observed lift)

namespace Machine

variable {m m' : Machine} {env : FrameId} {kind : TargetKind}

theorem active_opened (ready : m.Ready env) (kind : TargetKind) :
    (m.opened env kind).frames.active env = m.nextTarget kind :: m.frames.active env :=
  Frames.active_pushTarget ready.present _

theorem Ready.opened (ready : m.Ready env) (kind : TargetKind) : (m.opened env kind).Ready env := by
  refine ⟨?_, ?_, ?_⟩
  · exact ready.valid.opened env kind
  · exact Nat.lt_of_lt_of_eq ready.present (Frames.size_modify ..).symm
  · rw [active_opened ready kind]
    intro t mem
    obtain rfl | before := List.mem_cons.1 mem
    · exact Nat.le_refl _
    · exact Nat.le_succ_of_le (ready.tokens t before)

theorem Follows.closed (follows : (m.opened env kind).Follows m') :
    m.Follows (m'.closed env (m.nextTarget kind).token) :=
  ⟨follows.valid.closed env _, follows.keeps.withdraw, Nat.le_of_succ_le follows.tokens⟩

end Machine

variable {α : Type} {m : Machine} {env : FrameId}

theorem Signal.Aimed.outer {t : Target} {targets : List Target} {s : Signal}
    (aimed : s.Aimed (t :: targets))
    (passes : match s with
      | .raise _ _ => Run.isRescue t.kind = false
      | .throw tag _ _ => Run.isCatchOf tag t.kind = false) : s.Aimed targets := by
  cases s with
  | raise id target =>
    have found := List.find?_cons_of_neg (p := fun t => Run.isRescue t.kind) (a := t) (l := targets)
      (by simpa using passes)
    rw [Signal.Aimed, found] at aimed
    exact aimed
  | throw tag value target =>
    have found := List.find?_cons_of_neg (p := fun t => Run.isCatchOf tag t.kind) (a := t)
      (l := targets) (by simpa using passes)
    rw [Signal.Aimed, found] at aimed
    exact aimed

/-- What a handler does once its body has ended, on the two sides. -/
theorem refines_handler {β : Type} {kind : TargetKind} {x : Run α} {r : Handled α}
    {after : Token × Except Exit α → Run β} {after' : Except Departure α → Handled β}
    (body : Refines env x r)
    (rest : ∀ (m m' : Machine) (outcome : Except Exit α), m.Ready env → m'.Ready env →
      (∀ s, outcome = .error (.signal s) → s.Aimed (m.nextTarget kind :: m'.frames.active env)) →
      (∀ t ∈ m'.frames.active env, t.token.serial ≤ m.tokens) →
        Agrees m' env (after ((m.nextTarget kind).token, outcome) m')
          (after' (outcome.mapError Exit.departure) (m'.handlersOf env) m')) :
    Refines env (Run.withTarget env kind x >>= after) (Handled.under env kind r >>= after') := by
  intro m ready
  have agrees := body _ (ready.opened kind)
  have active := Machine.active_opened ready kind
  have handlers : (m.opened env kind).handlersOf env = kind :: m.handlersOf env :=
    congrArg (List.map _) active
  rw [handlers] at agrees
  obtain ⟨follows, aimed, same⟩ := agrees
  rw [active] at aimed
  have closed := follows.closed
  change Agrees m env (after ((m.nextTarget kind).token, (x (m.opened env kind)).1)
      ((x (m.opened env kind)).2.closed env (m.nextTarget kind).token))
    (after' (r (kind :: m.handlersOf env) (m.opened env kind)).1 (m.handlersOf env)
      ((r (kind :: m.handlersOf env) (m.opened env kind)).2.closed env (m.nextTarget kind).token))
  rw [same, ← closed.handlersOf env]
  refine Agrees.later closed ?_
  refine rest m _ _ ready (closed.ready ready) ?_ ?_
  · rw [closed.active env]
    exact aimed
  · rw [closed.active env]
    exact ready.tokens

theorem Agrees.exit {m : Machine} (ready : m.Ready env) {e : Exit}
    (aimed : ∀ s, e = .signal s → s.Aimed (m.frames.active env)) :
    Agrees m env (Run.exit e m : Except Exit α × Machine)
      (Handled.leave e.departure (m.handlersOf env) m) := by
  refine ⟨⟨ready.valid, .refl _, Nat.le_refl _⟩, ?_, rfl⟩
  intro s is_signal
  exact aimed s (Except.error.inj is_signal)

theorem refines_rescue {x : Run Value} {r : Handled Value} (body : Refines env x r) :
    Refines env (Run.rescue env x) (Handled.rescue env r) := by
  refine refines_handler body ?_
  intro m m' outcome ready ready' aimed _
  cases outcome with
  | ok value => exact refines_pure _ m' ready'
  | error e =>
    cases e with
    | exhausted => exact .exit ready' nofun
    | malformed => exact .exit ready' nofun
    | signal s =>
      have aimed := aimed s rfl
      cases s with
      | throw tag value target =>
        refine .exit ready' ?_
        rintro _ ⟨⟩
        exact aimed.outer rfl
      | raise id target =>
        obtain rfl : target = some (m.nextTarget .rescue).token := aimed
        change Agrees m' env ((if _ then _ else _ : Run Run.Rescued) m') _
        rw [if_pos rfl]
        have notes : Run.Quiet Disciplined env
            (Run.modifyFrame env fun f => { f with exception := some (Value.object id) }) :=
          Run.quiet_modifyFrame env _ fun _ => ⟨⟨rfl, rfl, rfl, rfl⟩, rfl, rfl⟩
        have tells : Run.Quiet Disciplined env (Run.setGlobal Run.lastError (.object id)) :=
          Run.quiet_setGlobal Run.lastError (.object id)
        exact ((refines_quiet notes).bind fun _ => (refines_quiet tells).bind fun _ =>
          refines_pure _) m' ready'

theorem refines_catching {x : Run Value} {r : Handled Value} (tag : Value)
    (body : Refines env x r) :
    Refines env (Run.catching env tag x) (Handled.catching env tag r) := by
  refine refines_handler body ?_
  intro m m' outcome ready ready' aimed older
  cases outcome with
  | ok value => exact refines_pure _ m' ready'
  | error e =>
    cases e with
    | exhausted => exact .exit ready' nofun
    | malformed => exact .exit ready' nofun
    | signal s =>
      have aimed := aimed s rfl
      cases s with
      | raise id target =>
        refine .exit ready' ?_
        rintro _ ⟨⟩
        exact aimed.outer rfl
      | throw thrown value target =>
        change Agrees m' env
          ((if target = (m.nextTarget (.catching tag)).token then _ else _ : Run Value) m')
          ((if tag.same thrown then _ else _ : Handled Value) _ m')
        cases same : tag.same thrown with
        | true =>
          have takes : Run.isCatchOf thrown (m.nextTarget (.catching tag)).kind = true := same
          have found := List.find?_cons_of_pos (p := fun t => Run.isCatchOf thrown t.kind)
            (l := m'.frames.active env) takes
          rw [Signal.Aimed, found] at aimed
          obtain rfl := Option.some.inj aimed
          rw [if_pos rfl, if_pos rfl]
          exact refines_pure value m' ready'
        | false =>
          have outer := aimed.outer same
          obtain ⟨t, at_target, rfl⟩ := Option.map_eq_some_iff.1 outer
          have old := older t (List.mem_of_find?_eq_some at_target)
          have other : t.token ≠ (m.nextTarget (.catching tag)).token := by
            intro same_token
            rw [same_token] at old
            exact Nat.not_succ_le_self _ old
          rw [if_neg other, if_neg (by simp)]
          refine .exit ready' ?_
          rintro _ ⟨⟩
          exact outer

theorem refines_throw (tag value : Value) :
    Refines env (Run.throw env tag value : Run α) (Handled.throw env tag value) := by
  intro m ready
  have searched := m.frames.findTarget_eq_active env (Run.isCatchOf tag)
  have on_stack : (m.handlersOf env).any (Run.isCatchOf tag) =
      (m.frames.findTarget env (Run.isCatchOf tag)).isSome := by
    rw [searched, Option.isSome_map, List.isSome_find?, Machine.handlersOf, List.any_map]
    rfl
  change Agrees m env _
    ((if (m.handlersOf env).any (Run.isCatchOf tag) then _ else _ : Handled α) (m.handlersOf env) m)
  rw [on_stack, Run.throw, Run.run_bind, Run.run_read]
  cases target : m.frames.findTarget env (Run.isCatchOf tag) with
  | none =>
    have fails := Run.quiet_fail (α := α) (P := Disciplined) env (.uncaughtThrow (m.inspect tag))
    exact RefinesAt.read (refines_quiet fails m) ready
  | some target =>
    refine .exit ready ?_
    rintro _ ⟨⟩
    exact searched.symm.trans target

theorem refines_attempt {β : Type} {x : Run α} {r : Handled α} {after : Except Exit α → Run β}
    {after' : Except Departure α → Handled β} (body : Refines env x r)
    (rest : ∀ (m : Machine) (outcome : Except Exit α), m.Ready env →
      (∀ s, outcome = .error (.signal s) → s.Aimed (m.frames.active env)) →
        Agrees m env (after outcome m)
          (after' (outcome.mapError Exit.departure) (m.handlersOf env) m)) :
    Refines env (Run.attempt x >>= after) (Handled.attempt r >>= after') := by
  intro m ready
  obtain ⟨follows, aimed, same⟩ := body m ready
  change Agrees m env (after (x m).1 (x m).2)
    (after' (r (m.handlersOf env) m).1 (m.handlersOf env) (r (m.handlersOf env) m).2)
  rw [same, ← follows.handlersOf env]
  refine Agrees.later follows (rest _ _ (follows.ready ready) ?_)
  rw [follows.active env]
  exact aimed

theorem refines_ensure {x : Run α} {r : Handled α} {y : Run Unit} {r' : Handled Unit}
    (body : Refines env x r) (cleanup : Refines env y r') :
    Refines env (Run.ensure x y) (Handled.ensure r r') := by
  refine refines_attempt body ?_
  intro m outcome ready aimed
  cases outcome with
  | ok value => exact (cleanup.bind fun _ => refines_pure value) m ready
  | error e =>
    cases e with
    | exhausted => exact .exit ready nofun
    | malformed => exact .exit ready nofun
    | signal s =>
      have leaves : Agrees m env ((y >>= fun _ => Run.signal s : Run α) m)
          ((r' >>= fun _ => Handled.leave (Exit.signal s).departure) (m.handlersOf env) m) := by
        refine (cleanup m).bind ?_ ready
        intro _ m' ending _ ready'
        refine .exit ready' ?_
        rintro _ ⟨⟩
        have follows := (cleanup m ready).follows
        rw [ending] at follows
        rw [follows.active env]
        exact aimed s rfl
      cases s with
      | raise id target => exact leaves
      | throw tag value target => exact leaves

/-! ### Calls -/

theorem Machine.Ready.called (ready : m.Ready env) {f : Frame} (caller : f.caller = some env)
    (bare : f.targets = []) (code : f.Satisfies Disciplined) (current : Option FrameId) :
    (m.called f current).Ready m.frames.next := by
  have active := m.frames.active_push_call caller bare ready.present
  refine ⟨ready.valid.called code current, ?_, ?_⟩
  · exact Nat.lt_of_lt_of_eq (Nat.lt_succ_self _) (Frames.size_push ..).symm
  · change ∀ t ∈ (m.frames.push f).active m.frames.next, t.token.serial ≤ m.tokens
    rw [active]
    exact ready.tokens

theorem Agrees.framed {f : Frame} {x : Run α} {r : Handled α} {after : Machine → Machine}
    {g : Frame → Frame} (ready : m.Ready env) (current : Option FrameId)
    (caller : f.caller = some env) (bare : f.targets = []) (code : f.Satisfies Disciplined)
    (left : ∀ m', ∃ current depth, after m' =
      { m' with frames := m'.frames.modify m.frames.next g, current, depth })
    (released : f.Released g) (body : Refines m.frames.next x r) :
    Agrees m env (x.afterward after (m.called f current))
      (r.afterward after (m.handlersOf env) (m.called f current)) := by
  have active := m.frames.active_push_call caller bare ready.present
  have handlers : (m.called f current).handlersOf m.frames.next = m.handlersOf env :=
    congrArg (List.map _) active
  have agrees := body _ (ready.called caller bare code current)
  rw [handlers] at agrees
  obtain ⟨follows, aimed, same⟩ := agrees
  refine ⟨?_, ?_, ?_⟩
  · change m.Follows (after (x (m.called f current)).2)
    obtain ⟨current', depth, eq⟩ := left (x (m.called f current)).2
    rw [eq]
    exact ⟨follows.valid.modifyFrame _ g released.method released.block current' depth _,
      follows.keeps.leave bare released, follows.tokens⟩
  · rw [← active]
    exact aimed
  · rw [Handled.afterward, same]
    rfl

abbrev DisciplinedBlock (block : Option Block) : Prop :=
  ∀ b, block = some b → b.Satisfies Disciplined

theorem DisciplinedBlock.none : DisciplinedBlock none := nofun

def CallerRefines (run : Runner) (ref : Handled.Caller) : Prop :=
  ∀ entry frame receiver args block, entry.Satisfies Disciplined → DisciplinedBlock block →
    Refines frame (run entry frame receiver args block) (ref entry frame receiver args block)

variable {run : Runner} {ref : Handled.Caller}

theorem refines_enterCall (caller : FrameId) :
    Refines caller (Run.enterCall caller) (lift (Run.enterCall caller)) := by
  intro m
  have read : RefinesAt m caller
      (if Run.allowsCall m then Run.modify fun m => { m with depth := m.depth + 1 }
        else Run.fail caller .stackTooDeep)
      (lift (if Run.allowsCall m then Run.modify fun m => { m with depth := m.depth + 1 }
        else Run.fail caller .stackTooDeep)) := by
    split
    next =>
      intro ready
      refine ⟨⟨?_, .refl _, Nat.le_refl _⟩, nofun, rfl⟩
      exact ⟨ready.valid.methods, ready.valid.classMethods, ready.valid.singletons,
        ready.valid.payloads, ready.valid.frames, ready.valid.modules⟩
    next => exact refines_quiet (Run.quiet_fail caller _) m
  exact read

theorem refines_inNewFrame (runs : CallerRefines run ref) (caller : FrameId) (frame : Frame)
    (entry : Entry) (receiver : Value) (args : List Value) (block : Option Block)
    (bare : frame.targets = []) (code : frame.Satisfies Disciplined)
    (entry_code : entry.Satisfies Disciplined) (block_code : DisciplinedBlock block) :
    Refines caller (Run.inNewFrame run caller frame entry receiver args block)
      (Handled.inNewFrame ref caller frame entry receiver args block) := by
  refine (refines_enterCall caller).bind fun _ m => ?_
  refine RefinesAt.read ?_
  intro ready
  exact Agrees.framed ready _ rfl bare code (fun m' => ⟨_, _, rfl⟩)
    (Frame.released_leave _)
    (runs entry m.frames.next receiver args block entry_code block_code)

end ObjectRuntime
