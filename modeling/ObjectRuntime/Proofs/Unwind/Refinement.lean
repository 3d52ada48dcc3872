import ObjectRuntime.Proofs.Frame.Targets
import ObjectRuntime.Proofs.Machine.Primitives
import ObjectRuntime.Proofs.Unwind.Handled

/-!
# Tokens and the stack of handlers

The machine keeps no stack of handlers. What plays its part are the targets that a search from the
running frame passes, along the calling frames: `handlersOf` is their kinds. A computation and its
counterpart under that stack agree if they leave the same machine with the same ending, and if a
signal of the machine is aimed at the first of those targets that takes it. This is kept by every
way of composing computations. At a handler the token decides as the stack does, because tokens are
new: the signals that the handler takes are those aimed at the first target of all.
-/

set_option autoImplicit false

namespace ObjectRuntime

mutual

def Expr.isDisciplined : Expr → Bool
  | .literal _ | .constant _ | .register _ => true
  | .prim step operands => step.isDisciplined && operands.isDisciplined
  | .seq first second => first.isDisciplined && second.isDisciplined
  | .cond test yes no => test.isDisciplined && yes.isDisciplined && no.isDisciplined
  | .times _ body => body.isDisciplined
  | .send _ receiver _ args block =>
    receiver.isDisciplined && args.isDisciplined && block.isDisciplined
  | .identifier receiver _ args => receiver.isDisciplined && args.isDisciplined
  | .callSuper args block => args.isDisciplined && block.isDisciplined
  | .invoke owner _ receiver args block =>
    owner.isDisciplined && receiver.isDisciplined && args.isDisciplined && block.isDisciplined
  | .yield args => args.isDisciplined
  | .call block args => block.isDisciplined && args.isDisciplined
  | .makeProc _ body => body.isDisciplined
  | .defineMethod owner _ _ _ body _ => owner.isDisciplined && body.isDisciplined
  | .defineFromBlock owner _ block => owner.isDisciplined && block.isDisciplined
  | .defineSingleton target _ _ _ body => target.isDisciplined && body.isDisciplined
  | .inFrame _ linked body => linked && body.isDisciplined
  | .rescue body handler => body.isDisciplined && handler.isDisciplined
  | .catching tag body => tag.isDisciplined && body.isDisciplined
  | .ensure body cleanup => body.isDisciplined && cleanup.isDisciplined
  | .within _ _ | .stash _ _ | .runMain _ => false

def Args.isDisciplined : Args → Bool
  | .nil => true
  | .cons first rest => first.isDisciplined && rest.isDisciplined
  | .splice _ rest => rest.isDisciplined

def BlockArg.isDisciplined : BlockArg → Bool
  | .none | .passed | .current => true
  | .literal _ body => body.isDisciplined
  | .ofProc value => value.isDisciplined

end

/-- All code reached from the program works on the frame it is given and keeps no signal back. -/
abbrev Disciplined (e : Expr) : Prop := e.isDisciplined = true

def Signal.Aimed (targets : List Target) : Signal → Prop
  | .raise _ target => target = (targets.find? fun t => Run.isRescue t.kind).map (·.token)
  | .throw tag _ target =>
    (targets.find? fun t => Run.isCatchOf tag t.kind).map (·.token) = some target

theorem Machine.Aims.aimed {m : Machine} {env : FrameId} {s : Signal} (aims : m.Aims env s) :
    s.Aimed (m.frames.active env) := by
  cases s with
  | raise id target => exact aims.trans (m.frames.findTarget_eq_active env _)
  | throw tag value target => exact (m.frames.findTarget_eq_active env _).symm.trans aims

namespace Machine

/-- The machine can run disciplined code in the frame. -/
structure Ready (m : Machine) (env : FrameId) : Prop where
  valid : m.Valid Disciplined
  present : env.index < m.frames.size
  tokens : ∀ t ∈ m.frames.active env, t.token.serial ≤ m.tokens

def handlersOf (m : Machine) (env : FrameId) : List TargetKind :=
  (m.frames.active env).map (·.kind)

structure Follows (m m' : Machine) : Prop where
  valid : m'.Valid Disciplined
  keeps : m.frames.Keeps m'.frames
  tokens : m.tokens ≤ m'.tokens

variable {m m' m'' : Machine} {env : FrameId}

theorem Follows.trans (first : m.Follows m') (second : m'.Follows m'') : m.Follows m'' :=
  ⟨second.valid, first.keeps.trans second.keeps, Nat.le_trans first.tokens second.tokens⟩

theorem Follows.active (follows : m.Follows m') (env : FrameId) :
    m'.frames.active env = m.frames.active env := follows.keeps.active env

theorem Follows.handlersOf (follows : m.Follows m') (env : FrameId) :
    m'.handlersOf env = m.handlersOf env := congrArg (List.map _) (follows.active env)

theorem Follows.ready (follows : m.Follows m') (ready : m.Ready env) : m'.Ready env := by
  refine ⟨follows.valid, Nat.lt_of_lt_of_le ready.present follows.keeps.size, ?_⟩
  rw [follows.active env]
  intro t mem
  exact Nat.le_trans (ready.tokens t mem) follows.tokens

end Machine

theorem Calmly.follows {m m' : Machine} (calmly : Calmly Disciplined m m')
    (valid : m.Valid Disciplined) : m.Follows m' :=
  ⟨calmly.valid valid, calmly.keeps, Nat.le_of_eq calmly.changes.calls.2.2.symm⟩

/-! ### Agreement -/

open Handled (observed lift)

/-- The ending of a computation and that of its counterpart, both begun on a machine. -/
structure Agrees {α : Type} (m : Machine) (env : FrameId) (ending : Except Exit α × Machine)
    (answer : Except Departure α × Machine) : Prop where
  follows : m.Follows ending.2
  aimed : ∀ s, ending.1 = .error (.signal s) → s.Aimed (m.frames.active env)
  same : answer = observed ending

def RefinesAt {α : Type} (m : Machine) (env : FrameId) (x : Run α) (r : Handled α) : Prop :=
  m.Ready env → Agrees m env (x m) (r (m.handlersOf env) m)

def Refines {α : Type} (env : FrameId) (x : Run α) (r : Handled α) : Prop :=
  ∀ m : Machine, RefinesAt m env x r

section Combining

variable {α β : Type} {m m' : Machine} {env : FrameId}

theorem Agrees.later {ending : Except Exit α × Machine} {answer : Except Departure α × Machine}
    (follows : m.Follows m') (agrees : Agrees m' env ending answer) :
    Agrees m env ending answer := by
  refine ⟨follows.trans agrees.follows, ?_, agrees.same⟩
  rw [← follows.active env]
  exact agrees.aimed

theorem RefinesAt.of_ready {x : Run α} {r : Handled α}
    (refines : m.Ready env → RefinesAt m env x r) : RefinesAt m env x r :=
  fun ready => refines ready ready

theorem RefinesAt.bind {x : Run α} {r : Handled α} {f : α → Run β} {g : α → Handled β}
    (first : RefinesAt m env x r)
    (rest : ∀ a m', x m = (.ok a, m') → m'.Ready env → RefinesAt m' env (f a) (g a)) :
    RefinesAt m env (x >>= f) (r >>= g) := by
  intro ready
  obtain ⟨follows, aimed, same⟩ := first ready
  rw [Handled.run_bind, same, Run.run_bind]
  cases ending : x m with
  | mk outcome m' =>
    rw [ending] at follows aimed
    cases outcome with
    | ok a =>
      have later := rest a m' ending (follows.ready ready) (follows.ready ready)
      rw [follows.handlersOf env] at later
      exact later.later follows
    | error e =>
      refine ⟨follows, ?_, rfl⟩
      intro s is_signal
      obtain rfl := Except.error.inj is_signal
      exact aimed s rfl

theorem Refines.bind {x : Run α} {r : Handled α} {f : α → Run β} {g : α → Handled β}
    (first : Refines env x r) (rest : ∀ a, Refines env (f a) (g a)) :
    Refines env (x >>= f) (r >>= g) :=
  fun m => (first m).bind fun a m' _ _ => rest a m'

theorem RefinesAt.read {f : Machine → α} {g : α → Run β} {g' : α → Handled β}
    (rest : RefinesAt m env (g (f m)) (g' (f m))) :
    RefinesAt m env (Run.read f >>= g) (lift (Run.read f) >>= g') := rest

theorem refinesAt_quiet {x : Run α} (quiet : Run.QuietAt Disciplined env m x) :
    RefinesAt m env x (lift x) := by
  intro ready
  obtain ⟨calmly, aims⟩ := quiet ready.valid
  have follows := calmly.follows ready.valid
  refine ⟨follows, ?_, rfl⟩
  intro s is_signal
  rw [← follows.active env]
  exact (aims s is_signal).aimed

theorem refines_quiet {x : Run α} (quiet : Run.Quiet Disciplined env x) : Refines env x (lift x) :=
  fun m => refinesAt_quiet (quiet m)

theorem refines_pure (a : α) : Refines env (pure a : Run α) (pure a : Handled α) :=
  refines_quiet (Run.quiet_pure a)

theorem RefinesAt.afterward {x : Run α} {r : Handled α} {f : Machine → Machine}
    (refines : RefinesAt m env x r)
    (follows : ∀ m' : Machine, m'.Valid Disciplined → m'.Follows (f m')) :
    RefinesAt m env (x.afterward f) (r.afterward f) := by
  intro ready
  have agrees := refines ready
  refine ⟨agrees.follows.trans (follows _ agrees.follows.valid), agrees.aimed, ?_⟩
  rw [Handled.afterward, agrees.same]
  rfl

theorem Refines.times {x : Run α} {r : Handled α} (refines : Refines env x r) (count : Nat) :
    Refines env (Run.times count x) (Handled.times count r) := by
  induction count with
  | zero => exact refines_pure ()
  | succ count ih => exact refines.bind fun _ => ih

end Combining

end ObjectRuntime
