import ObjectRuntime.Proofs.Machine.Programs
import ObjectRuntime.Proofs.Unwind.Dispatch

/-!
# Programs against the stack

A disciplined expression agrees with its counterpart wherever it is evaluated, by induction on the
expression and, for the calls it makes, on the number of calls that may still nest. At the start of
a program no handler is registered, so a throw never leaves the program and a raise that does has no
target.
-/

set_option autoImplicit false

namespace ObjectRuntime

open Handled (observed lift)

variable {α : Type} {m : Machine} {env : FrameId} {run : Runner} {ref : Handled.Caller}

structure RefinesBlock (env : FrameId) (x : Run (Option Block)) (r : Handled (Option Block)) :
    Prop where
  refines : Refines env x r
  block : ∀ m b m', m.Ready env → x m = (.ok b, m') → DisciplinedBlock b

theorem RefinesBlock.bind {x : Run (Option Block)} {r : Handled (Option Block)}
    {f : Option Block → Run α} {g : Option Block → Handled α} (first : RefinesBlock env x r)
    (rest : ∀ b, DisciplinedBlock b → Refines env (f b) (g b)) :
    Refines env (x >>= f) (r >>= g) := by
  intro m
  refine .of_ready fun ready => (first.refines m).bind ?_
  intro b m' ending _
  exact rest b (first.block m b m' ready ending) m'

theorem refines_ofOption_bind {β : Type} {found : Option β} {f : β → Run α} {g : β → Handled α}
    (rest : ∀ b, found = some b → RefinesAt m env (f b) (g b)) :
    RefinesAt m env (Run.ofOption found >>= f) (lift (Run.ofOption found) >>= g) := by
  cases found with
  | none =>
    refine (refines_quiet Run.quiet_malformed m).bind ?_
    intro b m' ending
    cases ending
  | some b => exact rest b rfl

theorem refines_writeBack {x : Run Value} {r : Handled Value} (refines : Refines env x r)
    (slot : Option String) (before after : Value) :
    Refines env (x.afterward (Run.writeBack slot before after))
      (r.afterward (Run.writeBack slot before after)) := by
  intro m
  refine (refines m).afterward ?_
  intro m' valid
  exact (calmly_writeBack slot before after m').follows valid

theorem refines_moduleOf (v : Value) : Refines env (Run.moduleOf v) (lift (Run.moduleOf v)) :=
  refines_quiet (Run.quiet_moduleOf v)

theorem refines_perform (c : Context) (step : Prim) (operands : List Value)
    (disciplined : step.isDisciplined = true) :
    Refines c.frame (Run.perform c step operands) (Handled.perform c step operands) := by
  unfold Handled.perform
  split
  next tag v => exact refines_throw tag v
  next => exact refines_quiet (Run.quiet_perform c step operands disciplined)

mutual

theorem refines_eval (runs : CallerRefines run ref) (c : Context)
    (block_code : DisciplinedBlock c.block) (e : Expr) (disciplined : e.isDisciplined = true) :
    Refines c.frame (Run.eval run c e) (Handled.eval ref c e) := by
  cases e with
  | literal value =>
    rw [Run.eval, Handled.eval]
    exact refines_quiet (Run.quiet_ofLiteral value)
  | constant name =>
    rw [Run.eval, Handled.eval]
    exact refines_quiet fun m => .read (Run.quiet_ofOption _ m)
  | register name =>
    rw [Run.eval, Handled.eval]
    exact refines_quiet fun m => .read (Run.quiet_ofOption _ m)
  | prim step operands =>
    rw [Run.eval, Handled.eval]
    rw [Expr.isDisciplined] at disciplined
    obtain ⟨step_ok, operands_ok⟩ := Bool.and_eq_true_iff.1 disciplined
    exact (refines_evalArgs runs c block_code operands operands_ok).bind fun operands =>
      refines_perform c step operands step_ok
  | seq first second =>
    rw [Run.eval, Handled.eval]
    rw [Expr.isDisciplined] at disciplined
    obtain ⟨first_ok, second_ok⟩ := Bool.and_eq_true_iff.1 disciplined
    exact (refines_eval runs c block_code first first_ok).bind fun _ =>
      refines_eval runs c block_code second second_ok
  | cond test yes no =>
    rw [Run.eval, Handled.eval]
    rw [Expr.isDisciplined] at disciplined
    obtain ⟨tests, no_ok⟩ := Bool.and_eq_true_iff.1 disciplined
    obtain ⟨test_ok, yes_ok⟩ := Bool.and_eq_true_iff.1 tests
    refine (refines_eval runs c block_code test test_ok).bind fun v m => .read ?_
    cases m.truthy v with
    | true => exact refines_eval runs c block_code yes yes_ok m
    | false => exact refines_eval runs c block_code no no_ok m
  | times count body =>
    rw [Run.eval, Handled.eval]
    rw [Expr.isDisciplined] at disciplined
    exact ((refines_eval runs c block_code body disciplined).times count).bind fun _ =>
      refines_pure _
  | send kind receiver selector args block =>
    rw [Run.eval, Handled.eval]
    rw [Expr.isDisciplined] at disciplined
    obtain ⟨operands, block_ok⟩ := Bool.and_eq_true_iff.1 disciplined
    obtain ⟨receiver_ok, args_ok⟩ := Bool.and_eq_true_iff.1 operands
    refine (refines_eval runs c block_code receiver receiver_ok).bind fun before =>
      (refines_evalArgs runs c block_code args args_ok).bind fun args =>
        (refines_evalBlock runs c block_code block block_ok).bind fun block given =>
          (refines_quiet (Run.quiet_route before selector args)).bind fun route => ?_
    exact refines_writeBack (refines_follow runs given c.frame kind selector args route) _ _ _
  | identifier receiver name args =>
    rw [Run.eval, Handled.eval]
    rw [Expr.isDisciplined] at disciplined
    obtain ⟨receiver_ok, args_ok⟩ := Bool.and_eq_true_iff.1 disciplined
    refine (refines_eval runs c block_code receiver receiver_ok).bind fun before =>
      (refines_evalArgs runs c block_code args args_ok).bind fun args => ?_
    exact refines_identify runs c.frame before name args fun after result result' refines =>
      refines_writeBack refines _ _ _
  | callSuper args block =>
    rw [Run.eval, Handled.eval]
    rw [Expr.isDisciplined] at disciplined
    obtain ⟨args_ok, block_ok⟩ := Bool.and_eq_true_iff.1 disciplined
    exact (refines_evalArgs runs c block_code args args_ok).bind fun args =>
      (refines_evalBlock runs c block_code block block_ok).bind fun block given =>
        refines_callSuper runs given c.frame c.receiver args
  | invoke owner name receiver args block =>
    rw [Run.eval, Handled.eval]
    rw [Expr.isDisciplined] at disciplined
    obtain ⟨operands, block_ok⟩ := Bool.and_eq_true_iff.1 disciplined
    obtain ⟨targets, args_ok⟩ := Bool.and_eq_true_iff.1 operands
    obtain ⟨owner_ok, receiver_ok⟩ := Bool.and_eq_true_iff.1 targets
    refine (refines_eval runs c block_code owner owner_ok).bind fun v =>
      (refines_moduleOf v).bind fun owner =>
        (refines_eval runs c block_code receiver receiver_ok).bind fun receiver =>
          (refines_evalArgs runs c block_code args args_ok).bind fun args =>
            (refines_evalBlock runs c block_code block block_ok).bind fun block given m => ?_
    refine .of_ready fun ready => .read (refines_ofOption_bind ?_)
    intro method found
    exact refines_invokeAt runs c.frame (ready.valid.findMethod found) receiver args given none m
  | yield args =>
    rw [Run.eval, Handled.eval]
    rw [Expr.isDisciplined] at disciplined
    intro m
    refine .of_ready fun ready => .read ?_
    cases current : m.frames.currentBlock? c.frame with
    | none => exact refines_fail c.frame _ m
    | some block =>
      have code := ready.valid.currentBlock current
      exact (refines_evalArgs runs c block_code args disciplined).bind
        (fun args => refines_callBlock runs c.frame code args) m
  | call block args =>
    rw [Run.eval, Handled.eval]
    rw [Expr.isDisciplined] at disciplined
    obtain ⟨block_ok, args_ok⟩ := Bool.and_eq_true_iff.1 disciplined
    refine (refines_evalBlock runs c block_code block block_ok).bind fun block given m =>
      refines_ofOption_bind ?_
    rintro block rfl
    exact (refines_evalArgs runs c block_code args args_ok).bind
      (fun args => refines_callBlock runs c.frame (given block rfl) args) m
  | makeProc arity body =>
    rw [Run.eval, Handled.eval]
    rw [Expr.isDisciplined] at disciplined
    exact refines_quiet (Run.quiet_newObject Core.proc.id (.proc _) disciplined nofun)
  | defineMethod owner name arity capture code visibility =>
    rw [Run.eval, Handled.eval]
    rw [Expr.isDisciplined] at disciplined
    obtain ⟨owner_ok, code_ok⟩ := Bool.and_eq_true_iff.1 disciplined
    refine (refines_eval runs c block_code owner owner_ok).bind fun v =>
      (refines_moduleOf v).bind fun owner => ?_
    have defines : Run.Quiet Disciplined c.frame (Run.defineMethod
        { Method.plain name owner arity (Run.body capture code c.frame) with visibility }) :=
      Run.quiet_defineMethod _ (Body.satisfies_code capture c.frame code_ok) rfl
    exact (refines_quiet defines).bind fun _ => refines_pure _
  | defineFromBlock owner name block =>
    rw [Run.eval, Handled.eval]
    rw [Expr.isDisciplined] at disciplined
    obtain ⟨owner_ok, block_ok⟩ := Bool.and_eq_true_iff.1 disciplined
    refine (refines_eval runs c block_code owner owner_ok).bind fun v =>
      (refines_moduleOf v).bind fun owner =>
        (refines_evalBlock runs c block_code block block_ok).bind fun block given m =>
          refines_ofOption_bind ?_
    rintro block rfl
    have defines : Run.Quiet Disciplined c.frame (Run.defineMethod (.ofBlock name owner block)) :=
      Run.quiet_defineMethod _ (given block rfl) rfl
    exact ((refines_quiet defines).bind fun _ => refines_pure _) m
  | defineSingleton target name arity capture code =>
    rw [Run.eval, Handled.eval]
    rw [Expr.isDisciplined] at disciplined
    obtain ⟨target_ok, code_ok⟩ := Bool.and_eq_true_iff.1 disciplined
    refine (refines_eval runs c block_code target target_ok).bind fun target => ?_
    have defines : Run.Quiet Disciplined c.frame (Run.defineSingleton c.frame target name arity
        (Run.body capture code c.frame)) :=
      Run.quiet_defineSingleton c.frame target name arity _
        (Body.satisfies_code capture c.frame code_ok)
    exact (refines_quiet defines).bind fun _ => refines_pure _
  | within owner body => cases disciplined
  | inFrame kind linked body =>
    rw [Run.eval, Handled.eval]
    rw [Expr.isDisciplined] at disciplined
    obtain ⟨rfl, body_ok⟩ := Bool.and_eq_true_iff.1 disciplined
    intro m ready
    have frame_code : ({ Frame.fresh kind (some c.frame) with caller := some c.frame } :
        Frame).Satisfies Disciplined := .of_none rfl rfl
    exact Agrees.framed ready m.current rfl rfl frame_code (fun m' => ⟨_, _, rfl⟩)
      (Frame.released_unlink _ rfl)
      (refines_eval runs { c with frame := m.frames.next } block_code body body_ok)
  | rescue body handler =>
    rw [Run.eval, Handled.eval]
    rw [Expr.isDisciplined] at disciplined
    obtain ⟨body_ok, handler_ok⟩ := Bool.and_eq_true_iff.1 disciplined
    refine (refines_rescue (refines_eval runs c block_code body body_ok)).bind fun rescued => ?_
    cases rescued with
    | completed v => exact refines_pure v
    | delivered _ => exact refines_eval runs c block_code handler handler_ok
  | catching tag body =>
    rw [Run.eval, Handled.eval]
    rw [Expr.isDisciplined] at disciplined
    obtain ⟨tag_ok, body_ok⟩ := Bool.and_eq_true_iff.1 disciplined
    exact (refines_eval runs c block_code tag tag_ok).bind fun tag =>
      refines_catching tag (refines_eval runs c block_code body body_ok)
  | ensure body cleanup =>
    rw [Run.eval, Handled.eval]
    rw [Expr.isDisciplined] at disciplined
    obtain ⟨body_ok, cleanup_ok⟩ := Bool.and_eq_true_iff.1 disciplined
    exact refines_ensure (refines_eval runs c block_code body body_ok)
      ((refines_eval runs c block_code cleanup cleanup_ok).bind fun _ => refines_pure ())
  | stash key body => cases disciplined
  | runMain body => cases disciplined

theorem refines_evalArgs (runs : CallerRefines run ref) (c : Context)
    (block_code : DisciplinedBlock c.block) (args : Args)
    (disciplined : args.isDisciplined = true) :
    Refines c.frame (Run.evalArgs run c args) (Handled.evalArgs ref c args) := by
  cases args with
  | nil =>
    rw [Run.evalArgs, Handled.evalArgs]
    exact refines_pure []
  | cons first rest =>
    rw [Run.evalArgs, Handled.evalArgs]
    rw [Args.isDisciplined] at disciplined
    obtain ⟨first_ok, rest_ok⟩ := Bool.and_eq_true_iff.1 disciplined
    exact (refines_eval runs c block_code first first_ok).bind fun _ =>
      (refines_evalArgs runs c block_code rest rest_ok).bind fun _ => refines_pure _
  | splice start rest =>
    rw [Run.evalArgs, Handled.evalArgs]
    rw [Args.isDisciplined] at disciplined
    exact (refines_evalArgs runs c block_code rest disciplined).bind fun _ => refines_pure _

theorem refines_evalBlock (runs : CallerRefines run ref) (c : Context)
    (block_code : DisciplinedBlock c.block) (block : BlockArg)
    (disciplined : block.isDisciplined = true) :
    RefinesBlock c.frame (Run.evalBlock run c block) (Handled.evalBlock ref c block) := by
  cases block with
  | none =>
    rw [Run.evalBlock, Handled.evalBlock]
    refine ⟨refines_pure _, ?_⟩
    rintro m _ _ - ⟨⟩
    exact .none
  | literal arity body =>
    rw [Run.evalBlock, Handled.evalBlock]
    rw [BlockArg.isDisciplined] at disciplined
    refine ⟨refines_pure _, ?_⟩
    rintro m _ _ - ⟨⟩ b ⟨⟩
    exact disciplined
  | passed =>
    rw [Run.evalBlock, Handled.evalBlock]
    refine ⟨refines_pure _, ?_⟩
    rintro m _ _ - ⟨⟩
    exact block_code
  | current =>
    rw [Run.evalBlock, Handled.evalBlock]
    refine ⟨refines_quiet (Run.quiet_read _), ?_⟩
    rintro m _ _ ready ⟨⟩ b current
    exact ready.valid.currentBlock current
  | ofProc value =>
    rw [Run.evalBlock, Handled.evalBlock]
    rw [BlockArg.isDisciplined] at disciplined
    have values := refines_eval runs c block_code value disciplined
    refine ⟨values.bind fun v => refines_quiet ?_, ?_⟩
    · intro m
      refine .read ?_
      rw [← bind_pure_comp]
      exact (Run.quiet_ofOption _).bind (fun _ => Run.quiet_pure _) m
    · intro m b m' ready ending
      have valid := (values m ready).follows.valid
      obtain ⟨v, block, evaluated, found, rfl⟩ := Run.ofProc_eq_ok ending
      rw [evaluated] at valid
      rintro _ ⟨⟩
      exact valid.block found

end

theorem refines_runEntry (calls : Nat) :
    CallerRefines (runEntry calls) (Handled.runEntry calls) := by
  induction calls with
  | zero =>
    intro entry frame receiver args block _ _ m ready
    exact .exit ready nofun
  | succ calls ih =>
    intro entry frame receiver args block code block_code
    cases entry with
    | builtin method => exact refines_builtin ih block_code frame receiver args method
    | code body => exact refines_eval ih ⟨frame, receiver, args, block⟩ block_code body code

theorem refines_evalMain (program : Expr) (disciplined : program.isDisciplined = true) :
    Refines .main (Run.evalMain program) (Handled.evalMain program) :=
  fun m => .read (refines_eval (refines_runEntry _) ⟨.main, .object .main, [], none⟩ .none program
    disciplined m)

/-! ### Sessions -/

namespace Machine

/-- Ready to run a program in the main frame, with no handler registered. -/
structure Rested (m : Machine) : Prop where
  ready : m.Ready .main
  no_targets : m.frames.active .main = []

theorem rested_boot (settings : Settings) : (boot settings).Rested := by
  have no_targets : (boot settings).frames.active .main = [] := by rfl
  have present : FrameId.main.index < (boot settings).frames.size := Nat.zero_lt_succ _
  refine ⟨⟨valid_boot settings, present, ?_⟩, no_targets⟩
  rw [no_targets]
  exact nofun

theorem Rested.follows {m m' : Machine} (rested : m.Rested) (follows : m.Follows m') : m'.Rested :=
  ⟨follows.ready rested.ready, (follows.active .main).trans rested.no_targets⟩

theorem Rested.clearLog {m : Machine} (rested : m.Rested) : m.clearLog.Rested := by
  refine rested.follows (Calmly.follows (.single ⟨?_, .refl _⟩) rested.ready.valid)
  exact .observe m.globals m.symbols m.missReason m.counters { m.desk with log := [] } m.heap.gate

theorem Rested.runProgram {m : Machine} (rested : m.Rested) {program : Expr}
    (disciplined : program.isDisciplined = true) : (m.runProgram program).2.Rested :=
  rested.clearLog.follows (refines_evalMain program disciplined _ rested.clearLog.ready).follows

def afterPrograms (settings : Settings) (programs : List Expr) : Machine :=
  programs.foldl (fun m program => (m.runProgram program).2) (boot settings)

theorem rested_afterPrograms (settings : Settings) {programs : List Expr}
    (disciplined : ∀ program ∈ programs, program.isDisciplined = true) :
    (afterPrograms settings programs).Rested := by
  have rested : ∀ m : Machine, m.Rested →
      (programs.foldl (fun m program => (m.runProgram program).2) m).Rested := by
    induction programs with
    | nil => exact fun m rested => rested
    | cons program rest ih =>
      intro m rested
      have first := rested.runProgram (disciplined program List.mem_cons_self)
      exact ih (fun later mem => disciplined later (List.mem_cons_of_mem program mem)) _ first
  exact rested _ (rested_boot settings)

end Machine

/-- A program ends as under one stack of handlers, on the same machine, after any session; a throw
does not leave it, and a raise that leaves it has no target. A signal that leaves a region of it
goes to the innermost handler that takes it; if the region is rescued or caught, the same payload is
delivered and the same value is returned as under the stack. -/
theorem unwinding_refines_handlers (settings : Settings) (earlier : List Expr) (program : Expr)
    (disciplined : ∀ p ∈ program :: earlier, p.isDisciplined = true) :
    let m := (Machine.afterPrograms settings earlier).clearLog
    Handled.evalMain program [] m = observed (Run.evalMain program m) ∧
    (∀ tag value target,
      (Run.evalMain program m).1 ≠ .error (.signal (.throw tag value target))) ∧
    (∀ id target, (Run.evalMain program m).1 = .error (.signal (.raise id target)) →
      target = none) ∧
    ∀ calls (c : Context) body (at_region : Machine), DisciplinedBlock c.block →
      body.isDisciplined = true → at_region.Ready c.frame →
        (∀ s, (Run.eval (runEntry calls) c body at_region).1 = .error (.signal s) →
          s.Aimed (at_region.frames.active c.frame)) ∧
        Handled.rescue c.frame (Handled.eval (Handled.runEntry calls) c body)
            (at_region.handlersOf c.frame) at_region =
          observed (Run.rescue c.frame (Run.eval (runEntry calls) c body) at_region) ∧
        ∀ tag, Handled.catching c.frame tag (Handled.eval (Handled.runEntry calls) c body)
            (at_region.handlersOf c.frame) at_region =
          observed (Run.catching c.frame tag (Run.eval (runEntry calls) c body) at_region) := by
  intro m
  have rested : m.Rested := (Machine.rested_afterPrograms settings fun p mem =>
    disciplined p (List.mem_cons_of_mem program mem)).clearLog
  obtain ⟨-, aimed, same⟩ :=
    refines_evalMain program (disciplined program List.mem_cons_self) m rested.ready
  have no_handlers : m.handlersOf .main = [] := congrArg (List.map _) rested.no_targets
  rw [no_handlers] at same
  rw [rested.no_targets] at aimed
  refine ⟨same, ?_, ?_, ?_⟩
  · intro tag value target escapes
    have found := aimed _ escapes
    cases found
  · intro id target escapes
    exact aimed _ escapes
  · intro calls c body at_region block_code body_ok ready
    have refines := refines_eval (refines_runEntry calls) c block_code body body_ok
    exact ⟨(refines at_region ready).aimed, (refines_rescue refines at_region ready).same,
      fun tag => (refines_catching tag refines at_region ready).same⟩

/-- A throw passes a rescue on its way to the catch, and a cleanup. -/
def passing : Expr :=
  .catching (.literal (.symbol "tag"))
    (.rescue
      (.ensure (.prim .throw (.cons (.literal (.symbol "tag")) (.cons (.literal (.int 1)) .nil)))
        (.prim .log (.cons (.literal (.int 2)) .nil)))
      (.literal (.int 3)))

theorem unwinding_refines_handlers_passing :
    passing.isDisciplined = true ∧
    Handled.evalMain passing [] (Machine.boot .standard).clearLog =
      observed (Run.evalMain passing (Machine.boot .standard).clearLog) :=
  have disciplined : passing.isDisciplined = true := by decide
  ⟨disciplined, (unwinding_refines_handlers .standard [] passing fun _ mem =>
    List.mem_singleton.1 mem ▸ disciplined).1⟩

end ObjectRuntime
