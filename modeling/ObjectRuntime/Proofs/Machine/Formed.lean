import ObjectRuntime.Proofs.Machine.Calling
import ObjectRuntime.Proofs.Machine.Programs

/-!
# Formed machines

Every evaluation of code that is in order performs deeds, whatever it calls and however it ends:
`runEntry` is a runner that does, by induction on the number of calls that may still nest. A machine
is formed if deeds of ordinary code lead to it from a new one. Ordinary programs lead from formed
machines to formed machines.
-/

set_option autoImplicit false

namespace ObjectRuntime

variable {free : Bool} {m : Machine}

namespace Run

variable {α : Type} {run : Runner} {block : Option Block}

/-! ### Expressions -/

theorem performs_stash (key : String) {x : Run Value} (performs : Performs free x) :
    Performs free (stash key x) := by
  refine performs.attempt.bind fun outcome => ?_
  split
  next => exact performs_pure _
  next s => exact Performs.bind (fun m _ => deeds_desk free m _) fun _ => performs_pure _
  next => exact performs_exit _

theorem performs_runMain {x : Run Value} (performs : Performs free x) :
    Performs free (runMain x) := by
  refine performs.attempt.bind fun outcome => ?_
  split
  next v => exact performs_pure v
  next s =>
    exact (performs_uncaught .main s).bind fun report => (performs_log _).bind fun _ =>
      performs_pure _
  next => exact performs_exit _

theorem deeds_writeBack (free : Bool) (slot : Option String) (before after : Value) (m : Machine) :
    Deeds free m (writeBack slot before after m) := by
  unfold writeBack
  split
  next name =>
    split
    next => exact deeds_desk free m _
    next => exact .refl
  next => exact .refl

structure PerformsBlock (free : Bool) (x : Run (Option Block)) : Prop where
  performs : Performs free x
  coded : ∀ m b m', m.Coded free → x m = (.ok b, m') → CodedBlock free b

theorem PerformsBlock.bind {x : Run (Option Block)} {f : Option Block → Run α}
    (first : PerformsBlock free x) (rest : ∀ b, CodedBlock free b → Performs free (f b)) :
    Performs free (x >>= f) := by
  intro m
  refine .of_coded fun coded => (first.performs m).bind fun b m' ending => ?_
  exact rest b (first.coded m b m' coded ending) m'

theorem written_code (capture : Capture) (code : Expr) (frame : FrameId) :
    (body capture code frame).builtin? = none := by
  cases capture <;> rfl

mutual

theorem performs_eval (runs : RunnerPerforms free run) (c : Context)
    (block_coded : CodedBlock free c.block) (e : Expr) (ordinary : Ordinary free e) :
    Performs free (eval run c e) := by
  cases e with
  | literal value =>
    rw [eval]
    exact performs_ofLiteral value
  | constant name =>
    rw [eval]
    exact (performs_read _).bind fun _ => performs_ofOption _
  | register name =>
    rw [eval]
    exact (performs_read _).bind fun _ => performs_ofOption _
  | prim step operands =>
    rw [eval]
    rw [Ordinary, Expr.isOrdinary] at ordinary
    obtain ⟨step_ok, operands_ok⟩ := ordinary.and
    exact (performs_evalArgs runs c block_coded operands operands_ok).bind fun operands =>
      performs_perform c step operands step_ok
  | seq first second =>
    rw [eval]
    rw [Ordinary, Expr.isOrdinary] at ordinary
    obtain ⟨first_ok, second_ok⟩ := ordinary.and
    exact (performs_eval runs c block_coded first first_ok).bind fun _ =>
      performs_eval runs c block_coded second second_ok
  | cond test yes no =>
    rw [eval]
    rw [Ordinary, Expr.isOrdinary] at ordinary
    obtain ⟨tested, no_ok⟩ := ordinary.and
    obtain ⟨test_ok, yes_ok⟩ := tested.and
    refine (performs_eval runs c block_coded test test_ok).bind fun v => (performs_read _).bind ?_
    intro truthy
    split
    next => exact performs_eval runs c block_coded yes yes_ok
    next => exact performs_eval runs c block_coded no no_ok
  | times count body =>
    rw [eval]
    rw [Ordinary, Expr.isOrdinary] at ordinary
    exact ((performs_eval runs c block_coded body ordinary).times count).bind fun _ =>
      performs_pure _
  | send kind receiver selector args block =>
    rw [eval]
    rw [Ordinary, Expr.isOrdinary] at ordinary
    obtain ⟨operands, block_ok⟩ := ordinary.and
    obtain ⟨receiver_ok, args_ok⟩ := operands.and
    refine (performs_eval runs c block_coded receiver receiver_ok).bind fun before =>
      (performs_evalArgs runs c block_coded args args_ok).bind fun args =>
        (performs_evalBlock runs c block_coded block block_ok).bind fun block given =>
          (performs_route before selector args).bind fun route => ?_
    exact (performs_follow runs given c.frame kind selector args route).afterward
      fun m _ => deeds_writeBack free _ _ _ m
  | identifier receiver name args =>
    rw [eval]
    rw [Ordinary, Expr.isOrdinary] at ordinary
    obtain ⟨receiver_ok, args_ok⟩ := ordinary.and
    refine (performs_eval runs c block_coded receiver receiver_ok).bind fun before =>
      (performs_evalArgs runs c block_coded args args_ok).bind fun args => ?_
    exact performs_identify runs c.frame before name args fun after result performs =>
      performs.afterward fun m _ => deeds_writeBack free _ _ _ m
  | callSuper args block =>
    rw [eval]
    rw [Ordinary, Expr.isOrdinary] at ordinary
    obtain ⟨args_ok, block_ok⟩ := ordinary.and
    exact (performs_evalArgs runs c block_coded args args_ok).bind fun args =>
      (performs_evalBlock runs c block_coded block block_ok).bind fun block given =>
        performs_callSuper runs given c.frame c.receiver args
  | invoke owner name receiver args block =>
    rw [eval]
    rw [Ordinary, Expr.isOrdinary] at ordinary
    obtain ⟨operands, block_ok⟩ := ordinary.and
    obtain ⟨targets, args_ok⟩ := operands.and
    obtain ⟨owner_ok, receiver_ok⟩ := targets.and
    refine (performs_eval runs c block_coded owner owner_ok).bind fun v =>
      (performs_moduleOf v).bind fun owner =>
        (performs_eval runs c block_coded receiver receiver_ok).bind fun receiver =>
          (performs_evalArgs runs c block_coded args args_ok).bind fun args =>
            (performs_evalBlock runs c block_coded block block_ok).bind fun block given m => ?_
    refine .of_coded fun coded => .read (.ofOption ?_)
    intro method found
    exact performs_invokeAt runs c.frame (coded.valid.findMethod found) receiver args given none m
  | yield args =>
    rw [eval]
    rw [Ordinary, Expr.isOrdinary] at ordinary
    intro m
    refine .of_coded fun coded => .read ?_
    split
    next => exact performs_fail _ (.inr rfl) m
    next block current =>
      have block_ok := coded.currentBlock c.frame block current
      exact (performs_evalArgs runs c block_coded args ordinary).bind
        (fun args => performs_callBlock runs c.frame block_ok args) m
  | call block args =>
    rw [eval]
    rw [Ordinary, Expr.isOrdinary] at ordinary
    obtain ⟨block_ok, args_ok⟩ := ordinary.and
    refine (performs_evalBlock runs c block_coded block block_ok).bind fun block given m =>
      .ofOption ?_
    rintro block rfl
    exact (performs_evalArgs runs c block_coded args args_ok).bind
      (fun args => performs_callBlock runs c.frame (given block rfl) args) m
  | makeProc arity body =>
    rw [eval]
    rw [Ordinary, Expr.isOrdinary] at ordinary
    exact fun _ => .newObject (.proc _ (.of_code ordinary c.frame arity c.receiver))
  | defineMethod owner name arity capture code visibility =>
    rw [eval]
    rw [Ordinary, Expr.isOrdinary] at ordinary
    obtain ⟨owner_ok, code_ok⟩ := ordinary.and
    refine (performs_eval runs c block_coded owner owner_ok).bind fun v =>
      (performs_moduleOf v).bind fun owner => ?_
    have written : Permits free (body capture code c.frame).builtin?.isNone := .inr (by
      rw [written_code]
      rfl)
    exact (performs_defineMethod
      { Method.plain name owner arity (body capture code c.frame) with visibility }
      (Body.satisfies_code capture c.frame code_ok) written rfl).bind fun _ => performs_pure _
  | defineFromBlock owner name block =>
    rw [eval]
    rw [Ordinary, Expr.isOrdinary] at ordinary
    obtain ⟨owner_ok, block_ok⟩ := ordinary.and
    refine (performs_eval runs c block_coded owner owner_ok).bind fun v =>
      (performs_moduleOf v).bind fun owner =>
        (performs_evalBlock runs c block_coded block block_ok).bind fun block given m =>
          .ofOption ?_
    rintro block rfl
    exact ((performs_defineMethod (.ofBlock name owner block) (given block rfl).code
      (given block rfl).permits_ofBlock rfl).bind fun _ => performs_pure _) m
  | defineSingleton target name arity capture code =>
    rw [eval]
    rw [Ordinary, Expr.isOrdinary] at ordinary
    obtain ⟨target_ok, code_ok⟩ := ordinary.and
    refine (performs_eval runs c block_coded target target_ok).bind fun target => ?_
    exact (performs_defineSingleton c.frame target name arity (body capture code c.frame)
      (Body.satisfies_code capture c.frame code_ok) (written_code capture code c.frame)).bind
        fun _ => performs_pure _
  | within owner body =>
    rw [eval]
    rw [Ordinary, Expr.isOrdinary] at ordinary
    obtain ⟨owner_ok, body_ok⟩ := ordinary.and
    exact (performs_eval runs c block_coded owner owner_ok).bind fun v =>
      (performs_moduleOf v).bind fun owner => (performs_read _).bind fun found =>
        (performs_ofOption found).bind fun frame => (performs_read _).bind fun receiver =>
          performs_eval runs ⟨frame, receiver, [], none⟩ .none body body_ok
  | inFrame kind linked body =>
    rw [eval]
    rw [Ordinary, Expr.isOrdinary] at ordinary
    have fresh : Performs free (newFrame { Frame.fresh kind (some c.frame) with
        caller := if linked then some c.frame else none }) := performs_newFrame (.of_none rfl rfl)
    refine fresh.bind fun frame => ?_
    refine (performs_eval runs { c with frame } block_coded body ordinary).afterward ?_
    exact fun m coded => deeds_frames fun _ _ =>
      coded.editFrame frame (fun f => { f with caller := none }) (fun _ => rfl) fun _ => rfl
  | rescue body handler =>
    rw [eval]
    rw [Ordinary, Expr.isOrdinary] at ordinary
    obtain ⟨body_ok, handler_ok⟩ := ordinary.and
    refine (performs_rescue (performs_eval runs c block_coded body body_ok)).bind ?_
    intro rescued
    split
    next v => exact performs_pure v
    next => exact performs_eval runs c block_coded handler handler_ok
  | catching tag body =>
    rw [eval]
    rw [Ordinary, Expr.isOrdinary] at ordinary
    obtain ⟨tag_ok, body_ok⟩ := ordinary.and
    exact (performs_eval runs c block_coded tag tag_ok).bind fun tag =>
      performs_catching (performs_eval runs c block_coded body body_ok)
  | ensure body cleanup =>
    rw [eval]
    rw [Ordinary, Expr.isOrdinary] at ordinary
    obtain ⟨body_ok, cleanup_ok⟩ := ordinary.and
    exact performs_ensure (performs_eval runs c block_coded body body_ok)
      ((performs_eval runs c block_coded cleanup cleanup_ok).bind fun _ => performs_pure ())
  | stash key body =>
    rw [eval]
    rw [Ordinary, Expr.isOrdinary] at ordinary
    exact performs_stash key (performs_eval runs c block_coded body ordinary)
  | runMain body =>
    rw [eval]
    rw [Ordinary, Expr.isOrdinary] at ordinary
    exact performs_runMain (performs_eval runs { c with frame := .main } block_coded body ordinary)

theorem performs_evalArgs (runs : RunnerPerforms free run) (c : Context)
    (block_coded : CodedBlock free c.block) (args : Args)
    (ordinary : Permits free args.isOrdinary) : Performs free (evalArgs run c args) := by
  cases args with
  | nil =>
    rw [evalArgs]
    exact performs_pure []
  | cons first rest =>
    rw [evalArgs]
    rw [Args.isOrdinary] at ordinary
    obtain ⟨first_ok, rest_ok⟩ := ordinary.and
    exact (performs_eval runs c block_coded first first_ok).bind fun _ =>
      (performs_evalArgs runs c block_coded rest rest_ok).bind fun _ => performs_pure _
  | splice start rest =>
    rw [evalArgs]
    rw [Args.isOrdinary] at ordinary
    exact (performs_evalArgs runs c block_coded rest ordinary).bind fun _ => performs_pure _

theorem performs_evalBlock (runs : RunnerPerforms free run) (c : Context)
    (block_coded : CodedBlock free c.block) (block : BlockArg)
    (ordinary : Permits free block.isOrdinary) : PerformsBlock free (evalBlock run c block) := by
  cases block with
  | none =>
    rw [evalBlock]
    refine ⟨performs_pure _, ?_⟩
    rintro m _ _ - ⟨⟩
    exact .none
  | literal arity body =>
    rw [evalBlock]
    rw [BlockArg.isOrdinary] at ordinary
    refine ⟨performs_pure _, ?_⟩
    rintro m _ _ - ⟨⟩ b ⟨⟩
    exact .of_code ordinary c.frame arity c.receiver
  | passed =>
    rw [evalBlock]
    refine ⟨performs_pure _, ?_⟩
    rintro m _ _ - ⟨⟩
    exact block_coded
  | current =>
    rw [evalBlock]
    refine ⟨performs_read _, ?_⟩
    rintro m _ _ coded ⟨⟩
    exact coded.currentBlock c.frame
  | ofProc value =>
    rw [evalBlock]
    rw [BlockArg.isOrdinary] at ordinary
    have values := performs_eval runs c block_coded value ordinary
    refine ⟨values.bind fun v => (performs_read _).bind fun found => ?_, ?_⟩
    · rw [← bind_pure_comp]
      exact (performs_ofOption _).bind fun _ => performs_pure _
    · intro m b m' coded ending
      have later := (values m coded).coded coded
      obtain ⟨v, block, evaluated, found, rfl⟩ := ofProc_eq_ok ending
      rw [evaluated] at later
      rintro _ ⟨⟩
      exact later.block found

end

theorem performs_runEntry (calls : Nat) : RunnerPerforms free (runEntry calls) := by
  induction calls with
  | zero => exact fun _ _ _ _ _ _ _ => performs_exit _
  | succ calls ih =>
    intro entry frame receiver args block code block_coded
    cases entry with
    | builtin method => exact performs_builtin ih block_coded frame receiver args method
    | code body => exact performs_eval ih ⟨frame, receiver, args, block⟩ block_coded body code

theorem performs_evalMain {program : Expr} (ordinary : Ordinary free program) :
    Performs free (evalMain program) :=
  (performs_read _).bind fun nesting =>
    performs_eval (performs_runEntry nesting) ⟨.main, .object .main, [], none⟩ .none program
      ordinary

end Run

/-! ### Formed machines -/

namespace Machine

theorem coded_boot (free : Bool) (settings : Settings) : (boot settings).Coded free := by
  refine ⟨valid_boot settings, ?_, ?_⟩
  · intro id f b at_id passed
    rw [(idle_boot at_id).block] at passed
    cases passed
  · intro id o b at_id is_proc
    have no_blocks : startObjects.all (fun o => !o.payload.isBlock) = true := by decide
    change startObjects.toArray[id.index]? = some o at at_id
    rw [List.getElem?_toArray] at at_id
    have no_block := List.all_eq_true.1 no_blocks o (List.mem_of_getElem? at_id)
    rw [is_proc] at no_block
    cases no_block

/-- Deeds of ordinary code lead to the machine from a new one. -/
def Formed (m : Machine) : Prop := ∃ settings, Deeds false (.boot settings) m

theorem formed_boot (settings : Settings) : (boot settings).Formed := ⟨settings, .refl⟩

theorem Formed.coded (formed : m.Formed) : m.Coded false := by
  obtain ⟨settings, deeds⟩ := formed
  exact deeds.coded (coded_boot false settings)

theorem Formed.deeds {m' : Machine} (formed : m.Formed) (deeds : Deeds false m m') : m'.Formed := by
  obtain ⟨settings, before⟩ := formed
  exact ⟨settings, before.trans deeds⟩

theorem Formed.reachable (formed : m.Formed) : m.Reachable := by
  obtain ⟨settings, deeds⟩ := formed
  exact ⟨settings, deeds.steps⟩

theorem Formed.induction (I : Machine → Prop) (boot : ∀ settings, I (.boot settings))
    (deed : ∀ m m', m.Formed → I m → Deed false m m' → I m') (formed : m.Formed) : I m := by
  obtain ⟨settings, deeds⟩ := formed
  induction deeds with
  | refl => exact boot settings
  | tail before last ih => exact deed _ _ ⟨settings, before⟩ ih last

theorem Formed.performs {α : Type} {x : Run α} (formed : m.Formed)
    (performs : Run.Performs false x) : (x m).2.Formed := formed.deeds (performs m formed.coded)

theorem Formed.eval (formed : m.Formed) (calls : Nat) {c : Context}
    (block_coded : CodedBlock false c.block) {e : Expr} (ordinary : e.isOrdinary = true) :
    (Run.eval (runEntry calls) c e m).2.Formed :=
  formed.performs (Run.performs_eval (Run.performs_runEntry calls) c block_coded e (.inr ordinary))

theorem Formed.runProgram (formed : m.Formed) {program : Expr}
    (ordinary : program.isOrdinary = true) : (m.runProgram program).2.Formed := by
  have cleared : m.clearLog.Formed := formed.deeds (Run.deeds_desk false m _)
  have after : (Run.evalMain program m.clearLog).2.Formed :=
    cleared.performs (Run.performs_evalMain (.inr ordinary))
  exact after

/-! ### Machines that any code leaves -/

/-- Deeds of any code lead to the machine from a new one. -/
def Worked (m : Machine) : Prop := ∃ settings, Deeds true (.boot settings) m

theorem Worked.coded (worked : m.Worked) : m.Coded true := by
  obtain ⟨settings, deeds⟩ := worked
  exact deeds.coded (coded_boot true settings)

theorem Worked.deeds {m' : Machine} (worked : m.Worked) (deeds : Deeds true m m') : m'.Worked := by
  obtain ⟨settings, before⟩ := worked
  exact ⟨settings, before.trans deeds⟩

theorem Worked.reachable (worked : m.Worked) : m.Reachable := by
  obtain ⟨settings, deeds⟩ := worked
  exact ⟨settings, deeds.steps⟩

theorem Worked.induction (I : Machine → Prop) (boot : ∀ settings, I (.boot settings))
    (deed : ∀ m m', I m → Deed true m m' → I m') (worked : m.Worked) : I m := by
  obtain ⟨settings, deeds⟩ := worked
  induction deeds with
  | refl => exact boot settings
  | tail before last ih => exact deed _ _ ih last

theorem Worked.performs {α : Type} {x : Run α} (worked : m.Worked)
    (performs : Run.Performs true x) : (x m).2.Worked := worked.deeds (performs m worked.coded)

theorem Worked.eval (worked : m.Worked) (calls : Nat) {c : Context}
    (block_coded : CodedBlock true c.block) (e : Expr) :
    (Run.eval (runEntry calls) c e m).2.Worked :=
  worked.performs
    (Run.performs_eval (Run.performs_runEntry calls) c block_coded e (.inl rfl))

theorem Worked.runProgram (worked : m.Worked) (program : Expr) :
    (m.runProgram program).2.Worked := by
  have cleared : m.clearLog.Worked := worked.deeds (Run.deeds_desk true m _)
  have after : (Run.evalMain program m.clearLog).2.Worked :=
    cleared.performs (Run.performs_evalMain (.inl rfl))
  exact after

end Machine

end ObjectRuntime
