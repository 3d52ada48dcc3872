import ObjectRuntime.Proofs.Dispatch.Direct

/-!
# What answers a send

A send is answered by an operator, by a method, or by the fallback, which records the reason it was
taken for. Which of them it is can be read off the machine before the send: `Machine.reply` settles
it from the definition that is found for the value. The main statement is `sends_agree`: every send
ends as its reply says, whether a value responds to a name is whether the reply runs a definition,
and neither a send nor its fallback nor a super call ever enters a placeholder.

Nothing is said here of what the bodies do once they run.
-/

set_option autoImplicit false

namespace ObjectRuntime

open Run

inductive Reply where
  | operator (op : Operator) (argument : Value)
  | method (method : Method)
  | missing (reason : MissReason)

def Reply.runs : Reply → Bool
  | operator _ _ | method _ => true
  | missing _ => false

def MissReason.visibility? : MissReason → Option Visibility
  | notFound => none
  | hidden => some .isPrivate
  | guarded => some .isProtected

namespace Machine

def definition? (m : Machine) (v : Value) (name : String) : Option Method :=
  Method.defined? <|
    match v with
    | .object id => m.resolve id name
    | _ => m.hierarchy.findMethod (m.classOf v) name

def reply (m : Machine) (kind : SendKind) (v : Value) (name : String) (args : List Value) : Reply :=
  match directOperator? m v name args with
  | some (op, argument) => .operator op argument
  | none =>
    match m.definition? v name with
    | none => .missing .notFound
    | some method =>
      match refusal? kind method with
      | some reason => .missing reason
      | none => .method method

/-- What a reply says about the definition that is found. -/
def Accounts (m : Machine) (kind : SendKind) (v : Value) (name : String) (args : List Value) :
    Reply → Prop
  | .operator op argument =>
    args = [argument] ∧ ∃ method, m.definition? v name = some method ∧ method.Runs op ∧
      method.isPublic = true
  | .method method =>
    m.definition? v name = some method ∧ (kind = .publicOnly → method.isPublic = true)
  | .missing reason =>
    (reason = .notFound ∧ m.definition? v name = none) ∨
      kind = .publicOnly ∧ ∃ method, m.definition? v name = some method ∧
        reason.visibility? = some method.visibility

/-- The object that stands for the receiver: itself, or for a number a new one that finds the same
definitions. -/
structure Receives (m : Machine) (v : Value) (ready : Machine) (id : ObjectId) : Prop
    extends m.Prepares ready where
  stands : v = .object id ∨
    v.isImmediate = true ∧ m.heap.get? id = none ∧ ready.num? (.object id) = m.num? v
  same : ∀ name, ready.definition? (.object id) name = m.definition? v name

end Machine

/-! ### Outcomes -/

/-- How a send ends, by its reply. The fallback runs `method_missing` after the reason has been
recorded, or raises the exception of that reason. -/
inductive Answers (run : Runner) (env : FrameId) (m : Machine) (v : Value) (name : String)
    (args : List Value) (block : Option Block) : Reply → Except Exit Value × Machine → Prop where
  | operator (op : Operator) (argument : Value) (ready : Machine) (prepares : m.Prepares ready) :
      Answers run env m v name args block (.operator op argument)
        (applyOperator env op v argument ready)
  | method (method : Method) (id : ObjectId) (ready : Machine)
      (outcome : Except Exit Value × Machine) (receives : m.Receives v ready id)
      (entered : Entered run env method (.object id) args block none ready outcome) :
      Answers run env m v name args block (.method method) outcome
  | handler (reason : MissReason) (id : ObjectId) (handler : Method) (selector : Value)
      (noted ready : Machine) (outcome : Except Exit Value × Machine)
      (receives : m.Receives v noted id) (recorded : noted.missReason = reason)
      (found : m.definition? v "method_missing" = some handler)
      (named : symbol name noted = (.ok selector, ready))
      (entered : Entered run env handler (.object id) (selector :: args) block none ready outcome) :
      Answers run env m v name args block (.missing reason) outcome
  | unhandled (reason : MissReason) (id : ObjectId) (noted : Machine)
      (receives : m.Receives v noted id) (recorded : noted.missReason = reason)
      (absent : m.definition? v "method_missing" = none) :
      Answers run env m v name args block (.missing reason)
        (fail env (.methodMissing reason name (noted.describeReceiver (.object id))) noted)

/-- How a super call ends: with a fault, or in the body of another definition. -/
inductive Continues (run : Runner) (env : FrameId) (m : Machine) (args : List Value) :
    Except Exit Value × Machine → Prop where
  | outside : Continues run env m args (fail env .superOutsideMethod m)
  | absent (current : Method) (recorded : Option Nat) (id : ObjectId) (ready : Machine)
      (prepares : m.Prepares ready) (next : nextDefinition ready id current recorded = none) :
      Continues run env m args
        (fail env (.noSuperMethod current.name (ready.describeReceiver (.object id))) ready)
  | body (current : Method) (recorded : Option Nat) (id : ObjectId) (method : Method)
      (block : Option Block) (place : Option Nat) (ready : Machine)
      (outcome : Except Exit Value × Machine) (prepares : m.Prepares ready)
      (next : nextDefinition ready id current recorded = some (place, method))
      (entered : Entered run env method (.object id) args block place ready outcome) :
      Continues run env m args outcome

/-! ### The definition found -/

namespace Machine

variable {m : Machine} {v : Value} {name : String}

theorem respondsTo_eq (m : Machine) (v : Value) (name : String) (includePrivate : Bool) :
    m.respondsTo v name includePrivate =
      (m.definition? v name).any fun method => includePrivate || method.isPublic := by
  unfold respondsTo definition?
  cases v <;> dsimp only <;> split <;> simp_all

theorem isUndefined_of_definition? {method : Method} (found : m.definition? v name = some method) :
    method.isUndefined = false := by
  have kept := (Option.filter_eq_some_iff.1 found).2
  simpa using kept

theorem definition?_of_directTable {cls : ModuleId} {table : List Operator}
    (at_receiver : directTable v = some (cls, table)) :
    m.definition? v name = Method.defined? (m.hierarchy.findMethod cls name) := by
  cases v with
  | object id => cases at_receiver
  | int i =>
    obtain ⟨rfl, -⟩ := Prod.mk.inj (Option.some.inj at_receiver)
    rfl
  | float x =>
    obtain ⟨rfl, -⟩ := Prod.mk.inj (Option.some.inj at_receiver)
    rfl

theorem args_of_direct {args : List Value} {op : Operator} {argument : Value}
    (direct : directOperator? m v name args = some (op, argument)) : args = [argument] := by
  obtain ⟨⟨cls, table⟩, -, rest⟩ := Option.bind_eq_some_iff.1 direct
  obtain ⟨found_op, -, rest⟩ := Option.bind_eq_some_iff.1 rest
  split at rest
  next only =>
    obtain ⟨method, -, rest⟩ := Option.bind_eq_some_iff.1 rest
    split at rest
    next => rw [(Prod.mk.inj (Option.some.inj rest)).2]
    next => cases rest
  next => cases rest

theorem Reachable.definition?_of_direct (reachable : m.Reachable) {args : List Value}
    {op : Operator} {argument : Value}
    (direct : directOperator? m v name args = some (op, argument)) :
    args = [argument] ∧ ∃ method, m.definition? v name = some method ∧ method.Runs op ∧
      method.isPublic = true := by
  obtain rfl := args_of_direct direct
  obtain ⟨cls, table, method, at_receiver, -, found, carries, visible⟩ :=
    directOperator?_eq_some direct
  have runs : method.Runs op := by
    have in_tables := found
    rw [Hierarchy.findMethod_eq] at in_tables
    obtain ⟨at_class, -, own⟩ := List.exists_of_findSome?_eq_some in_tables
    exact (reachable.tagged.admitted at_class name method own op carries).1
  have defined : method.isUndefined = false := by
    rw [Method.isUndefined, runs.2.2]
    rfl
  refine ⟨rfl, method, ?_, runs, visible⟩
  rw [definition?_of_directTable at_receiver, found, Method.defined?, Option.filter_some, defined]
  rfl

theorem Prepares.of_eq {m m' : Machine} (heap : m'.heap = m.heap)
    (hierarchy : m'.hierarchy = m.hierarchy) (frames : m'.frames = m.frames)
    (settings : m'.settings = m.settings) (depth : m'.depth = m.depth) : m.Prepares m' :=
  ⟨⟨fun _ _ at_id => heap ▸ at_id, hierarchy⟩, frames, settings, depth⟩

theorem definition?_congr {m m' : Machine} (heap : m'.heap = m.heap)
    (hierarchy : m'.hierarchy = m.hierarchy) (v : Value) (name : String) :
    m'.definition? v name = m.definition? v name := by
  unfold definition? resolve singletonMethod? module? object? classOf
  rw [heap, hierarchy]

theorem definition?_bare {id : ObjectId} {o : Object} (at_id : m.heap.get? id = some o)
    (bare : o.singletonMethods = .empty) (no_module : o.module? = none) :
    m.definition? (.object id) name = Method.defined? (m.hierarchy.findMethod o.cls name) := by
  change Method.defined? (m.resolve id name) = _
  rw [resolve_bare at_id bare no_module]

theorem Receives.of_eq {ready after : Machine} {id : ObjectId} (receives : m.Receives v ready id)
    (heap : after.heap = ready.heap) (hierarchy : after.hierarchy = ready.hierarchy)
    (frames : after.frames = ready.frames) (settings : after.settings = ready.settings)
    (depth : after.depth = ready.depth) : m.Receives v after id where
  toPrepares := receives.toPrepares.trans (.of_eq heap hierarchy frames settings depth)
  stands := by
    refine receives.stands.imp_right fun number => ⟨number.1, number.2.1, ?_⟩
    rw [← number.2.2]
    refine num?_of_payload? ?_
    change (after.heap.get? id).map (·.payload) = (ready.heap.get? id).map (·.payload)
    rw [heap]
  same := fun name => (definition?_congr heap hierarchy _ name).trans (receives.same name)

theorem receives_hydrate (m : Machine) (v : Value) :
    ∃ id ready, hydrate v m = (.ok id, ready) ∧ m.Receives v ready id := by
  cases at_receiver : directTable v with
  | none =>
    cases v with
    | object id => exact ⟨id, m, rfl, .refl m, .inl rfl, fun _ => rfl⟩
    | int i => cases at_receiver
    | float x => cases at_receiver
  | some entry =>
    obtain ⟨cls, table⟩ := entry
    obtain ⟨id, o, ready, hydrated, prepares, at_id, cls_eq, bare, no_module, number, -⟩ :=
      hydrate_eq m at_receiver
    have is_new : v.isImmediate = true ∧ m.heap.get? id = none := by
      have nothing := m.heap.get?_next
      cases v with
      | object id => cases at_receiver
      | int i => cases hydrated; exact ⟨rfl, nothing⟩
      | float x => cases hydrated; exact ⟨rfl, nothing⟩
    refine ⟨id, ready, hydrated, prepares, .inr ⟨is_new.1, is_new.2, number⟩, ?_⟩
    intro name
    rw [definition?_bare at_id bare no_module, definition?_of_directTable at_receiver,
      prepares.hierarchy, cls_eq]

theorem refusal?_eq_some {kind : SendKind} {method : Method} {reason : MissReason}
    (refused : refusal? kind method = some reason) :
    kind = .publicOnly ∧ reason.visibility? = some method.visibility := by
  unfold refusal? at refused
  split at refused
  next shown => cases refused; exact ⟨rfl, congrArg some shown.symm⟩
  next shown => cases refused; exact ⟨rfl, congrArg some shown.symm⟩
  next => cases refused

theorem refusal?_eq_none {kind : SendKind} {method : Method} (allowed : refusal? kind method = none)
    (only : kind = .publicOnly) : method.isPublic = true := by
  subst only
  unfold refusal? at allowed
  rw [Method.isPublic]
  cases shown : method.visibility <;> simp_all

theorem Reachable.accounts_reply (reachable : m.Reachable) (kind : SendKind) (v : Value)
    (name : String) (args : List Value) :
    m.Accounts kind v name args (m.reply kind v name args) := by
  unfold reply
  cases direct : directOperator? m v name args with
  | some answer => exact reachable.definition?_of_direct direct
  | none =>
    dsimp only
    cases found : m.definition? v name with
    | none => exact .inl ⟨rfl, found⟩
    | some method =>
      dsimp only
      cases refused : refusal? kind method with
      | none => exact ⟨found, refusal?_eq_none refused⟩
      | some reason =>
        obtain ⟨only, tells⟩ := refusal?_eq_some refused
        exact .inr ⟨only, method, found, tells⟩

theorem Reachable.runs_reply (reachable : m.Reachable) (kind : SendKind) (v : Value)
    (name : String) (args : List Value) :
    (m.reply kind v name args).runs = m.respondsTo v name (kind == .anyMethod) := by
  rw [respondsTo_eq]
  have accounts := reachable.accounts_reply kind v name args
  cases answer : m.reply kind v name args with
  | operator op argument =>
    rw [answer] at accounts
    obtain ⟨-, method, found, -, visible⟩ := accounts
    simp [found, visible, Reply.runs]
  | method method =>
    rw [answer] at accounts
    obtain ⟨found, visible⟩ := accounts
    cases kind with
    | anyMethod => simp [found, Reply.runs]
    | publicOnly => simp [found, visible rfl, Reply.runs]
  | missing reason =>
    rw [answer] at accounts
    obtain ⟨-, absent⟩ | ⟨rfl, method, found, tells⟩ := accounts
    · simp [absent, Reply.runs]
    · have invisible : method.isPublic = false := by
        rw [Method.isPublic]
        cases shown : method.visibility with
        | isPublic => rw [shown] at tells; cases reason <;> cases tells
        | isPrivate | isProtected => rfl
      simp [found, invisible, Reply.runs]

end Machine

namespace Run

variable {m : Machine} {env : FrameId} {args : List Value} {block : Option Block}

theorem answers_methodMissing (run : Runner) (env : FrameId) {v : Value} {id : ObjectId}
    (name : String) (args : List Value) (block : Option Block) (reason : MissReason)
    {ready : Machine} (receives : m.Receives v ready id) :
    Answers run env m v name args block (.missing reason)
      (methodMissing run env id name args block reason ready) := by
  let noted : Machine := (count .missing { ready with missReason := reason }).2
  have stands : m.Receives v noted id := receives.of_eq rfl rfl rfl rfl rfl
  have same : Method.defined? (noted.resolve id "method_missing") =
      m.definition? v "method_missing" := stands.same "method_missing"
  have noting : count .missing { ready with missReason := reason } = (.ok (), noted) := rfl
  unfold methodMissing
  simp only [run_bind, run_modify, run_read, noting, same]
  cases found : m.definition? v "method_missing" with
  | none => exact .unhandled reason id noted stands rfl found
  | some handler =>
    obtain ⟨selector, after, named⟩ :
        ∃ selector after, symbol name noted = (.ok selector, after) := by
      unfold symbol
      rw [run_bind, run_read]
      cases noted.symbols.get? name with
      | some known => exact ⟨.object known, noted, rfl⟩
      | none => exact ⟨_, _, rfl⟩
    simp only [run_bind, named]
    exact .handler reason id handler selector noted after _ stands rfl found named
      (entered_invokeAt run env _ _ _ _ after (Machine.isUndefined_of_definition? found))

theorem answers_sendToObject (run : Runner) (env : FrameId) (kind : SendKind) {v : Value}
    {id : ObjectId} {name : String} {args : List Value} (block : Option Block) {ready : Machine}
    (receives : m.Receives v ready id) (general : directOperator? m v name args = none) :
    Answers run env m v name args block (m.reply kind v name args)
      (sendToObject run env kind id name args block ready) := by
  have same : Method.defined? (ready.resolve id name) = m.definition? v name := receives.same name
  unfold sendToObject Machine.reply
  rw [run_bind, run_read, same, general]
  dsimp only
  cases found : m.definition? v name with
  | none => exact answers_methodMissing run env name args block .notFound receives
  | some method =>
    dsimp only
    cases refusal? kind method with
    | some reason => exact answers_methodMissing run env name args block reason receives
    | none =>
      exact .method method id ready _ receives
        (entered_invokeAt run env _ _ _ _ ready (Machine.isUndefined_of_definition? found))

theorem route_general {v : Value} {name : String}
    (general : directOperator? m v name args = none) :
    ∃ id ready, route v name args m = (.ok (.general id), ready) ∧ m.Receives v ready id := by
  let counted : Machine := (count .send m).2
  let noted : Machine := if v.isImmediate = true then (count .hydration counted).2 else counted
  have noted_eq : ∃ counters, noted = { m with counters } := by
    by_cases immediate : v.isImmediate = true
    · exact ⟨_, if_pos immediate⟩
    · exact ⟨_, if_neg immediate⟩
  have routed : route v name args m =
      (do return .general (← hydrate v) : Run Route) noted := by
    have counting : count .send m = (.ok (), counted) := rfl
    have still : directOperator? counted v name args = none := general
    unfold route
    simp only [run_bind, counting, run_read, still]
    cases v <;> rfl
  obtain ⟨counters, changed⟩ := noted_eq
  obtain ⟨id, ready, hydrated, receives⟩ := noted.receives_hydrate v
  refine ⟨id, ready, ?_, ?_⟩
  · rw [routed, run_bind, hydrated]
    rfl
  · rw [changed] at receives
    have noting : m.Prepares { m with counters } := .of_eq rfl rfl rfl rfl rfl
    exact ⟨noting.trans receives.toPrepares, receives.stands, receives.same⟩

theorem answers_send (run : Runner) (env : FrameId) (m : Machine) (kind : SendKind) (v : Value)
    (name : String) (args : List Value) (block : Option Block) :
    Answers run env m v name args block (m.reply kind v name args)
      (send run env kind v name args block m) := by
  cases direct : directOperator? m v name args with
  | some answer =>
    obtain ⟨op, argument⟩ := answer
    obtain rfl := Machine.args_of_direct direct
    obtain ⟨counters, -, sent⟩ := send_direct direct run env kind block
    rw [Machine.reply, direct, sent]
    exact .operator op argument { m with counters } (.of_eq rfl rfl rfl rfl rfl)
  | none =>
    obtain ⟨id, ready, routed, receives⟩ := route_general direct
    rw [send, run_bind, routed]
    exact answers_sendToObject run env kind block receives direct

theorem continues_callSuper (run : Runner) (env : FrameId) (receiver : Value) (args : List Value)
    (block : Option Block) (m : Machine) :
    Continues run env m args (callSuper run env receiver args block m) := by
  unfold callSuper
  rw [run_bind, run_read]
  dsimp only
  generalize Option.bind _ _ = running
  match running with
  | none => exact .outside
  | some (frame, current) =>
    obtain ⟨id, ready, hydrated, receives⟩ := m.receives_hydrate receiver
    simp only [run_bind, hydrated, run_read]
    cases next_found : nextDefinition ready id current frame.ancestorIndex with
    | none => exact .absent current _ id ready receives.toPrepares next_found
    | some found =>
      obtain ⟨place, method⟩ := found
      have defined : method.isUndefined = false := by
        have kept := (Option.filter_eq_some_iff.1 next_found).2
        simpa using kept
      cases block with
      | some block =>
        exact .body current _ id method (some block) place ready _ receives.toPrepares next_found
          (entered_invokeAt run env _ args _ place ready defined)
      | none =>
        exact .body current _ id method (ready.frames.currentBlock? env) place ready _
          receives.toPrepares next_found (entered_invokeAt run env _ args _ place ready defined)

end Run

/-- Every send ends as its reply says. A value responds to a name, private ones included, if a send
runs a definition of it, and it responds publicly if a public send does. What runs is the definition
that is found, and it is public if the send reaches public methods only. Where a public send falls
back and another send would not, the reason that is recorded tells the visibility of the definition.
Neither sends with their fallbacks nor super calls enter a placeholder. -/
theorem sends_agree {m : Machine} (reachable : m.Reachable) (v : Value) (name : String) :
    (∀ run env kind args block,
      Answers run env m v name args block (m.reply kind v name args)
        (send run env kind v name args block m)) ∧
    (∀ args,
      (m.respondsTo v name true = true ↔ (m.reply .anyMethod v name args).runs = true) ∧
      (m.respondsTo v name false = true ↔ (m.reply .publicOnly v name args).runs = true)) ∧
    (∀ kind args, m.Accounts kind v name args (m.reply kind v name args)) ∧
    (∀ args reason, m.reply .publicOnly v name args = .missing reason →
      (m.reply .anyMethod v name args).runs = true →
        ∃ method, m.definition? v name = some method ∧
          reason.visibility? = some method.visibility) ∧
    ∀ run env args block, Continues run env m args (callSuper run env v args block m) := by
  refine ⟨fun run env kind args block => answers_send run env m kind v name args block, ?_,
    fun kind args => reachable.accounts_reply kind v name args, ?_,
    fun run env args block => continues_callSuper run env v args block m⟩
  · intro args
    rw [reachable.runs_reply .anyMethod v name args, reachable.runs_reply .publicOnly v name args]
    exact ⟨.rfl, .rfl⟩
  · intro args reason fallen runs
    have accounts := reachable.accounts_reply .publicOnly v name args
    rw [fallen] at accounts
    obtain ⟨-, absent⟩ | ⟨-, method, found, tells⟩ := accounts
    · rw [reachable.runs_reply, Machine.respondsTo_eq, absent] at runs
      cases runs
    · exact ⟨method, found, tells⟩

/-- On a new machine a number does not respond publicly to `raise`, which is private to all objects:
a public send of it falls back, for the reason that it is hidden, and any other send runs it. -/
theorem sends_agree_hidden :
    (Machine.boot .standard).Reachable ∧
    (Machine.boot .standard).respondsTo (.int 1) "raise" false = false ∧
    (Machine.boot .standard).respondsTo (.int 1) "raise" true = true ∧
    (∃ method, (Machine.boot .standard).definition? (.int 1) "raise" = some method ∧
      MissReason.hidden.visibility? = some method.visibility) ∧
    Answers (runEntry 1) .main (.boot .standard) (.int 1) "raise" [] none (.missing .hidden)
      (send (runEntry 1) .main .publicOnly (.int 1) "raise" [] none (.boot .standard)) := by
  have reachable : (Machine.boot .standard).Reachable := ⟨.standard, .refl⟩
  have fallen : (Machine.boot .standard).reply .publicOnly (.int 1) "raise" [] =
      .missing .hidden := by
    have told : (match (Machine.boot .standard).reply .publicOnly (.int 1) "raise" [] with
      | .missing .hidden => true
      | _ => false) = true := by decide +kernel
    split at told
    next answer => exact answer
    next => cases told
  have runs : ((Machine.boot .standard).reply .anyMethod (.int 1) "raise" []).runs = true := by
    decide +kernel
  obtain ⟨answers, responds, -, records, -⟩ := sends_agree reachable (.int 1) "raise"
  refine ⟨reachable, ?_, (responds []).1.2 runs, records [] .hidden fallen runs, ?_⟩
  · refine Bool.eq_false_iff.2 fun shown => ?_
    have public_runs := (responds []).2.1 shown
    rw [fallen] at public_runs
    cases public_runs
  · have sent := answers (runEntry 1) .main .publicOnly [] none
    rw [fallen] at sent
    exact sent

end ObjectRuntime
