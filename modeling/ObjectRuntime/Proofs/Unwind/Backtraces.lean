import ObjectRuntime.Proofs.Unwind.Evaluations

/-!
# Exceptions keep their identity and their origin

Every evaluation continues the chronicle of its machine, so that whatever a rescue receives was
raised: the very object that a raise named. Its backtrace was written by its first raise, as the
chain of callers of the frame that raised it, and no later raise, rescue or new message changes it.
-/

set_option autoImplicit false

namespace ObjectRuntime

open Run

/-! ### One raise -/

namespace Machine

variable {m : Machine} {env : FrameId} {id : ObjectId} {data data' : ExceptionData}

def raisedData (m : Machine) (env : FrameId) (data : ExceptionData) : ExceptionData :=
  { data with backtrace := if data.backtrace = [] then m.backtrace env else data.backtrace }

def withData (m : Machine) (id : ObjectId) (data : ExceptionData) (other : ObjectId) :
    Option Object :=
  if other = id then (m.heap.get? other).map fun o => { o with payload := .exception data }
  else m.heap.get? other

/-- The computation ends with a raise of this very object, aimed at the nearest rescue. Of all
objects only the exception has changed, and of it only the data. -/
def Raises (m : Machine) (env : FrameId) (id : ObjectId) (data : ExceptionData)
    (ending : Except Exit Value × Machine) : Prop :=
  ∃ m', ending = (.error (.signal (.raise id (m.frames.findTarget env isRescue))), m') ∧
    ∀ other, m'.heap.get? other = m.withData id data other

theorem get?_mapException (is : m.exception? (.object id) = some data)
    (f : ExceptionData → ExceptionData) (other : ObjectId) :
    (m.heap.modify id fun o => o.mapException f).get? other = m.withData id (f data) other := by
  obtain ⟨o, at_id, is_exception⟩ := Option.bind_eq_some_iff.1 is
  change m.heap.get? id = some o at at_id
  rw [withData, Heap.get?_modify]
  by_cases same : other = id
  · subst same
    rw [if_pos rfl, if_pos rfl, at_id, Option.map_some, Option.map_some]
    rw [Object.mapException, Object.exception?_eq_some_iff.1 is_exception]
  · rw [if_neg (Ne.symm same), if_neg same]

theorem withData_self (is : m.exception? (.object id) = some data) (other : ObjectId) :
    m.withData id data other = m.heap.get? other := by
  rw [← get?_mapException is (fun d => d), Heap.get?_modify]
  have unchanged : ∀ o : Object, (o.mapException fun d => d) = o := by
    intro o
    cases o with
    | mk cls payload ivars singletonMethods => cases payload <;> rfl
  split
  next =>
    cases m.heap.get? other with
    | none => rfl
    | some o => exact congrArg some (unchanged o)
  next => rfl

theorem exception?_of_withData {m' : Machine} (is : m.exception? (.object id) = some data)
    (after : ∀ other, m'.heap.get? other = m.withData id data' other) :
    m'.exception? (.object id) = some data' := by
  obtain ⟨o, at_id, -⟩ := Option.bind_eq_some_iff.1 is
  change m.heap.get? id = some o at at_id
  change (m'.heap.get? id).bind Object.exception? = some data'
  rw [after, withData, if_pos rfl, at_id]
  rfl

theorem raises_raiseException (env : FrameId) (is : m.exception? (.object id) = some data) :
    m.Raises env id (m.raisedData env data) (raiseException env id m) := by
  have frames := recordBacktrace_frames env id m
  let counted : Machine := { (recordBacktrace env id m).2 with
    counters := (recordBacktrace env id m).2.counters.map fun c => c.count .raised 1 }
  have ending : (raiseException env id : Run Value) m = (.error (.signal (.raise id
      ((recordBacktrace env id m).2.frames.findTarget env isRescue))), counted) := rfl
  refine ⟨counted, ?_, fun other => ?_⟩
  · rw [ending, frames]
  · change (recordBacktrace env id m).2.heap.get? other = _
    rw [recordBacktrace_eq env is]
    split
    next unraised =>
      rw [raisedData, if_pos unraised]
      exact get?_mapException is _ other
    next raised =>
      rw [raisedData, if_neg raised]
      exact (withData_self is other).symm

theorem raise_eq (is : m.exception? (.object id) = some data) :
    (raise env (.object id) : Run Value) m = raiseException env id m := by
  have exception : m.isException (.object id) = true := Option.isSome_iff_exists.2 ⟨data, is⟩
  unfold raise
  rw [run_bind, run_read, exception]
  rfl

theorem raises_message (run : Runner) (env : FrameId) (message : Value) (rest : List Value)
    (is : m.exception? (.object id) = some data) :
    m.Raises env id (m.raisedData env { data with message := m.messageText message })
      (raiseByArgs run env (.object id :: message :: rest) m) := by
  obtain ⟨o, at_id, is_exception⟩ := Option.bind_eq_some_iff.1 is
  change m.heap.get? id = some o at at_id
  have payload := Object.exception?_eq_some_iff.1 is_exception
  have not_text : m.text? (.object id) = none := by
    unfold Machine.text? Machine.payload? Machine.object?
    simp [Value.object?, at_id, payload]
  have not_module : m.module? (.object id) = none := by
    unfold Machine.module? Machine.object?
    simp [Value.object?, at_id, Object.module?, payload]
  have exception : m.isException (.object id) = true := Option.isSome_iff_exists.2 ⟨data, is⟩
  -- the message is set first, which leaves the frames and the other objects
  let text := m.messageText message
  let renamed : Machine := { m with
    heap := m.heap.modify id fun o => o.mapException fun d => { d with message := text } }
  have raises : raiseByArgs run env (.object id :: message :: rest) m =
      (raise env (.object id) : Run Value) renamed := by
    unfold raiseByArgs
    simp only [run_bind, run_read, not_text, not_module, Option.map_none, Option.getD_none,
      Bool.false_eq_true, if_false, exception, if_true]
    rfl
  have edited : ∀ other, renamed.heap.get? other =
      m.withData id { data with message := text } other :=
    fun other => get?_mapException is (fun d => { d with message := text }) other
  have is' := exception?_of_withData is edited
  obtain ⟨m', ending, after⟩ := raises_raiseException env is'
  refine ⟨m', ?_, fun other => ?_⟩
  · rw [raises, raise_eq is', ending]
  · rw [after, withData, withData, edited, withData]
    by_cases same : other = id
    · subst same
      rw [if_pos rfl, if_pos rfl, if_pos rfl, at_id]
      rfl
    · rw [if_neg same, if_neg same, if_neg same]

/-- A rescue has delivered the exception: the handler is withdrawn, and the frame and the global
variable of the last error hold the object. -/
def delivered (m : Machine) (env : FrameId) (token : Token) (id : ObjectId) : Machine :=
  { m.closed env token with
    frames := (m.closed env token).frames.modify env fun f =>
      { f with exception := some (.object id) }
    globals := m.globals.insert lastError (.object id) }

end Machine

theorem Run.rescue_eq_delivered_iff {env : FrameId} {body : Run Value} {m m' : Machine}
    {v : Value} :
    rescue env body m = (.ok (.delivered v), m') ↔
      ∃ id after, body (m.opened env .rescue) =
          (.error (.signal (.raise id (some (m.nextTarget .rescue).token))), after) ∧
        v = .object id ∧ m' = after.delivered env (m.nextTarget .rescue).token id := by
  have ended : withTarget env .rescue body m =
      (.ok ((m.nextTarget .rescue).token, (body (m.opened env .rescue)).1),
        (body (m.opened env .rescue)).2.closed env (m.nextTarget .rescue).token) := rfl
  unfold rescue
  rw [run_bind, ended]
  obtain ⟨outcome, after⟩ := body (m.opened env .rescue)
  dsimp only
  split
  next value =>
    refine iff_of_false nofun ?_
    rintro ⟨_, _, is, -, -⟩
    cases is
  next id target =>
    split
    next own =>
      subst own
      constructor
      · intro delivers
        obtain ⟨outcome, rfl⟩ := Prod.mk.inj delivers
        exact ⟨id, after, rfl, (Rescued.delivered.inj (Except.ok.inj outcome)).symm, rfl⟩
      · rintro ⟨_, _, is, rfl, rfl⟩
        cases is
        rfl
    next other =>
      refine iff_of_false nofun ?_
      rintro ⟨_, _, is, -, -⟩
      cases is
      exact other rfl
  next not_raise =>
    refine iff_of_false nofun ?_
    rintro ⟨id, _, is, -, -⟩
    exact not_raise id _ (Except.error.inj (Prod.mk.inj is).1)

/-! ### Whatever was raised -/

namespace Chronicle

variable {c : Chronicle}

theorem reached_boot (settings : Settings) : Reached ⟨[], .boot settings⟩ := ⟨settings, .refl⟩

theorem Reached.callersOlder_incidents (reached : c.Reached) :
    ∀ i ∈ c.incidents, i.machine.CallersOlder := by
  have both : c.Reached ∧ ∀ i ∈ c.incidents, i.machine.CallersOlder := by
    obtain ⟨settings, path⟩ := reached
    induction path with
    | refl => exact ⟨reached_boot settings, fun _ mem => nomatch mem⟩
    | tail _ last ih =>
      obtain ⟨before, older⟩ := ih
      refine ⟨before.path (.single last), ?_⟩
      cases last with
      | pass | keep => exact older
      | record env id raised data is =>
        intro i mem
        obtain earlier | is_new := List.mem_append.1 mem
        · exact older i earlier
        · obtain rfl := List.mem_singleton.1 is_new
          exact before.callersOlder
  exact both.2

theorem Reached.reports (reached : c.Reached) :
    ∀ i ∈ c.incidents, i.raised = false →
      i.frame = .main ∧ i.exception.index + 1 = i.machine.heap.size := by
  refine reached.induction (fun c => ∀ i ∈ c.incidents, i.raised = false →
    i.frame = .main ∧ i.exception.index + 1 = i.machine.heap.size) (fun _ _ mem => nomatch mem) ?_
  intro c d reports step
  cases step with
  | pass | keep => exact reports
  | record env id raised data is made =>
    intro i mem not_raised
    obtain before | is_new := List.mem_append.1 mem
    · exact reports i before not_raised
    · obtain rfl := List.mem_singleton.1 is_new
      exact made not_raised

theorem Reached.receives (reached : c.Reached) (calls : Nat) (context : Context) (e : Expr)
    (present : context.frame.index < c.machine.frames.size) {v : Value} {m : Machine}
    (delivers : rescue context.frame (eval (runEntry calls) context e) c.machine =
      (.ok (.delivered v), m)) :
    ∃ d, Path c d ∧ d.machine = m ∧
      (∃ i ∈ d.incidents, i.raised = true ∧ v = .object i.exception ∧
        i.target = some (c.machine.nextTarget .rescue).token) ∧
      (m.frames.get? context.frame).bind (·.exception) = some v ∧
      m.globals.get? lastError = some v := by
  obtain ⟨id, after, ends, rfl, rfl⟩ := rescue_eq_delivered_iff.1 delivers
  let token := (c.machine.nextTarget .rescue).token
  let opened : Chronicle := ⟨c.incidents, c.machine.opened context.frame .rescue⟩
  have opens : Step c opened := .pass (.opened c.machine context.frame .rescue)
  have still : context.frame.index < opened.machine.frames.size :=
    Nat.lt_of_lt_of_le present (Path.moves (.single opens)).size_le
  obtain ⟨d, path, at_d, told⟩ := recounts_eval (recounts_runEntry calls) context e opened
    (reached.path (.single opens)) still
  change d.machine = (eval _ context e (c.machine.opened context.frame .rescue)).2 at at_d
  rw [ends] at at_d
  obtain ⟨i, mem, raised, rfl, target⟩ :=
    told (.raise id (some token)) (congrArg Prod.fst ends)
  subst at_d
  let closed := d.machine.closed context.frame token
  let noted : Machine := { closed with frames := closed.frames.modify context.frame fun f =>
    { f with exception := some (.object i.exception) } }
  have closes : Step d ⟨d.incidents, closed⟩ := .pass (.closed d.machine context.frame token)
  have notes : Step ⟨d.incidents, closed⟩ ⟨d.incidents, noted⟩ :=
    .pass (.editFrame context.frame _ fun _ => ⟨⟨rfl, rfl, rfl, rfl⟩, rfl, rfl⟩)
  have tells : Step ⟨d.incidents, noted⟩
      ⟨d.incidents, d.machine.delivered context.frame token i.exception⟩ :=
    .pass (.observe (noted.globals.insert lastError (.object i.exception)) noted.symbols
      noted.missReason noted.counters noted.heap.gate rfl)
  have whole := (((Relation.ReflTransGen.head opens path).tail closes).tail notes).tail tells
  refine ⟨_, whole, rfl, ⟨i, mem, raised, rfl, target⟩, ?_, ?_⟩
  · have there : context.frame.index < closed.frames.size :=
      Nat.lt_of_lt_of_le present
        (Path.moves ((Relation.ReflTransGen.head opens path).tail closes)).size_le
    obtain ⟨f, at_frame⟩ := Frames.get?_isSome there
    change ((closed.frames.modify context.frame _).get? context.frame).bind _ = _
    rw [Frames.get?_modify, if_pos rfl, at_frame]
    rfl
  · exact Bindings.get?_insert_self ..

/-- What holds of exceptions at every moment of a run. -/
structure Faithful (c : Chronicle) : Prop where
  origin : ∀ id, c.machine.origin id = ((c.first? id).map Incident.lines).getD []
  lasting : ∀ d, Path c d → ∀ id, c.machine.origin id ≠ [] →
    d.machine.origin id = c.machine.origin id
  callers : ∀ m, m = c.machine ∨ (∃ i ∈ c.incidents, m = i.machine) → ∀ env,
    m.backtrace env = m.frameLine env :: ((m.frames.caller? env).map m.backtrace).getD []
  raises : ∀ env id data, c.machine.exception? (.object id) = some data →
    c.machine.Raises env id (c.machine.raisedData env data) (raise env (.object id) c.machine)
  renames : ∀ run env id data message rest, c.machine.exception? (.object id) = some data →
    c.machine.Raises env id
      (c.machine.raisedData env { data with message := c.machine.messageText message })
      (raiseByArgs run env (.object id :: message :: rest) c.machine)
  /-- Besides raises only the report of a throw that nothing took records a backtrace, in the main
  frame and on an exception made for it. -/
  reports : ∀ i ∈ c.incidents, i.raised = false →
    i.frame = .main ∧ i.exception.index + 1 = i.machine.heap.size
  evaluates : ∀ calls context e, context.frame.index < c.machine.frames.size →
    ∃ d, Path c d ∧ d.machine = (eval (runEntry calls) context e c.machine).2 ∧
      ∀ s, (eval (runEntry calls) context e c.machine).1 = .error (.signal s) → d.Tells s
  runs : ∀ program, ∃ d, Path c d ∧ d.machine = (c.machine.runProgram program).2
  takes : ∀ env body v m, rescue env body c.machine = (.ok (.delivered v), m) ↔
    ∃ id after, body (c.machine.opened env .rescue) =
        (.error (.signal (.raise id (some (c.machine.nextTarget .rescue).token))), after) ∧
      v = .object id ∧ m = after.delivered env (c.machine.nextTarget .rescue).token id
  receives : ∀ calls context e v m, context.frame.index < c.machine.frames.size →
    rescue context.frame (eval (runEntry calls) context e) c.machine = (.ok (.delivered v), m) →
    ∃ d, Path c d ∧ d.machine = m ∧
      (∃ i ∈ d.incidents, i.raised = true ∧ v = .object i.exception ∧
        i.target = some (c.machine.nextTarget .rescue).token) ∧
      (m.frames.get? context.frame).bind (·.exception) = some v ∧
      m.globals.get? lastError = some v

/-- Exceptions keep their identity and their origin, whatever is raised, rescued and raised again:
at every moment that programs lead to on a new machine, and at every later one. -/
theorem raises_keep_origin (reached : c.Reached) :
    c.Faithful ∧ ∀ d, Path c d → d.Faithful := by
  have faithful : ∀ {c : Chronicle}, c.Reached → c.Faithful := by
    intro c reached
    refine ⟨reached.origin_eq, ?_, ?_, ?_, ?_, reached.reports, ?_, ?_, ?_, ?_⟩
    · exact fun d path id raised => path.origin_kept raised
    · rintro m (rfl | ⟨i, mem, rfl⟩) env
      · exact reached.callersOlder.backtrace_eq env
      · exact (reached.callersOlder_incidents i mem).backtrace_eq env
    · intro env id data is
      rw [Machine.raise_eq is]
      exact Machine.raises_raiseException env is
    · exact fun run env id data message rest is => Machine.raises_message run env message rest is
    · exact fun calls context e present =>
        recounts_eval (recounts_runEntry calls) context e c reached present
    · intro program
      have cleared : Step c ⟨c.incidents, c.machine.clearLog⟩ :=
        .pass (.observe c.machine.globals c.machine.symbols c.machine.missReason c.machine.counters
          c.machine.heap.gate rfl)
      have present : FrameId.main.index < c.machine.frames.size :=
        reached.encountered.housed.present .main (.inl rfl)
      obtain ⟨d, path, at_d, -⟩ := recounts_evalMain program ⟨c.incidents, c.machine.clearLog⟩
        (reached.path (.single cleared)) present
      exact ⟨d, .head cleared path, at_d⟩
    · exact fun env body v m => rescue_eq_delivered_iff
    · exact fun calls context e v m present delivers =>
        reached.receives calls context e present delivers
  exact ⟨faithful reached, fun d path => faithful (reached.path path)⟩

def fresh : Machine := .boot { Settings.standard with callDepthLimit := some 3 }

/-- A method raises, and the exception is rescued, raised again with another message from the main
frame, and rescued again. -/
def again : Expr :=
  let raising : Expr := .prim (.raiseNew "first") (.cons (.constant "RuntimeError") .nil)
  let raisingAgain : Expr := .send .anyMethod (.prim .mainObject .nil) "raise"
    (.cons (.prim .delivered .nil) (.cons (.literal (.text "second")) .nil)) .none
  .seq (.defineMethod (.constant "Object") "f" (.exactly 0) .none raising .isPublic)
    (.rescue (.send .anyMethod (.prim .mainObject .nil) "f" .nil .none)
      (.rescue raisingAgain (.prim .delivered .nil)))

theorem raises_keep_origin_again :
    Reached ⟨[], fresh⟩ ∧ ∃ d i, Path ⟨[], fresh⟩ d ∧
      d.machine.globals.get? lastError = some (.object ⟨40⟩) ∧
      (d.machine.exception? (.object ⟨40⟩)).map (·.message) = some "second" ∧
      d.first? ⟨40⟩ = some i ∧ i.lines = ["main:in 'f'", "main:in '<main>'"] := by
  have reached : Reached ⟨[], fresh⟩ := reached_boot _
  obtain ⟨faithful, later⟩ := raises_keep_origin reached
  obtain ⟨d, path, at_d⟩ := faithful.runs again
  have error : (fresh.runProgram again).2.globals.get? lastError = some (.object ⟨40⟩) := by
    decide +kernel
  have message : ((fresh.runProgram again).2.exception? (.object ⟨40⟩)).map (·.message) =
      some "second" := by decide +kernel
  have lines : (fresh.runProgram again).2.origin ⟨40⟩ = ["main:in 'f'", "main:in '<main>'"] := by
    decide +kernel
  have origin := (later d path).origin ⟨40⟩
  change d.machine = (fresh.runProgram again).2 at at_d
  rw [at_d, lines] at origin
  cases first : d.first? ⟨40⟩ with
  | none =>
    rw [first] at origin
    cases origin
  | some i =>
    rw [first] at origin
    refine ⟨reached, d, i, path, ?_, ?_, first, origin.symm⟩
    · rw [at_d, error]
    · rw [at_d, message]

end Chronicle

end ObjectRuntime
