import ObjectRuntime.Proofs.Machine.Moves

/-!
# Chronicles

A chronicle is a machine together with the incidents that led to it: the raises, each with its
exception, the frame it was made from and the machine that it found. Steps between moments of a run
either leave all backtraces as they are or are such an incident. The backtrace that an exception
carries is then that of its first incident, and what is on it stays.
-/

set_option autoImplicit false

namespace ObjectRuntime

/-! ### Backtraces on objects -/

/-- The backtrace that an object carries, which only an exception has. -/
def Object.origin (o : Object) : List String := (o.exception?.map (·.backtrace)).getD []

def Machine.origin (m : Machine) (id : ObjectId) : List String :=
  ((m.heap.get? id).map Object.origin).getD []

theorem Object.exception?_eq_some_iff {o : Object} {data : ExceptionData} :
    o.exception? = some data ↔ o.payload = .exception data := by
  unfold exception?
  cases o.payload <;> simp

theorem Object.origin_mapException (o : Object) {f : ExceptionData → ExceptionData}
    (same : ∀ data, (f data).backtrace = data.backtrace) :
    (o.mapException f).origin = o.origin := by
  unfold Object.origin Object.exception? Object.mapException
  cases payload : o.payload <;> simp [payload, same]

namespace Machine

variable {m m' : Machine}

theorem origin_eq_of_exception? {id : ObjectId} {data : ExceptionData}
    (is : m.exception? (.object id) = some data) : m.origin id = data.backtrace := by
  obtain ⟨o, at_id, is_exception⟩ := Option.bind_eq_some_iff.1 is
  change m.heap.get? id = some o at at_id
  rw [origin, at_id, Option.map_some, Option.getD_some, Object.origin, is_exception]
  rfl

theorem origin_push {o : Object} (bare : o.origin = []) (id : ObjectId) :
    ({ m with heap := m.heap.push o } : Machine).origin id = m.origin id := by
  rw [origin, origin, Heap.get?_push]
  split
  next is_new =>
    subst is_new
    rw [Heap.get?_next]
    exact bare
  next => rfl

theorem exception?_push (cls : ModuleId) (data : ExceptionData) :
    ({ m with heap := m.heap.push (.ofPayload cls (.exception data)) } : Machine).exception?
      (.object m.heap.next) = some data := by
  change ((m.heap.push _).get? m.heap.next).bind Object.exception? = _
  rw [Heap.get?_push_next]
  rfl

theorem origin_modify {edited : ObjectId} {f : Object → Object}
    (heap : m'.heap = m.heap.modify edited f) (same : ∀ o : Object, (f o).origin = o.origin)
    (id : ObjectId) : m'.origin id = m.origin id := by
  rw [origin, origin, heap, m.heap.map_get?_modify edited id Object.origin same]

theorem origin_boot (settings : Settings) (id : ObjectId) : (boot settings).origin id = [] := by
  have bare : startObjects.all (fun o => o.origin.isEmpty) = true := by decide
  rw [origin]
  cases at_id : (boot settings).heap.get? id with
  | none => rfl
  | some o =>
    change startObjects.toArray[id.index]? = some o at at_id
    rw [List.getElem?_toArray] at at_id
    exact List.isEmpty_iff.1 (List.all_eq_true.1 bare o (List.mem_of_getElem? at_id))

theorem backtrace_eq (m : Machine) (env : FrameId) :
    m.backtrace env = m.frameLine env ::
      (((lower? FrameId.index m.frames.caller? env).map m.backtrace).getD []) := by
  rw [backtrace, Frames.callers, chain_eq, List.map_cons]
  cases lower? FrameId.index m.frames.caller? env <;> rfl

theorem backtrace_ne_nil (m : Machine) (env : FrameId) : m.backtrace env ≠ [] := by
  rw [backtrace_eq]
  exact List.cons_ne_nil _ _

def CallersOlder (m : Machine) : Prop := ∀ id c, m.frames.caller? id = some c → c.index < id.index

theorem CallersOlder.lower?_caller (older : m.CallersOlder) (env : FrameId) :
    lower? FrameId.index m.frames.caller? env = m.frames.caller? env := by
  rw [lower?]
  cases calls : m.frames.caller? env with
  | none => rfl
  | some c => rw [Option.filter_some, if_pos (decide_eq_true (older env c calls))]

theorem CallersOlder.backtrace_eq (older : m.CallersOlder) (env : FrameId) :
    m.backtrace env =
      m.frameLine env :: (((m.frames.caller? env).map m.backtrace).getD []) := by
  rw [Machine.backtrace_eq, older.lower?_caller]

theorem callersOlder_boot (settings : Settings) : (boot settings).CallersOlder := by
  intro id c calls
  rw [Frames.caller?] at calls
  obtain ⟨f, at_id, caller⟩ := Option.bind_eq_some_iff.1 calls
  rw [(idle_boot at_id).caller] at caller
  cases caller

end Machine

/-! ### Recording a backtrace -/

namespace Run

variable {m : Machine} {id : ObjectId} {data : ExceptionData}

theorem recordBacktrace_eq (env : FrameId) (is : m.exception? (.object id) = some data) :
    (recordBacktrace env id m).2 = if data.backtrace = [] then
      { m with heap := m.heap.modify id fun o =>
          o.mapException fun d => { d with backtrace := m.backtrace env } } else m := by
  have found : (m.heap.get? id).bind Object.exception? = some data := is
  unfold recordBacktrace
  rw [run_modify]
  dsimp only
  rw [found]
  dsimp only
  simp only [List.isEmpty_iff]

theorem recordBacktrace_exception? (env : FrameId) (is : m.exception? (.object id) = some data) :
    (recordBacktrace env id m).2.exception? (.object id) = some { data with
      backtrace := if data.backtrace = [] then m.backtrace env else data.backtrace } := by
  rw [recordBacktrace_eq env is]
  obtain ⟨o, at_id, is_exception⟩ := Option.bind_eq_some_iff.1 is
  change m.heap.get? id = some o at at_id
  split
  next =>
    change ((m.heap.modify id _).get? id).bind Object.exception? = _
    rw [Heap.get?_modify, if_pos rfl, at_id, Option.map_some, Option.bind_some]
    unfold Object.exception? Object.mapException at *
    cases payload : o.payload <;> simp_all
  next => exact is

theorem recordBacktrace_get? (env : FrameId) (is : m.exception? (.object id) = some data)
    {other : ObjectId} (apart : other ≠ id) :
    (recordBacktrace env id m).2.heap.get? other = m.heap.get? other := by
  rw [recordBacktrace_eq env is]
  split
  next =>
    change (m.heap.modify id _).get? other = _
    rw [Heap.get?_modify, if_neg apart.symm]
  next => rfl

theorem recordBacktrace_origin (env : FrameId) (is : m.exception? (.object id) = some data)
    (other : ObjectId) : (recordBacktrace env id m).2.origin other =
      if other = id ∧ m.origin id = [] then m.backtrace env else m.origin other := by
  by_cases same : other = id
  · subst same
    rw [Machine.origin_eq_of_exception? (recordBacktrace_exception? env is),
      Machine.origin_eq_of_exception? is]
    simp
  · rw [if_neg fun both => same both.1, Machine.origin, recordBacktrace_get? env is same]
    rfl

theorem recordBacktrace_desk (env : FrameId) (id : ObjectId) (m : Machine) :
    (recordBacktrace env id m).2.desk = m.desk := by
  obtain recorded | recorded := recordBacktrace_cases env id m <;> rw [recorded]

theorem moves_recordBacktrace (env : FrameId) (is : m.exception? (.object id) = some data) :
    Moves m (recordBacktrace env id m).2 := by
  rw [recordBacktrace_eq env is]
  split
  next =>
    exact .single (.operate ⟨.edit id _ fun o => o.mapException_alike _, .refl _⟩)
  next => exact .refl

end Run

/-! ### Incidents -/

/-- A frame has its backtrace recorded on an exception: it raises the exception, or the exception is
made for the report of a throw that nothing took. -/
structure Incident where
  machine : Machine
  frame : FrameId
  exception : ObjectId
  raised : Bool

namespace Incident

def lines (i : Incident) : List String := i.machine.backtrace i.frame

def target (i : Incident) : Option Token := i.machine.frames.findTarget i.frame Run.isRescue

end Incident

/-- A machine and what was raised on the way to it, oldest first. -/
structure Chronicle where
  incidents : List Incident
  machine : Machine

structure Machine.Passes (m m' : Machine) : Prop where
  move : Move m m'
  origin : ∀ id, m'.origin id = m.origin id
  kept : m'.desk.kept = m.desk.kept
  older : ∀ id c, m'.frames.caller? id = some c → m.frames.caller? id = some c ∨ c.index < id.index

namespace Chronicle

/-- A raise on its way to a rescue was made, from a frame whose nearest rescue this is. -/
def Tells (c : Chronicle) : Signal → Prop
  | .raise id target => ∃ i ∈ c.incidents, i.raised = true ∧ i.exception = id ∧ i.target = target
  | .throw _ _ _ => True

def first? (c : Chronicle) (id : ObjectId) : Option Incident :=
  c.incidents.find? fun i => i.exception == id

/-- From one moment to the next. A signal may be kept for later only if it was raised. -/
inductive Step (c : Chronicle) : Chronicle → Prop where
  | pass {m : Machine} (passes : c.machine.Passes m) : Step c ⟨c.incidents, m⟩
  | keep (key : String) (s : Signal) (told : c.Tells s) :
      Step c ⟨c.incidents, { c.machine with
        desk := { c.machine.desk with kept := c.machine.desk.kept.insert key s } }⟩
  | record (env : FrameId) (id : ObjectId) (raised : Bool) (data : ExceptionData)
      (is : c.machine.exception? (.object id) = some data)
      (made : raised = false → env = .main ∧ id.index + 1 = c.machine.heap.size) :
      Step c ⟨c.incidents ++ [⟨c.machine, env, id, raised⟩],
        (Run.recordBacktrace env id c.machine).2⟩

abbrev Path : Chronicle → Chronicle → Prop := Relation.ReflTransGen Step

def Reached (c : Chronicle) : Prop := ∃ settings, Path ⟨[], .boot settings⟩ c

variable {c d : Chronicle} {id : ObjectId}

theorem Tells.mono {s : Signal} (told : c.Tells s) (more : c.incidents <+: d.incidents) :
    d.Tells s := by
  cases s with
  | raise id target =>
    obtain ⟨i, mem, raises⟩ := told
    exact ⟨i, more.subset mem, raises⟩
  | throw tag value target => trivial

/-! ### What steps keep -/

theorem Step.incidents (step : Step c d) : c.incidents <+: d.incidents := by
  cases step with
  | pass | keep => exact List.prefix_refl _
  | record => exact List.prefix_append _ _

theorem Path.incidents (path : Path c d) : c.incidents <+: d.incidents := by
  induction path with
  | refl => exact List.prefix_refl _
  | tail _ last ih => exact ih.trans last.incidents

theorem Step.moves (step : Step c d) : Moves c.machine d.machine := by
  cases step with
  | pass passes => exact .single passes.move
  | keep key s =>
    let m := c.machine
    exact .single (.operate ⟨.observe m.globals m.symbols m.missReason m.counters
      { m.desk with kept := m.desk.kept.insert key s } m.heap.gate, .refl _⟩)
  | record env id raised data is => exact Run.moves_recordBacktrace env is

theorem Path.moves (path : Path c d) : Moves c.machine d.machine := by
  induction path with
  | refl => exact .refl
  | tail _ last ih => exact ih.trans last.moves

theorem Reached.path (reached : c.Reached) (path : Path c d) : d.Reached := by
  obtain ⟨settings, before⟩ := reached
  exact ⟨settings, before.trans path⟩

theorem Reached.encountered (reached : c.Reached) : c.machine.Encountered := by
  obtain ⟨settings, path⟩ := reached
  exact ⟨settings, path.moves⟩

theorem Reached.induction (I : Chronicle → Prop) (boot : ∀ settings, I ⟨[], .boot settings⟩)
    (step : ∀ c d, I c → Step c d → I d) (reached : c.Reached) : I c := by
  obtain ⟨settings, path⟩ := reached
  induction path with
  | refl => exact boot settings
  | tail _ last ih => exact step _ _ ih last

theorem Reached.callersOlder (reached : c.Reached) : c.machine.CallersOlder := by
  refine reached.induction (fun c => c.machine.CallersOlder) Machine.callersOlder_boot ?_
  intro c d older step
  cases step with
  | pass passes =>
    intro id caller calls
    obtain before | older := passes.older id caller calls
    · exact older id caller before
    · exact older
  | keep => exact older
  | record env id raised data is =>
    intro id caller calls
    rw [Run.recordBacktrace_frames] at calls
    exact older id caller calls

theorem Reached.kept (reached : c.Reached) (key : String) (s : Signal)
    (held : c.machine.desk.kept.get? key = some s) : c.Tells s := by
  refine reached.induction
    (fun c => ∀ key s, c.machine.desk.kept.get? key = some s → c.Tells s) ?_ ?_ key s held
  · intro settings key s held
    cases held
  · intro c d kept step key s held
    have told : c.machine.desk.kept.get? key = some s → d.Tells s :=
      fun before => (kept key s before).mono step.incidents
    cases step with
    | pass passes =>
      rw [passes.kept] at held
      exact told held
    | keep key' s' told' =>
      change (c.machine.desk.kept.insert key' s').get? key = some s at held
      rw [Bindings.get?_insert] at held
      split at held
      next =>
        obtain rfl := Option.some.inj held
        exact told'
      next => exact told held
    | record env id raised data is =>
      rw [Run.recordBacktrace_desk] at held
      exact told held

/-! ### Backtraces along a path -/

theorem Step.origin_kept (step : Step c d) (raised : c.machine.origin id ≠ []) :
    d.machine.origin id = c.machine.origin id := by
  cases step with
  | pass passes => exact passes.origin id
  | keep => rfl
  | record env id' _ data is =>
    rw [Run.recordBacktrace_origin env is, if_neg]
    rintro ⟨rfl, unraised⟩
    exact raised unraised

theorem Path.origin_kept (path : Path c d) (raised : c.machine.origin id ≠ []) :
    d.machine.origin id = c.machine.origin id := by
  induction path with
  | refl => rfl
  | tail _ last ih =>
    rw [← ih] at raised
    exact (last.origin_kept raised).trans ih

theorem Reached.origin_eq (reached : c.Reached) (id : ObjectId) :
    c.machine.origin id = ((c.first? id).map Incident.lines).getD [] := by
  refine reached.induction
    (fun c => ∀ id, c.machine.origin id = ((c.first? id).map Incident.lines).getD []) ?_ ?_ id
  · exact Machine.origin_boot
  · intro c d ih step id
    cases step with
    | pass passes => exact (passes.origin id).trans (ih id)
    | keep => exact ih id
    | record env id' raised data is =>
      rw [Run.recordBacktrace_origin env is, first?, List.find?_append]
      have before := ih id
      rw [first?] at before
      cases earlier : c.incidents.find? fun i => i.exception == id with
      | some i =>
        rw [earlier] at before
        have lines : c.machine.origin id = i.lines := before
        rw [if_neg, lines]
        · rfl
        · rintro ⟨rfl, unraised⟩
          exact i.machine.backtrace_ne_nil i.frame (lines.symm.trans unraised)
      | none =>
        rw [earlier] at before
        have unraised : c.machine.origin id = [] := before
        by_cases same : id = id'
        · subst same
          rw [if_pos ⟨rfl, unraised⟩]
          simp [Incident.lines]
        · rw [if_neg fun both => same both.1, unraised]
          simp [Ne.symm same]

end Chronicle

end ObjectRuntime
