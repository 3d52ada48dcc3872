import ObjectRuntime.Proofs.Machine.Programs

/-!
# Evaluations restore the calls

However an evaluation ends, the depth of calls and the current frame are those that it began with.
The frames that were there have the caller, the receiver and the targets that they had, and the
frames made meanwhile are left without any.
-/

set_option autoImplicit false

namespace ObjectRuntime

/-- The second machine, which may have more frames, is left where the first one was entered. -/
structure Machine.Restores (m m' : Machine) : Prop where
  depth : m'.depth = m.depth
  current : m'.current = m.current
  grown : m.frames.size ≤ m'.frames.size
  caller : ∀ id : FrameId, id.index < m.frames.size → m'.frames.caller? id = m.frames.caller? id
  receiver : ∀ id : FrameId, id.index < m.frames.size →
    m'.frames.receiver? id = m.frames.receiver? id
  targets : ∀ id : FrameId, id.index < m.frames.size →
    m'.frames.targetsOf id = m.frames.targetsOf id
  cleared : ∀ (id : FrameId) (f : Frame), m.frames.size ≤ id.index → m'.frames.get? id = some f →
    f.caller = none ∧ f.receiver = none ∧ f.targets = []

variable {r : Rule} {away : Bool} {env : FrameId} {m m' : Machine}

namespace Course

theorem depth_current (course : Course r away env m m') :
    m'.depth = m.depth ∧ m'.current = m.current := by
  induction course with
  | calm calmly =>
    obtain ⟨current, depth, -⟩ := calmly.changes.calls
    exact ⟨depth, current⟩
  | trans _ _ first second => exact ⟨second.1.trans first.1, second.2.trans first.2⟩
  | @call _ _ m m' _ _ _ _ _ ih =>
    have deeper : m'.depth = m.depth + 1 := ih.1
    refine ⟨?_, rfl⟩
    change m'.depth - 1 = m.depth
    omega
  | handler _ _ ih => exact ih
  | scope _ _ _ _ ih => exact ih
  | elsewhere _ _ _ ih => exact ih

/-- A frame that was not there has nothing that a frame without caller, receiver and targets could
have kept. -/
theorem restores (course : Course r away env m m') : m.Restores m' := by
  have keeps := course.keeps
  obtain ⟨depth, current⟩ := course.depth_current
  refine ⟨depth, current, keeps.size, fun id _ => keeps.caller id, fun id _ => keeps.receiver id,
    fun id _ => keeps.targets id, ?_⟩
  intro id f later at_id
  have absent : m.frames.get? id = none := Array.getElem?_eq_none later
  have caller := keeps.caller id
  have receiver := keeps.receiver id
  have targets := keeps.targets id
  rw [Frames.caller?, Frames.caller?, absent, at_id] at caller
  rw [Frames.receiver?, Frames.receiver?, absent, at_id] at receiver
  rw [Frames.targetsOf, Frames.targetsOf, absent, at_id] at targets
  exact ⟨caller, receiver, targets⟩

end Course

namespace Run

variable {α : Type} {x : Run α}

theorem Takes.restores (takes : Takes true away env x) (reachable : m.Reachable) :
    m.Restores (x m).2 :=
  (takes m (reachable.valid.of_all fun _ => .of_free _)).restores

/-- Whatever is evaluated on a reachable machine, an expression or the body of a call, a method or a
block that is called, a selector that is sent, also to the receiver's superclass or to an object
that does not understand it, and however deep it is nested, the calls are restored at its end. -/
theorem evaluations_restore (reachable : m.Reachable) (calls : Nat) :
    (∀ c e, m.Restores (eval (runEntry calls) c e m).2) ∧
    (∀ entry env receiver args block,
      m.Restores (runEntry calls entry env receiver args block m).2) ∧
    (∀ env method receiver args block place,
      m.Restores (invokeAt (runEntry calls) env method receiver args block place m).2) ∧
    (∀ env block args, m.Restores (callBlock (runEntry calls) env block args m).2) ∧
    (∀ env kind receiver selector args block,
      m.Restores (send (runEntry calls) env kind receiver selector args block m).2) ∧
    (∀ env receiver args block,
      m.Restores (callSuper (runEntry calls) env receiver args block m).2) ∧
    (∀ env id selector args block reason,
      m.Restores (methodMissing (runEntry calls) env id selector args block reason m).2) ∧
    (∀ program, m.Restores (evalMain program m).2) := by
  have runs : RunnerTakes true (runEntry calls) := takes_runEntry calls
  have all : ∀ e, Allowed true e := fun _ => .of_free _
  have blocks : ∀ block, AllowedBlock true block := fun _ b _ => .of_all all b.entry
  refine ⟨?_, ?_, ?_, ?_, ?_, ?_, ?_, ?_⟩
  · intro c e
    have takes : Takes true true c.frame _ := takes_eval runs c (blocks c.block) e (.of_free _)
    exact takes.restores reachable
  · intro entry env receiver args block
    exact (runs entry env receiver args block (.of_all all entry) (blocks block)).restores reachable
  · intro env method receiver args block place
    have takes : Takes true false env _ :=
      takes_invokeAt runs env (.of_all all method) receiver args (blocks block) place
    exact takes.restores reachable
  · intro env block args
    have takes : Takes true false env _ := takes_callBlock runs env (.of_all all block.entry) args
    exact takes.restores reachable
  · intro env kind receiver selector args block
    have takes : Takes true false env _ :=
      takes_send runs (blocks block) env kind receiver selector args
    exact takes.restores reachable
  · intro env receiver args block
    have takes : Takes true false env _ := takes_callSuper runs (blocks block) env receiver args
    exact takes.restores reachable
  · intro env id selector args block reason
    have takes : Takes true false env _ :=
      takes_methodMissing runs (blocks block) env id selector args reason
    exact takes.restores reachable
  · exact fun program => (takes_evalMain (.of_free (program.isLocal true))).restores reachable

def diving : Expr :=
  .seq
    (.defineMethod (.constant "Object") "dive" (.exactly 0) .none
      (.send .anyMethod (.prim .self .nil) "dive" .nil .none) .isPublic)
    (.rescue (.send .anyMethod (.prim .mainObject .nil) "dive" .nil .none) (.literal (.int 3)))

theorem evaluations_restore_diving :
    (Machine.boot ⟨some 2, false, "main"⟩).Reachable ∧
    (evalMain diving (.boot ⟨some 2, false, "main"⟩)).1.toOption = some (.int 3) ∧
    Machine.Restores (.boot ⟨some 2, false, "main"⟩)
      (evalMain diving (.boot ⟨some 2, false, "main"⟩)).2 := by
  have reachable : (Machine.boot ⟨some 2, false, "main"⟩).Reachable := ⟨_, .refl⟩
  obtain ⟨-, -, -, -, -, -, -, program⟩ := evaluations_restore reachable 0
  exact ⟨reachable, by decide +kernel, program diving⟩

end Run

end ObjectRuntime
