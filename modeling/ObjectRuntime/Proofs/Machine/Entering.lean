import ObjectRuntime.Proofs.Machine.Course

/-!
# Entering a call

A call that the limit on nested calls leaves room for runs its body in a new frame, linked to the
frame of the caller, and is left again however the body ends. One that it leaves no room for raises
from the caller and changes nothing else. Before that a method checks its arguments. `Entered` says
this of the call of a method with a body: whatever happens then, the branch for placeholders is not
taken. Calls of blocks are like those of methods whose arguments have been checked, and both are
`Attempts`.
-/

set_option autoImplicit false

namespace ObjectRuntime

open Run

def Machine.callFrame (m : Machine) (caller : FrameId) (receiver : Value) (f : Frame) : Frame :=
  { f with caller := some caller, position := m.frames.position caller, receiver := some receiver }

/-- What a frame that is made for a call holds: the receiver, the block that is passed, and no code
but that of the entry and of the block. -/
structure Frame.Holds (f : Frame) (entry : Entry) (on : Value) (passed : Option Block) :
    Prop where
  receiver : f.receiver = some on
  block : f.block = passed
  code : ∀ P : Expr → Prop, entry.Satisfies P → (∀ b, passed = some b → b.Satisfies P) →
    f.Satisfies P

/-- How the call of a method with a body ends: with the fault of its arguments, or as its body does
in a frame of its own, for which the limit on nested calls may leave no room. -/
inductive Entered (run : Runner) (caller : FrameId) (method : Method) (receiver : Value)
    (args : List Value) (block : Option Block) (place : Option Nat) (m : Machine) :
    Except Exit Value × Machine → Prop where
  | refused (defined : method.isUndefined = false)
      (rejects : method.arity.accepts args.length = false) :
      Entered run caller method receiver args block place m
        (fail caller (.wrongArity args.length method.arity) m)
  | native (entry : Entry) (body : method.body = .native entry)
      (accepted : method.arity.accepts args.length = true) :
      Entered run caller method receiver args block place m
        (inNewFrame run caller
          { Frame.fresh .method (ownerFrame m method.owner) with
            method := some method, block, ancestorIndex := place }
          entry receiver args block m)
  | closure (entry : Entry) (outer : FrameId) (body : method.body = .closure entry outer)
      (accepted : method.arity.accepts args.length = true) :
      Entered run caller method receiver args block place m
        (inNewFrame run caller
          { Frame.fresh .closureMethod (some outer) with
            method := some method, block, ancestorIndex := place }
          entry receiver args block m)

namespace Run

variable {m : Machine} {run : Runner} {caller : FrameId} {frame : Frame} {entry : Entry}
  {receiver : Value} {args : List Value} {block : Option Block}

theorem inNewFrame_of_allowed (allowed : allowsCall m = true) :
    inNewFrame run caller frame entry receiver args block m =
      afterward (run entry m.frames.next receiver args block)
        (leaveCall m.frames.next m.current) (m.entered (m.callFrame caller receiver frame)) := by
  have entering : enterCall caller m = (.ok (), { m with depth := m.depth + 1 }) := by
    unfold enterCall
    rw [run_bind, run_read, allowed]
    rfl
  unfold inNewFrame
  rw [run_bind, entering]
  rfl

theorem inNewFrame_of_full (full : allowsCall m = false) :
    inNewFrame run caller frame entry receiver args block m = fail caller .stackTooDeep m := by
  have refused : enterCall caller m = fail caller .stackTooDeep m := by
    unfold enterCall
    rw [run_bind, run_read, full]
    rfl
  obtain ⟨e, m', failing⟩ : ∃ e m', ∀ {α : Type},
      (fail caller .stackTooDeep : Run α) m = (.error e, m') := ⟨_, _, rfl⟩
  unfold inNewFrame
  rw [run_bind, refused, failing, failing]

theorem enter_inNewFrame {method : Method} (code : ∀ P, entry.Satisfies P → method.Satisfies P)
    (accepted : method.arity.accepts args.length = true) (place : Option Nat) (kind : FrameKind)
    (outer : Option FrameId) (m : Machine) :
    ∃ f : Frame, f.targets = [] ∧ (m.callFrame caller receiver f).Holds entry receiver block ∧
      invokeAt.enter run caller method receiver args block place entry kind outer m =
        inNewFrame run caller f entry receiver args block m := by
  refine ⟨{ Frame.fresh kind outer with method := some method, block, ancestorIndex := place },
    rfl, ⟨rfl, rfl, ?_⟩, ?_⟩
  · intro P entry_code block_code
    refine ⟨?_, block_code⟩
    rintro _ ⟨⟩
    exact code P entry_code
  · rw [invokeAt.enter, if_pos accepted]

/-- A method with a body is entered; the branch for placeholders is not taken. -/
theorem entered_invokeAt (run : Runner) (caller : FrameId) {method : Method} (receiver : Value)
    (args : List Value) (block : Option Block) (place : Option Nat) (m : Machine)
    (defined : method.isUndefined = false) :
    Entered run caller method receiver args block place m
      (invokeAt run caller method receiver args block place m) := by
  have refused (rejects : ¬ method.arity.accepts args.length = true) :
      Entered run caller method receiver args block place m
        (fail caller (.wrongArity args.length method.arity) m) :=
    .refused defined (Bool.eq_false_iff.2 rejects)
  unfold invokeAt
  cases body : method.body with
  | undefined =>
    rw [Method.isUndefined, body] at defined
    cases defined
  | native entry =>
    simp only [run_bind, run_read]
    unfold invokeAt.enter
    split
    next accepted => exact .native entry body accepted
    next rejects => exact refused rejects
  | closure entry outer =>
    dsimp only
    unfold invokeAt.enter
    split
    next accepted => exact .closure entry outer body accepted
    next rejects => exact refused rejects

theorem invokeAt_wrongArity {method : Method} (defined : method.isUndefined = false)
    (rejects : method.arity.accepts args.length = false) (place : Option Nat) :
    invokeAt run caller method receiver args block place m =
      fail caller (.wrongArity args.length method.arity) m := by
  have entered := entered_invokeAt run caller receiver args block place m defined
  generalize invokeAt run caller method receiver args block place m = outcome at entered ⊢
  cases entered with
  | refused => rfl
  | native _ _ accepted | closure _ _ _ accepted =>
    rw [rejects] at accepted
    cases accepted

/-! ### Calls that are attempted -/

/-- A call that is attempted: of a block, or of a method with a body that takes the arguments. The
entry runs on the receiver, the arguments and the block. -/
inductive Attempts (run : Runner) (env : FrameId) :
    Entry → Value → List Value → Option Block → Run Value → Prop where
  | block (b : Block) (args : List Value) :
      Attempts run env b.entry b.receiver args none (callBlock run env b args)
  | native (method : Method) (entry : Entry) (receiver : Value) (args : List Value)
      (block : Option Block) (place : Option Nat) (body : method.body = .native entry)
      (accepted : method.arity.accepts args.length = true) :
      Attempts run env entry receiver args block
        (invokeAt run env method receiver args block place)
  | closure (method : Method) (entry : Entry) (outer : FrameId) (receiver : Value)
      (args : List Value) (block : Option Block) (place : Option Nat)
      (body : method.body = .closure entry outer)
      (accepted : method.arity.accepts args.length = true) :
      Attempts run env entry receiver args block
        (invokeAt run env method receiver args block place)

namespace Attempts

variable {env : FrameId} {x : Run Value}

theorem inNewFrame (attempts : Attempts run env entry receiver args block x) (m : Machine) :
    ∃ f : Frame, f.targets = [] ∧ (m.callFrame env receiver f).Holds entry receiver block ∧
      x m = Run.inNewFrame run env f entry receiver args block m := by
  cases attempts with
  | block b args => exact ⟨_, rfl, ⟨rfl, rfl, fun _ _ _ => .of_none rfl rfl⟩, rfl⟩
  | native method entry receiver args block place body accepted =>
    have code : ∀ P, entry.Satisfies P → method.Satisfies P := fun P code => by
      rwa [Method.Satisfies, body]
    obtain ⟨f, targets, holds, enters⟩ :=
      enter_inNewFrame code accepted place .method (ownerFrame m method.owner) m
    refine ⟨f, targets, holds, ?_⟩
    rw [invokeAt, body]
    simp only [run_bind, run_read]
    exact enters
  | closure method entry outer receiver args block place body accepted =>
    have code : ∀ P, entry.Satisfies P → method.Satisfies P := fun P code => by
      rwa [Method.Satisfies, body]
    obtain ⟨f, targets, holds, enters⟩ :=
      enter_inNewFrame code accepted place .closureMethod (some outer) m
    refine ⟨f, targets, holds, ?_⟩
    rw [invokeAt, body]
    exact enters

theorem refused (attempts : Attempts run env entry receiver args block x)
    (full : allowsCall m = false) : x m = fail env .stackTooDeep m := by
  obtain ⟨f, -, -, is⟩ := attempts.inNewFrame m
  exact is.trans (inNewFrame_of_full full)

/-- With room for the call its entry runs, in a frame that is linked to the caller's. -/
theorem entered (attempts : Attempts run env entry receiver args block x)
    (allowed : allowsCall m = true) :
    ∃ f : Frame, f.CalledFrom env ∧ f.Holds entry receiver block ∧
      x m = afterward (run entry m.frames.next receiver args block)
        (leaveCall m.frames.next m.current) (m.entered f) := by
  obtain ⟨f, targets, holds, is⟩ := attempts.inNewFrame m
  exact ⟨m.callFrame env receiver f, ⟨rfl, rfl, targets⟩, holds,
    is.trans (inNewFrame_of_allowed allowed)⟩

end Attempts

end Run

end ObjectRuntime
