import ObjectRuntime.Boot
import ObjectRuntime.Evaluate

/-!
# Trials

A trial sends one message with one argument on a new machine and looks at the result, at the way
that dispatch took, and at what became of the receiver. The same operands are tried as they are,
with the receiver made an object beforehand, and with both made objects.
-/

set_option autoImplicit false

namespace ObjectRuntime

structure Trial where
  selector : String
  receiver : Literal
  argument : Literal

inductive TrialEnding where
  | value (view : View) (inspection : String)
  | raised (className message : String)
  /-- The fuel ran out, or a throw had no catch to go to. -/
  | none

structure TrialResult where
  ending : TrialEnding
  direct : Bool
  receiverIsImmediate : Bool

namespace Trial

/-- Which operands are made objects beforehand. -/
structure Boxing where
  receiver : Bool
  argument : Bool

def boxings : List Boxing := [⟨false, false⟩, ⟨true, false⟩, ⟨true, true⟩]

def box (wanted : Bool) (v : Value) : Run Value :=
  if wanted then do return .object (← Run.hydrate v) else Pure.pure v

/-- The message is sent from the main frame. Also tells what the receiver has become. -/
def send (t : Trial) (boxing : Boxing) : Run (Bool × Except Exit Value) := do
  let receiver ← Run.ofLiteral t.receiver
  let argument ← Run.ofLiteral t.argument
  let receiver ← box boxing.receiver receiver
  let argument ← box boxing.argument argument
  let nesting ← Run.read fun m => m.settings.nesting
  let route ← Run.route receiver t.selector [argument]
  let ending ← Run.attempt
    (Run.follow (runEntry nesting) .main .anyMethod t.selector [argument] none route)
  return (route.receiver.isImmediate, ending)

def endingOf (m : Machine) : Except Exit Value → TrialEnding
  | .ok v => .value (m.view v) (m.inspect v)
  | .error (.signal (.raise id _)) =>
    match m.exceptionView? id with
    | some exception => .raised exception.className exception.message
    | .none => .none
  | .error _ => .none

def run (t : Trial) (boxing : Boxing) : TrialResult :=
  let (outcome, m) := t.send boxing (.boot { Settings.standard with profile := true })
  let (isImmediate, ending) := match outcome with
    | .ok result => result
    | .error e => (false, .error e)
  { ending := endingOf m ending
    direct := (m.counters.map fun c => c.direct == 1).getD false
    receiverIsImmediate := isImmediate }

def results (t : Trial) : List TrialResult := boxings.map t.run

end Trial

def Literal.inspection (literal : Literal) : String × Option String :=
  match Run.ofLiteral literal (.boot .standard) with
  | (.ok v, m) =>
    (m.inspect v, match literal with
      | .text _ => none
      | _ => some (m.debugText v))
  | (.error _, _) => ("", none)

end ObjectRuntime
