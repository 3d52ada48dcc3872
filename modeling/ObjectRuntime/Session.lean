import ObjectRuntime.Boot
import ObjectRuntime.Evaluate

/-!
# Sessions

A session runs programs one after the other on one machine, which starts new. Each step ends with an
outcome and with what was logged on the way there, in order.
-/

set_option autoImplicit false

namespace ObjectRuntime

structure StepResult where
  outcome : Outcome
  log : List Answer

namespace Machine

def outcomeOf (m : Machine) : Except Exit Value → Outcome
  | .ok v => .value (m.view v)
  | .error (.signal (.raise id target)) =>
    match m.exceptionView? id with
    | some exception => .raised exception target.isSome
    | none => .malformed
  | .error (.signal (.throw tag value _)) => .threw (m.view tag) (m.view value)
  | .error .exhausted => .exhausted
  | .error .malformed => .malformed

def clearLog (m : Machine) : Machine := { m with desk := { m.desk with log := [] } }

def runProgram (m : Machine) (program : Expr) : StepResult × Machine :=
  let (ending, m) := Run.evalMain program m.clearLog
  ({ outcome := m.outcomeOf ending, log := m.desk.log.reverse }, m)

def runPrograms (m : Machine) : List Expr → List StepResult
  | [] => []
  | program :: rest =>
    let (result, m) := m.runProgram program
    result :: m.runPrograms rest

end Machine

def session (settings : Settings) (programs : List Expr) : List StepResult :=
  (Machine.boot settings).runPrograms programs

end ObjectRuntime
