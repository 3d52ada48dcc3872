import ObjectRuntime.Fault
import ObjectRuntime.Steps

/-!
# Unwinding

Where a signal ends is decided where it starts: a raise looks along the calling frames for the
nearest rescue, a throw for the nearest catch of the same tag, and the signal carries the token of
that registration. A rescue or a catch takes a signal with its own token and lets any other pass. A
throw for which there is no catch becomes an exception.
-/

set_option autoImplicit false

namespace ObjectRuntime.Run

def isRescue : TargetKind → Bool
  | .rescue => true
  | .catching _ => false

def isCatchOf (tag : Value) : TargetKind → Bool
  | .catching t => t.same tag
  | .rescue => false

/-- The backtrace of the first raise stays. -/
def recordBacktrace (env : FrameId) (id : ObjectId) : Run Unit := modify fun m =>
  match (m.heap.get? id).bind Object.exception? with
  | some data =>
    if data.backtrace.isEmpty then
      let lines := m.backtrace env
      { m with
        heap := m.heap.modify id fun o => o.mapException fun d => { d with backtrace := lines } }
    else m
  | none => m

def raiseException {α : Type} (env : FrameId) (id : ObjectId) : Run α := do
  recordBacktrace env id
  count .raised
  let target ← read fun m => m.frames.findTarget env isRescue
  signal (.raise id target)

def fail {α : Type} (env : FrameId) (fault : Fault) : Run α := do
  let id ← newException fault.cls fault.data
  raiseException env id

def raise {α : Type} (env : FrameId) (v : Value) : Run α := do
  match v.object?, ← read fun m => m.isException v with
  | some id, true => raiseException env id
  | _, _ => fail env .notAnException

def orFail {α : Type} (env : FrameId) : Except Fault α → Run α
  | .ok a => Pure.pure a
  | .error fault => fail env fault

def throw {α : Type} (env : FrameId) (tag value : Value) : Run α := do
  match ← read fun m => m.frames.findTarget env (isCatchOf tag) with
  | some target => signal (.throw tag value target)
  | none =>
    let shown ← read fun m => m.inspect tag
    fail env (.uncaughtThrow shown)

/-- Runs with a target on the frame and hands out how that ended. -/
def withTarget {α : Type} (env : FrameId) (kind : TargetKind) (body : Run α) :
    Run (Token × Except Exit α) := do
  let token ← newToken
  modifyFrame env fun f => f.pushTarget ⟨token, kind⟩
  let outcome ← attempt body
  modifyFrame env fun f => f.dropTarget token
  return (token, outcome)

/-- How a rescued region ended: by itself, or by an exception that was delivered. -/
inductive Rescued where
  | completed (value : Value)
  | delivered (exception : Value)

/-- The global variable of the exception delivered last. -/
def lastError : String := "$!"

def rescue (env : FrameId) (body : Run Value) : Run Rescued := do
  let (token, outcome) ← withTarget env .rescue body
  match outcome with
  | .ok value => return .completed value
  | .error (.signal (.raise id target)) =>
    if target = some token then
      let payload := Value.object id
      modifyFrame env fun f => { f with exception := some payload }
      setGlobal lastError payload
      return .delivered payload
    else signal (.raise id target)
  | .error e => exit e

def catching (env : FrameId) (tag : Value) (body : Run Value) : Run Value := do
  let (token, outcome) ← withTarget env (.catching tag) body
  match outcome with
  | .error (.signal (.throw thrown value target)) =>
    if target = token then return value else signal (.throw thrown value target)
  | outcome => resume outcome

/-- An exit of the cleanup replaces the value or the signal of the body. -/
def ensure {α : Type} (body : Run α) (cleanup : Run Unit) : Run α := do
  match ← attempt body with
  | .ok value => cleanup; return value
  | .error (.signal s) => cleanup; signal s
  | .error e => exit e

def uncaught (env : FrameId) : Signal → Run Report
  | .raise id _ => reportOf id
  | .throw tag _ _ => do
    let shown ← read fun m => m.inspect tag
    let id ← newException Core.uncaughtThrowError.id (Fault.uncaughtThrow shown).data
    recordBacktrace env id
    reportOf id
where
  reportOf (id : ObjectId) : Run Report := read fun m =>
    let data := ((m.heap.get? id).bind Object.exception?).getD (.ofMessage "")
    { className := m.className (m.classOf (.object id))
      message := data.message
      backtrace := data.backtrace }

end ObjectRuntime.Run
