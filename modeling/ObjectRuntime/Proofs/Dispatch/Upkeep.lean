import ObjectRuntime.Proofs.Dispatch.Replies
import ObjectRuntime.Proofs.Machine.Builtins
import ObjectRuntime.Proofs.Machine.Deeds

/-!
# The upkeep of modules

`include`, `undef_method`, `remove_method` and the methods that set a visibility take any number of
arguments and serve them one at a time, `include` from the last one to the first, the others in
order. The first argument that is refused ends the call with an exception, and what was done for the
arguments before it stays done.

What an argument asks for is read off the objects, which the upkeep does not touch. So the whole
call can be told from the tables before it: `Builtin.serveAll` does.
-/

set_option autoImplicit false

namespace ObjectRuntime

open Run

/-- The modules, and the number of methods made, which is the last serial number given out. -/
structure Tables where
  hierarchy : Hierarchy
  methodsMade : Nat

def Machine.tables (m : Machine) : Tables := ⟨m.hierarchy, m.methodsMade⟩

def Machine.withTables (m : Machine) (t : Tables) : Machine :=
  { m with hierarchy := t.hierarchy, methodsMade := t.methodsMade }

inductive Request where
  | including (id : ModuleId)
  | undefining (name : String)
  | removing (name : String)
  | retagging (name : String) (visibility : Visibility)

namespace Tables

def enter (t : Tables) (owner : ModuleId) (method : Method) : Tables where
  hierarchy := t.hierarchy.defineMethod owner { method with serial := t.methodsMade + 1 }
  methodsMade := t.methodsMade + 1

def grant (t : Tables) (owner : ModuleId) : Request → Option Tables
  | .including id =>
    match t.hierarchy.includeModule owner id with
    | .ok hierarchy => some { t with hierarchy }
    | .error _ => none
  | .undefining name =>
    if t.hierarchy.isMethodDefined owner name then some (t.enter owner (.undefined name owner))
    else none
  | .removing name =>
    if (t.hierarchy.ownMethod? owner name).isSome then
      some { t with hierarchy := t.hierarchy.removeMethod owner name }
    else none
  | .retagging name visibility =>
    (Method.defined? (t.hierarchy.findMethod owner name)).map fun method =>
      t.enter owner { method with visibility }

end Tables

def Machine.selector? (m : Machine) (v : Value) : Option String := (m.symbol? v).or (m.text? v)

namespace Builtin

def isUpkeep : Builtin → Bool
  | includeModule | undefMethod | removeMethod | setVisibility _ => true
  | _ => false

/-- What an argument asks for, unless it is no module or no name. -/
def request? (m : Machine) (arg : Value) : Builtin → Option Request
  | includeModule => (m.module? arg).map .including
  | undefMethod => (m.selector? arg).map .undefining
  | removeMethod => (m.selector? arg).map .removing
  | setVisibility visibility => (m.selector? arg).map (.retagging · visibility)
  | _ => none

def inOrder (args : List Value) : Builtin → List Value
  | includeModule => args.reverse
  | _ => args

def serve (b : Builtin) (m : Machine) (owner : ModuleId) (t : Tables) (arg : Value) :
    Option Tables :=
  (b.request? m arg).bind (t.grant owner)

def serveAll (b : Builtin) (m : Machine) (owner : ModuleId) (args : List Value) : Option Tables :=
  args.foldlM (b.serve m owner) m.tables

def act (env : FrameId) (owner : ModuleId) (arg : Value) : Builtin → Run Unit
  | includeModule => do Run.includeModule env owner (← moduleArg env arg)
  | undefMethod => do Run.undefMethod env owner (← selectorArg env arg)
  | removeMethod => do Run.removeMethod env owner (← selectorArg env arg)
  | setVisibility visibility => do
    Run.setVisibility env owner (← selectorArg env arg) visibility
  | _ => return ()

def answer (receiver : Value) : Builtin → Value
  | setVisibility _ => .nil
  | _ => receiver

end Builtin

/-- How the call of an upkeep method ends. Either all arguments have been served, or those before
the first one that is refused, or the call was over before it served any. -/
inductive Upkept (b : Builtin) (m : Machine) (owner : ModuleId) (args : List Value) :
    Except Exit Value × Machine → Prop where
  | served (answer : Value) (m' : Machine)
      (all : b.serveAll m owner (b.inOrder args) = some m'.tables) :
      Upkept b m owner args (.ok answer, m')
  | refused (s : Signal) (m' : Machine) (done : List Value) (bad : Value) (others : List Value)
      (split : b.inOrder args = done ++ bad :: others)
      (before : b.serveAll m owner done = some m'.tables)
      (stops : b.serve m owner m'.tables bad = none) :
      Upkept b m owner args (.error (.signal s), m')
  | unserved (e : Exit) (m' : Machine) (same : m'.tables = m.tables) :
      Upkept b m owner args (.error e, m')

variable {m : Machine} {b : Builtin} {owner : ModuleId} {env : FrameId} {args : List Value}

namespace Run

/-! ### One argument -/

theorem fail_tables {α : Type} (env : FrameId) (fault : Fault) (m : Machine) :
    ∃ s m', (fail env fault : Run α) m = (.error (.signal s), m') ∧ m'.tables = m.tables := by
  refine ⟨_, _, rfl, ?_⟩
  change (recordBacktrace env m.heap.next _).2.tables = m.tables
  obtain recorded | recorded := recordBacktrace_cases env m.heap.next _ <;> rw [recorded] <;> rfl

/-- The computation sets the tables as told, or fails where there are none. -/
def Settles (env : FrameId) (m : Machine) (x : Run Unit) : Option Tables → Prop
  | some t => x m = (.ok (), m.withTables t)
  | none => ∃ fault, x m = fail env fault m

theorem settles_includeModule (env : FrameId) (owner id : ModuleId) (m : Machine) :
    Settles env m (includeModule env owner id) (m.tables.grant owner (.including id)) := by
  unfold includeModule Tables.grant
  change Settles env m _ (match m.hierarchy.includeModule owner id with
    | .ok hierarchy => some { m.tables with hierarchy }
    | .error _ => none)
  cases granted : m.hierarchy.includeModule owner id with
  | ok after =>
    unfold Settles
    simp only [run_bind, run_read, granted]
    rfl
  | error refusal =>
    cases refusal with
    | cyclic => exact ⟨.cyclicInclude, by simp only [run_bind, run_read, granted]⟩
    | notAModule =>
      exact ⟨.includesClass (m.className id), by simp only [run_bind, run_read, granted]⟩

theorem settles_undefMethod (env : FrameId) (owner : ModuleId) (name : String) (m : Machine) :
    Settles env m (undefMethod env owner name) (m.tables.grant owner (.undefining name)) := by
  unfold undefMethod Tables.grant
  change Settles env m _ (if m.hierarchy.isMethodDefined owner name = true then _ else none)
  split
  next defined =>
    unfold Settles
    simp only [run_bind, run_read, defined]
    rfl
  next undefined =>
    exact ⟨_, by simp only [run_bind, run_read, undefined]; rfl⟩

theorem settles_removeMethod (env : FrameId) (owner : ModuleId) (name : String) (m : Machine) :
    Settles env m (removeMethod env owner name) (m.tables.grant owner (.removing name)) := by
  unfold removeMethod Tables.grant
  change Settles env m _ (if (m.hierarchy.ownMethod? owner name).isSome = true then _ else none)
  split
  next own =>
    unfold Settles
    simp only [run_bind, run_read, own]
    rfl
  next absent =>
    exact ⟨_, by simp only [run_bind, run_read, absent]; rfl⟩

theorem settles_setVisibility (env : FrameId) (owner : ModuleId) (name : String)
    (visibility : Visibility) (m : Machine) :
    Settles env m (setVisibility env owner name visibility)
      (m.tables.grant owner (.retagging name visibility)) := by
  unfold setVisibility Tables.grant
  change Settles env m _ ((Method.defined? (m.hierarchy.findMethod owner name)).map _)
  cases found : Method.defined? (m.hierarchy.findMethod owner name) with
  | some method =>
    unfold Settles
    simp only [run_bind, run_read, found]
    rfl
  | none =>
    exact ⟨_, by simp only [run_bind, run_read, found]; rfl⟩

def insist {α : Type} (env : FrameId) (fault : Fault) : Option α → Run α
  | some a => Pure.pure a
  | none => fail env fault

theorem selectorArg_eq (env : FrameId) (v : Value) (m : Machine) :
    selectorArg env v m = insist env (.notASelector (m.inspect v)) (m.selector? v) m := by
  unfold selectorArg Machine.selector? selectorOf
  rw [run_bind, run_read]
  cases m.symbol? v with
  | some name => rfl
  | none =>
    cases m.text? v with
    | some content => rfl
    | none => rfl

theorem moduleArg_eq (env : FrameId) (v : Value) (m : Machine) :
    moduleArg env v m = insist env (.receiverNotAModule (m.inspect v)) (m.module? v) m := by
  cases is_module : m.module? v with
  | some id => exact moduleArg_of_some is_module env
  | none => exact moduleArg_of_none is_module env

theorem settles_reading {α : Type} {x : Run α} {found : Option α} {fault : Fault}
    {run : α → Run Unit} {request : α → Request} (reads : x m = insist env fault found m)
    (each : ∀ a, Settles env m (run a) (m.tables.grant owner (request a))) :
    Settles env m (x >>= run) ((found.map request).bind (m.tables.grant owner)) := by
  cases found with
  | some a =>
    have same : (x >>= run) m = run a m := by
      rw [run_bind, reads]
      rfl
    have act := each a
    rw [Option.map_some, Option.bind_some]
    unfold Settles at act ⊢
    rwa [same]
  | none =>
    refine ⟨fault, ?_⟩
    rw [run_bind, reads]
    rfl

theorem settles_act (upkeep : b.isUpkeep = true) (env : FrameId) (owner : ModuleId) (arg : Value)
    (m : Machine) : Settles env m (b.act env owner arg) (b.serve m owner m.tables arg) := by
  cases b with
  | includeModule =>
    exact settles_reading (moduleArg_eq env arg m) fun id => settles_includeModule env owner id m
  | undefMethod =>
    exact settles_reading (selectorArg_eq env arg m) fun name =>
      settles_undefMethod env owner name m
  | removeMethod =>
    exact settles_reading (selectorArg_eq env arg m) fun name =>
      settles_removeMethod env owner name m
  | setVisibility visibility =>
    exact settles_reading (selectorArg_eq env arg m) fun name =>
      settles_setVisibility env owner name visibility m
  | _ => cases upkeep

/-! ### All arguments -/

theorem serve_congr {m' : Machine} (heap : m'.heap = m.heap) (b : Builtin) :
    b.serve m' = b.serve m := by
  have modules : m'.module? = m.module? := by
    funext v
    rw [Machine.module?, Machine.module?, Machine.object?, Machine.object?, heap]
  have payloads : m'.payload? = m.payload? := by
    funext v
    rw [Machine.payload?, Machine.payload?, Machine.object?, Machine.object?, heap]
  have selectors : m'.selector? = m.selector? := by
    funext v
    rw [Machine.selector?, Machine.selector?, Machine.symbol?, Machine.symbol?, Machine.text?,
      Machine.text?, payloads]
  funext owner t arg
  unfold Builtin.serve Builtin.request?
  rw [modules, selectors]

/-- The induction is along the arguments: what is left is served from the tables so far. -/
theorem forEach_act (upkeep : b.isUpkeep = true) (env : FrameId) (owner : ModuleId)
    (args : List Value) (m : Machine) :
    (∃ t, b.serveAll m owner args = some t ∧
      forEach (b.act env owner) args m = (.ok (), m.withTables t)) ∨
    ∃ done bad others t fault, args = done ++ bad :: others ∧ b.serveAll m owner done = some t ∧
      b.serve m owner t bad = none ∧
      forEach (b.act env owner) args m = fail env fault (m.withTables t) := by
  induction args generalizing m with
  | nil => exact .inl ⟨m.tables, rfl, rfl⟩
  | cons arg rest ih =>
    have first := settles_act upkeep env owner arg m
    cases served : b.serve m owner m.tables arg with
    | none =>
      rw [served] at first
      obtain ⟨fault, failed⟩ := first
      refine .inr ⟨[], arg, rest, m.tables, fault, rfl, rfl, served, ?_⟩
      change Run.bind (b.act env owner arg) _ m = fail env fault m
      unfold Run.bind
      rw [failed]
      rfl
    | some t =>
      rw [served] at first
      have next : forEach (b.act env owner) (arg :: rest) m =
          forEach (b.act env owner) rest (m.withTables t) := by
        change Run.bind (b.act env owner arg) _ m = _
        unfold Run.bind
        rw [show b.act env owner arg m = (.ok (), m.withTables t) from first]
      have serving (args : List Value) :
          b.serveAll m owner (arg :: args) = b.serveAll (m.withTables t) owner args := by
        unfold Builtin.serveAll
        rw [List.foldlM_cons, served, serve_congr rfl]
        rfl
      obtain ⟨t', all, ran⟩ | ⟨done, bad, others, t', fault, rfl, before, stops, ran⟩ :=
        ih (m.withTables t)
      · exact .inl ⟨t', (serving rest).trans all, next.trans ran⟩
      · rw [serve_congr rfl] at stops
        exact .inr ⟨arg :: done, bad, others, t', fault, rfl, (serving done).trans before, stops,
          next.trans ran⟩

theorem perform_upkeep (upkeep : b.isUpkeep = true) (run : Runner) (env : FrameId)
    {receiver : Value} (is_module : m.module? receiver = some owner) (args : List Value)
    (block : Option Block) :
    b.perform run env receiver args block m =
      (do forEach (b.act env owner) (b.inOrder args); return b.answer receiver : Run Value) m := by
  have selectors (act : ModuleId → String → Run Unit) (answer : Value) :
      (do forSelectors env receiver args act; return answer : Run Value) m =
        (do forEach (fun arg => do act owner (← selectorArg env arg)) args; return answer :
          Run Value) m := by
    rw [run_bind, forSelectors, run_bind, moduleArg_of_some is_module]
    rfl
  cases b with
  | includeModule =>
    change includeByArgs env receiver args m = _
    rw [includeByArgs, run_bind, moduleArg_of_some is_module]
    rfl
  | undefMethod => exact selectors (Run.undefMethod env) receiver
  | removeMethod => exact selectors (Run.removeMethod env) receiver
  | setVisibility visibility =>
    exact selectors (fun owner name => Run.setVisibility env owner name visibility) .nil
  | _ => cases upkeep

theorem upkept_perform (upkeep : b.isUpkeep = true) (run : Runner) (env : FrameId)
    {receiver : Value} (is_module : m.module? receiver = some owner) (args : List Value)
    (block : Option Block) :
    Upkept b m owner args (b.perform run env receiver args block m) := by
  rw [perform_upkeep upkeep run env is_module]
  obtain ⟨t, all, ran⟩ | ⟨done, bad, others, t, fault, split, before, stops, ran⟩ :=
    forEach_act upkeep env owner (b.inOrder args) m
  · rw [run_bind, ran]
    exact .served _ _ all
  · obtain ⟨s, m', failed, same⟩ := fail_tables (α := Unit) env fault (m.withTables t)
    rw [run_bind, ran, failed]
    obtain rfl : m'.tables = t := same
    exact .refused s m' done bad others split before stops

/-! ### The call -/

theorem upkept_fail (b : Builtin) (owner : ModuleId) (args : List Value) (env : FrameId)
    (fault : Fault) (m : Machine) : Upkept b m owner args ((fail env fault : Run Value) m) := by
  obtain ⟨s, m', failed, same⟩ := fail_tables (α := Value) env fault m
  rw [failed]
  exact .unserved (.signal s) m' same

theorem upkept_congr {m' : Machine} {outcome : Except Exit Value × Machine}
    (upkept : Upkept b m' owner args outcome) (heap : m'.heap = m.heap)
    (tables : m'.tables = m.tables) : Upkept b m owner args outcome := by
  have serving (args : List Value) : b.serveAll m' owner args = b.serveAll m owner args := by
    rw [Builtin.serveAll, Builtin.serveAll, serve_congr heap, tables]
  cases upkept with
  | served answer after all => exact .served answer after ((serving _).symm.trans all)
  | refused s after done bad others split before stops =>
    rw [serve_congr heap] at stops
    exact .refused s after done bad others split ((serving _).symm.trans before) stops
  | unserved e after same => exact .unserved e after (same.trans tables)

theorem upkept_afterward {x : Run Value} {inside : Machine} {f : Machine → Machine}
    (keeps : ∀ m, (f m).tables = m.tables) (upkept : Upkept b m owner args (x inside)) :
    Upkept b m owner args (afterward x f inside) := by
  unfold afterward
  generalize x inside = outcome at upkept
  cases upkept with
  | served answer after all => exact .served answer _ (all.trans (congrArg some (keeps after).symm))
  | refused s after done bad others split before stops =>
    rw [← keeps after] at before stops
    exact .refused s _ done bad others split before stops
  | unserved e after same => exact .unserved e _ ((keeps after).trans same)

theorem upkept_inNewFrame (upkeep : b.isUpkeep = true) (calls : Nat) (caller : FrameId)
    (frame : Frame) {receiver : Value} (is_module : m.module? receiver = some owner)
    (args : List Value) (block : Option Block) :
    Upkept b m owner args
      (inNewFrame (runEntry calls) caller frame (.builtin b) receiver args block m) := by
  cases allowed : allowsCall m with
  | false =>
    rw [inNewFrame_of_full allowed]
    exact upkept_fail b owner args caller .stackTooDeep m
  | true =>
    rw [inNewFrame_of_allowed allowed]
    refine upkept_afterward (fun _ => rfl) ?_
    cases calls with
    | zero => exact .unserved .exhausted _ rfl
    | succ calls =>
      let inside : Machine := m.entered (m.callFrame caller receiver frame)
      have upkept : Upkept b inside owner args
          (b.perform (runEntry calls) m.frames.next receiver args block inside) :=
        upkept_perform (m := inside) upkeep (runEntry calls) m.frames.next is_module args block
      exact upkept_congr upkept rfl rfl

theorem entry_of_builtin? {entry : Entry} (runs : entry.builtin? = some b) :
    entry = .builtin b := by
  cases entry with
  | builtin method => exact congrArg Entry.builtin (Option.some.inj runs)
  | code body => cases runs

theorem isUndefined_of_builtin? {method : Method} (runs : method.body.builtin? = some b) :
    method.isUndefined = false := by
  unfold Method.isUndefined
  cases body : method.body with
  | undefined =>
    rw [body] at runs
    cases runs
  | native _ => rfl
  | closure _ _ => rfl

theorem upkept_invoke (upkeep : b.isUpkeep = true) {method : Method}
    (runs : method.body.builtin? = some b) (calls : Nat) (caller : FrameId) {receiver : Value}
    (is_module : m.module? receiver = some owner) (args : List Value) (block : Option Block) :
    Upkept b m owner args (invoke (runEntry calls) caller method receiver args block m) := by
  have entered := entered_invokeAt (runEntry calls) caller receiver args block none m
    (isUndefined_of_builtin? runs)
  unfold invoke
  generalize invokeAt (runEntry calls) caller method receiver args block none m = outcome at entered
  cases entered with
  | refused => exact upkept_fail b owner args caller _ m
  | native entry body =>
    rw [body] at runs
    rw [entry_of_builtin? runs]
    exact upkept_inNewFrame upkeep calls caller _ is_module args block
  | closure entry outer body =>
    rw [body] at runs
    rw [entry_of_builtin? runs]
    exact upkept_inNewFrame upkeep calls caller _ is_module args block

theorem send_object_method {kind : SendKind} {id : ObjectId} {name : String} {method : Method}
    (replies : m.reply kind (.object id) name args = .method method) (run : Runner) (env : FrameId)
    (block : Option Block) :
    send run env kind (.object id) name args block m =
      invoke run env method (.object id) args block (count .send m).2 := by
  have resolved : Method.defined? ((count .send m).2.resolve id name) =
      m.definition? (.object id) name := rfl
  have direct : directOperator? m (.object id) name args = none := rfl
  unfold Machine.reply at replies
  rw [direct] at replies
  rw [send_object, sendToObject, run_bind, run_read, resolved]
  dsimp only at replies ⊢
  cases found : m.definition? (.object id) name with
  | none =>
    rw [found] at replies
    cases replies
  | some definition =>
    rw [found] at replies
    dsimp only at replies ⊢
    cases refused : refusal? kind definition with
    | some reason =>
      rw [refused] at replies
      cases replies
    | none =>
      rw [refused] at replies
      obtain rfl := Reply.method.inj replies
      rfl

theorem upkept_send (upkeep : b.isUpkeep = true) {v : Value} {kind : SendKind} {name : String}
    {method : Method} (replies : m.reply kind v name args = .method method)
    (runs : method.body.builtin? = some b) (is_module : m.module? v = some owner) (calls : Nat)
    (env : FrameId) (block : Option Block) :
    Upkept b m owner args (send (runEntry calls) env kind v name args block m) := by
  cases v with
  | int _ => cases is_module
  | float _ => cases is_module
  | object id =>
    let counted : Machine := (count .send m).2
    have upkept : Upkept b counted owner args
        (invoke (runEntry calls) env method (.object id) args block counted) :=
      upkept_invoke (m := counted) upkeep runs calls env is_module args block
    rw [send_object_method replies]
    exact upkept_congr upkept rfl rfl

end Run

/-! ### What has been served -/

theorem length_inOrder (b : Builtin) (args : List Value) :
    (b.inOrder args).length = args.length := by
  cases b with
  | includeModule => exact List.length_reverse
  | _ => rfl

/-- If the call of an upkeep method raises, some arguments have been served and no others: those
before the first one that is refused, or none. So the tables are as they were if there is one
argument at most. If the call returns, all of the arguments have been served. -/
theorem upkeep_ends_at_refusal {v : Value} {kind : SendKind} {name : String} {method : Method}
    (upkeep : b.isUpkeep = true) (replies : m.reply kind v name args = .method method)
    (runs : method.body.builtin? = some b) (is_module : m.module? v = some owner) (calls : Nat)
    (env : FrameId) (block : Option Block) :
    (∀ s m', send (runEntry calls) env kind v name args block m = (.error (.signal s), m') →
      (∃ done rest, b.inOrder args = done ++ rest ∧ b.serveAll m owner done = some m'.tables ∧
        (done = [] ∨
          ∃ bad others, rest = bad :: others ∧ b.serve m owner m'.tables bad = none)) ∧
      (args.length ≤ 1 → m'.tables = m.tables)) ∧
    ∀ answer m', send (runEntry calls) env kind v name args block m = (.ok answer, m') →
      b.serveAll m owner (b.inOrder args) = some m'.tables := by
  have upkept := upkept_send upkeep replies runs is_module calls env block
  refine ⟨?_, ?_⟩
  · intro s m' raised
    rw [raised] at upkept
    cases upkept with
    | unserved _ _ same =>
      exact ⟨⟨[], b.inOrder args, rfl, congrArg some same.symm, .inl rfl⟩, fun _ => same⟩
    | refused _ _ done bad others split before stops =>
      refine ⟨⟨done, bad :: others, split, before, .inr ⟨bad, others, rfl, stops⟩⟩, ?_⟩
      intro one
      have lengths : done.length + (others.length + 1) = args.length := by
        rw [← length_inOrder b args, split, List.length_append, List.length_cons]
      obtain rfl : done = [] := List.eq_nil_of_length_eq_zero (by omega)
      exact (Option.some.inj before).symm
  · intro answer m' returned
    rw [returned] at upkept
    cases upkept with
    | served _ _ all => exact all

namespace Machine

def oddArguments (m : Machine) : List Value := [.int 5, m.moduleObject Core.comparable.id]

theorem boot_includes : ∃ method,
    (boot .standard).reply .anyMethod ((boot .standard).moduleObject Core.object.id) "include"
      (boot .standard).oddArguments = .method method ∧
    method.body.builtin? = some .includeModule := by
  have told : (match (boot .standard).reply .anyMethod
      ((boot .standard).moduleObject Core.object.id) "include" (boot .standard).oddArguments with
    | .method method => method.body.builtin? == some .includeModule
    | _ => false) = true := by decide +kernel
  split at told
  next method answer => exact ⟨method, answer, beq_iff_eq.1 told⟩
  next => cases told

theorem boot_refuses : ∃ s m',
    send (runEntry 1) .main .anyMethod ((boot .standard).moduleObject Core.object.id) "include"
      (boot .standard).oddArguments none (boot .standard) = (.error (.signal s), m') ∧
    m'.hierarchy.includesOf Core.object.id = [Core.comparable.id, Core.kernel.id] := by
  have told : (match send (runEntry 1) .main .anyMethod
      ((boot .standard).moduleObject Core.object.id) "include" (boot .standard).oddArguments none
      (boot .standard) with
    | (.error (.signal _), m') =>
      m'.hierarchy.includesOf Core.object.id == [Core.comparable.id, Core.kernel.id]
    | (.error .exhausted, _) => false
    | (.error .malformed, _) => false
    | (.ok _, _) => false) = true := by decide +kernel
  split at told
  next s m' ending => exact ⟨s, m', ending, beq_iff_eq.1 told⟩
  all_goals cases told

/-- The module given last is included before the number is refused, and stays included. -/
theorem refused_include_changes_includes :
    (boot .standard).Reachable ∧
    (boot .standard).module? ((boot .standard).moduleObject Core.object.id) =
      some Core.object.id ∧
    (∃ method, (boot .standard).reply .anyMethod ((boot .standard).moduleObject Core.object.id)
        "include" (boot .standard).oddArguments = .method method ∧
      method.body.builtin? = some .includeModule) ∧
    ∃ s m', send (runEntry 1) .main .anyMethod ((boot .standard).moduleObject Core.object.id)
        "include" (boot .standard).oddArguments none (boot .standard) =
        (.error (.signal s), m') ∧
      m'.hierarchy.includesOf Core.object.id ≠
        (boot .standard).hierarchy.includesOf Core.object.id := by
  obtain ⟨s, m', raised, includes⟩ := boot_refuses
  refine ⟨⟨.standard, .refl⟩, by decide +kernel, boot_includes, s, m', raised, ?_⟩
  rw [includes]
  decide +kernel

theorem upkeep_ends_at_refusal_include :
    ∃ s m',
      send (runEntry 1) .main .anyMethod ((boot .standard).moduleObject Core.object.id) "include"
        (boot .standard).oddArguments none (boot .standard) = (.error (.signal s), m') ∧
      Builtin.includeModule.serveAll (boot .standard) Core.object.id
        [(boot .standard).moduleObject Core.comparable.id] = some m'.tables ∧
      Builtin.includeModule.serve (boot .standard) Core.object.id m'.tables (.int 5) = none := by
  obtain ⟨method, replies, runs⟩ := boot_includes
  obtain ⟨s, m', raised, includes⟩ := boot_refuses
  have is_module : (boot .standard).module? ((boot .standard).moduleObject Core.object.id) =
      some Core.object.id := by decide +kernel
  obtain ⟨⟨done, rest, split, before, ended⟩, -⟩ :=
    (upkeep_ends_at_refusal rfl replies runs is_module 1 .main none).1 s m' raised
  -- The includes have changed, so something has been served.
  have some_done : done ≠ [] := by
    rintro rfl
    have kept : m'.hierarchy = (boot .standard).hierarchy :=
      congrArg Tables.hierarchy (Option.some.inj before).symm
    rw [kept] at includes
    revert includes
    decide +kernel
  obtain none_done | ⟨bad, others, rfl, stops⟩ := ended
  · exact (some_done none_done).elim
  · cases done with
    | nil => exact (some_done rfl).elim
    | cons first done =>
      obtain ⟨rfl, served⟩ := List.cons.inj split
      cases done with
      | nil =>
        obtain ⟨rfl, -⟩ := List.cons.inj served
        exact ⟨s, m', raised, before, stops⟩
      | cons second done =>
        obtain ⟨-, nothing⟩ := List.cons.inj served
        exact (List.append_ne_nil_of_right_ne_nil done (List.cons_ne_nil _ _) nothing.symm).elim

end Machine

end ObjectRuntime
