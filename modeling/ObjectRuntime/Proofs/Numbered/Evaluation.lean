import ObjectRuntime.Proofs.Numbered.Builtins
import ObjectRuntime.Proofs.Numbered.Observing

/-!
# Evaluation with numbered names

An expression takes the same course on both machines, whatever numbers the names in it get. The
induction is on expressions, for runners that simulate each other, and then on the calls that may
still nest.
-/

set_option autoImplicit false

namespace ObjectRuntime.Sim

open Numbered.Run (lift)

variable {i : Interner}

/-! ### Single steps -/

theorem literal (l : Literal) : Sim i Same (Numbered.Run.literal l) (Run.ofLiteral l) := by
  cases l with
  | symbol name => exact intern fun _ _ _ _ named => symbol named
  | text content => exact newText content
  | _ => exact value _

theorem moduleOf (v : Value) : Sim i Same (lift (Run.moduleOf v)) (Run.moduleOf v) :=
  (seen (fun _ _ m => congrFun m.module?_rename v) fun _ _ => rfl).lifted fun id => ofOption id

theorem ownerFrame (id : ModuleId) :
    Sim i Same (Numbered.Run.see fun m => Run.ownerFrame m id)
      (Run.read fun m => Run.ownerFrame m id) :=
  seen (fun _ _ m => m.ownerFrame_rename id) fun _ _ => rfl

theorem placeFrame (c : Context) (place : Place) (operands : List Value) :
    Sim i Same (lift (Run.placeFrame c place operands)) (Run.placeFrame c place operands) := by
  match place, operands with
  | .main, [] => exact value _
  | .here, [] => exact value _
  | .inModule, [v] =>
    exact (moduleOf v).lifted fun id => (ownerFrame id).lifted fun frame => ofOption frame
  | .main, _ :: _ | .here, _ :: _ | .inModule, [] | .inModule, _ :: _ :: _ => exact exit .malformed

theorem openClassPrim (c : Context) (name : String) (hasSuperclass : Bool) (place : Place)
    (operands : List Value) :
    Sim i Same (Numbered.Run.openClassPrim c name hasSuperclass place operands)
      (Run.openClassPrim c name hasSuperclass place operands) := by
  have opened (superclass : Option ModuleId) (rest : List Value) : Sim i Same
      (do let frame ← lift (Run.placeFrame c place rest)
          let id ← Numbered.Run.openClass frame (← Numbered.Run.intern name) superclass
          Numbered.Run.see fun m => m.moduleObject id)
      (do let frame ← Run.placeFrame c place rest
          let id ← Run.openClass frame name superclass
          Run.read fun m => m.moduleObject id) :=
    (placeFrame c place rest).andThen fun frame => intern fun _ _ _ _ named =>
      (openClass frame named superclass).andThen fun id => moduleObject id
  match hasSuperclass, operands with
  | true, v :: rest => exact (moduleOf v).andThen fun id => opened (some id) rest
  | true, [] => exact exit .malformed
  | false, rest => exact opened none rest

theorem openModulePrim (c : Context) (name : String) (place : Place) (operands : List Value) :
    Sim i Same (Numbered.Run.openModulePrim c name place operands)
      (Run.openModulePrim c name place operands) :=
  (placeFrame c place operands).andThen fun frame => intern fun _ _ _ _ named =>
    (openModule frame named).andThen fun id => moduleObject id

theorem aliasMethod (old new : String) (arity : Arity) (source target : ModuleId) :
    Sim i Same (Numbered.Run.aliasMethod old new arity source target)
      (Run.aliasMethod old new arity source target) := by
  refine intern fun j name _ _ named => ?_
  refine (findMethod source named).required fun k method method' _ sound found => ?_
  have body : method.body = method'.body := found.part sound fun _ => rfl
  refine intern fun l name _ _ named => ?_
  rw [body]
  exact defineMethod (plain named target arity method'.body)

theorem assign (frame : FrameId) {name text : String} (named : Named (fun ρ => ρ) i name text)
    (v : Value) :
    Sim i Same
      (do let target ← Numbered.Run.read fun s => (s.definingFrame? frame name).getD frame
          Numbered.Run.modify fun m => { m with frames := m.frames.define target name v }
          return v)
      (do Run.modify fun m => { m with frames := m.frames.assign frame text v }
          return v) := by
  have target : Sim i Same
      (Numbered.Run.read fun s => (s.definingFrame? frame name).getD frame)
      (Run.read fun m => (m.frames.definingFrame? frame text).getD frame) :=
    read fun s m later represents =>
      congrArg (Option.getD · frame) (represents.definingFrame? frame (named.later later))
  have assigned : Sim i Same
      (do let target ← Numbered.Run.read fun s => (s.definingFrame? frame name).getD frame
          Numbered.Run.modify fun m => { m with frames := m.frames.define target name v })
      (do let target ← Run.read fun m => (m.frames.definingFrame? frame text).getD frame
          Run.modify fun m => { m with frames := m.frames.define target text v }) :=
    target.andThen fun target => define target named v
  exact assigned.andThen fun _ => value v

theorem global {name text : String} (named : Named (fun ρ => ρ) i name text) :
    Sim i Same (Numbered.Run.see fun m => m.globals.get? name)
      (Run.read fun m => m.globals.get? text) := by
  refine seen (fun ρ naming m => ?_) fun _ _ => rfl
  rw [named ρ naming]
  exact Bindings.get?_rename_id naming.injective m.globals text

theorem setPosition (frame : FrameId) {name text : String} (named : Named (fun ρ => ρ) i name text)
    (line : Nat) :
    Sim i Same (lift (Run.modifyFrame frame fun f => { f with position := some ⟨name, line⟩ }))
      (Run.modifyFrame frame fun f => { f with position := some ⟨text, line⟩ }) :=
  modifyFrame frame fun ρ naming f => by
    rw [named ρ naming]
    rfl

theorem setLine (frame : FrameId) (line : Nat) :
    Sim i Same (Numbered.Run.modify fun m => { m with frames := m.frames.setLine frame line })
      (Run.modify fun m => { m with frames := m.frames.setLine frame line }) :=
  modify (fun ρ _ m => congrArg (fun frames => { m.rename ρ with frames })
    (m.frames.setLine_rename frame line)) fun _ _ => rfl

theorem forget (name : String) :
    Sim i Same
      (Numbered.Run.modify fun m =>
        { m with desk := { m.desk with registers := m.desk.registers.erase name } })
      (Run.modify fun m =>
        { m with desk := { m.desk with registers := m.desk.registers.erase name } }) :=
  step (fun _ _ _ => rfl) fun _ _ => rfl

theorem delivered (frame : FrameId) :
    Sim i Same
      (lift do return ((← Run.read fun m => m.frames.get? frame).bind (·.exception)).getD Value.nil)
      (do
        return ((← Run.read fun m => m.frames.get? frame).bind (·.exception)).getD Value.nil) := by
  have found : Sim i (Named fun ρ => Option.map (Frame.rename ρ))
      (Numbered.Run.see fun m => m.frames.get? frame) (Run.read fun m => m.frames.get? frame) :=
    see (fun _ _ m => m.frames.get?_rename frame) fun _ _ => rfl
  refine found.liftedBind fun j f f' _ sound named => ?_
  have exception : f.bind (·.exception) = f'.bind (·.exception) :=
    named.part (f := fun f => f.bind (·.exception)) (g := fun f => f.bind (·.exception)) sound
      fun _ => by cases f' <;> rfl
  rw [exception]
  exact value _

theorem resignal (key : String) : Sim i Same (lift (Run.resignal key)) (Run.resignal key) := by
  have kept : Sim i Same (Numbered.Run.see fun m => m.desk.kept.get? key)
      (Run.read fun m => m.desk.kept.get? key) := seen (fun _ _ _ => rfl) fun _ _ => rfl
  exact kept.lifted fun s => (ofOption s).lifted fun s => exit (.signal s)

theorem perform (c : Context) (step : Prim) (operands : List Value) :
    Sim i Same (Numbered.Run.perform c step operands) (Run.perform c step operands) := by
  match step, operands with
  -- Steps about a name, which is interned once the module is known.
  | .openClass name hasSuperclass place, operands =>
    exact openClassPrim c name hasSuperclass place operands
  | .openModule name place, operands => exact openModulePrim c name place operands
  | .defineUndefined name, [v] =>
    exact (moduleOf v).andThen fun owner => intern fun _ _ _ _ named =>
      (defineMethod (plain named owner (.atLeast 0) .undefined)).andThen fun _ => value _
  | .defineUndefinedSingleton name arity, [v] =>
    exact intern fun _ _ _ _ named =>
      (defineSingleton c.frame v named arity .undefined).andThen fun _ => value _
  | .alias old new arity, [v, w] =>
    exact (moduleOf v).andThen fun source => (moduleOf w).andThen fun target =>
      (aliasMethod old new arity source target).andThen fun _ => value _
  | .removeMethod name, [v] =>
    exact (moduleOf v).andThen fun owner => intern fun _ _ _ _ named =>
      (removeMethod c.frame owner named).andThen fun _ => value _
  | .undefMethod name, [v] =>
    exact (moduleOf v).andThen fun owner => intern fun _ _ _ _ named =>
      (undefMethod c.frame owner named).andThen fun _ => value _
  | .setVisibility name visibility, [v] =>
    exact (moduleOf v).andThen fun owner => intern fun _ _ _ _ named =>
      (setVisibility c.frame owner named visibility).andThen fun _ => value _
  | .variable name, [] =>
    exact intern fun _ _ _ _ named => (read (R := Same) fun s m later represents =>
      represents.lookup c.frame (named.later later)).andThen fun found => value _
  | .assign name, [v] => exact intern fun _ _ _ _ named => assign c.frame named v
  | .define name, [v] =>
    exact intern fun _ _ _ _ named => (define c.frame named v).andThen fun _ => value v
  | .globalGet name, [] =>
    exact intern fun _ _ _ _ named => (global named).andThen fun found => value _
  | .globalSet name, [v] =>
    exact intern fun _ _ _ _ named => (setGlobal named v).andThen fun _ => value v
  | .ivarGet name, [v] => exact intern fun _ _ _ _ named => ivarGet c.frame v named
  | .ivarSet name, [v, w] => exact intern fun _ _ _ _ named => ivarSet c.frame v named w
  | .setPosition file line, [] =>
    exact intern fun _ _ _ _ named => (setPosition c.frame named line).andThen fun _ => value _
  -- Steps that raise, or hand out what is known.
  | .log, [v] =>
    exact (shown (f := fun m => m.view v) fun _ _ => rfl).andThen fun view =>
      (log (.same (.value view))).andThen fun _ => value v
  | .ask question, operands => exact (ask c.frame question operands).andThen fun _ => value _
  | .includeModule, [v, w] =>
    exact (moduleOf v).andThen fun target => (moduleOf w).andThen fun id =>
      (includeModule c.frame target id).andThen fun _ => value _
  | .raise, [v] => exact raise c.frame v
  | .raiseNew message, [v] =>
    exact (moduleOf v).andThen fun cls => fail c.frame (.raised cls message)
  | .throw, [tag, v] => exact throw c.frame tag v
  | .fail cause, operands =>
    exact (shown (f := fun m => Run.causeOf m cause operands) fun _ _ => rfl).andThen fun fault =>
      (ofOption fault).andThen fun fault => fail c.frame fault
  -- Steps that are the same in both machines.
  | .self, [] | .argument _, [] | .argumentCount, [] | .blockGiven, [] | .mainObject, [] =>
    exact value _
  | .moduleObject, [v] => exact (moduleOf v).lifted fun id => moduleObject id
  | .keep register, [v] => exact (setRegister register v).lifts fun _ => v
  | .forget register, [] => exact (forget register).lifts fun _ => Value.nil
  | .hydrate register, [] => exact hydrateRegister register
  | .objectId name, [] =>
    exact (register name).lifted fun v => (ofOption v).lifted fun v =>
      (identityOf v).lifted fun identity =>
        (setRegister name identity.2).lifts fun _ => Value.int identity.1
  | .newObject, [v] => exact (moduleOf v).lifted fun cls => newObject cls fun _ => rfl
  | .setLine line, [] => exact (setLine c.frame line).lifts fun _ => Value.nil
  | .delivered, [] => exact delivered c.frame
  | .newException message, [v] =>
    exact (moduleOf v).lifted fun cls => (newException cls fun _ _ => rfl).lifts Value.object
  | .resignal key, [] => exact resignal key
  | .setCollecting enabled, [] =>
    exact gate.lifted fun gate => (setGate (gate.set enabled)).lifts fun _ => Value.nil
  | .paused steps, [] => exact (paused c.frame steps).lifts fun _ => Value.nil
  | .defineUndefined _, [] | .defineUndefined _, _ :: _ :: _
  | .defineUndefinedSingleton _ _, [] | .defineUndefinedSingleton _ _, _ :: _ :: _
  | .alias _ _ _, [] | .alias _ _ _, [_] | .alias _ _ _, _ :: _ :: _ :: _
  | .removeMethod _, [] | .removeMethod _, _ :: _ :: _
  | .undefMethod _, [] | .undefMethod _, _ :: _ :: _
  | .setVisibility _ _, [] | .setVisibility _ _, _ :: _ :: _
  | .variable _, _ :: _
  | .assign _, [] | .assign _, _ :: _ :: _
  | .define _, [] | .define _, _ :: _ :: _
  | .globalGet _, _ :: _
  | .globalSet _, [] | .globalSet _, _ :: _ :: _
  | .ivarGet _, [] | .ivarGet _, _ :: _ :: _
  | .ivarSet _, [] | .ivarSet _, [_] | .ivarSet _, _ :: _ :: _ :: _
  | .setPosition _ _, _ :: _
  | .log, [] | .log, _ :: _ :: _
  | .includeModule, [] | .includeModule, [_] | .includeModule, _ :: _ :: _ :: _
  | .raise, [] | .raise, _ :: _ :: _
  | .raiseNew _, [] | .raiseNew _, _ :: _ :: _
  | .throw, [] | .throw, [_] | .throw, _ :: _ :: _ :: _
  | .self, _ :: _ | .argument _, _ :: _ | .argumentCount, _ :: _ | .blockGiven, _ :: _
  | .mainObject, _ :: _
  | .moduleObject, [] | .moduleObject, _ :: _ :: _
  | .keep _, [] | .keep _, _ :: _ :: _
  | .forget _, _ :: _ | .hydrate _, _ :: _ | .objectId _, _ :: _
  | .newObject, [] | .newObject, _ :: _ :: _
  | .setLine _, _ :: _ | .delivered, _ :: _
  | .newException _, [] | .newException _, _ :: _ :: _
  | .resignal _, _ :: _ | .setCollecting _, _ :: _ | .paused _, _ :: _ => exact exit .malformed

theorem stash (key : String) {x : Numbered.Run Value} {y : Run Value} (body : Sim i Same x y) :
    Sim i Same (Numbered.Run.stash key x) (Run.stash key y) := by
  refine (attempt body).andThen fun outcome => ?_
  match outcome with
  | .ok _ => exact value _
  | .error (.signal s) => exact (modify (fun _ _ _ => rfl) fun _ _ => rfl).andThen fun _ => value _
  | .error .exhausted => exact exit .exhausted
  | .error .malformed => exact exit .malformed

theorem runMain {x : Numbered.Run Value} {y : Run Value} (body : Sim i Same x y) :
    Sim i Same (Numbered.Run.runMain x) (Run.runMain y) := by
  refine (attempt body).andThen fun outcome => ?_
  match outcome with
  | .ok v => exact value v
  | .error (.signal s) =>
    exact (uncaught .main s).andThen fun report =>
      (log (.same (.uncaught report))).andThen fun _ => value _
  | .error .exhausted => exact exit .exhausted
  | .error .malformed => exact exit .malformed

/-! ### Expressions -/

theorem writeBack (slot : Option String) (before after : Value) (ρ : String → String)
    (m : Machine) :
    Run.writeBack slot before after (m.rename ρ) =
      (Run.writeBack slot before after m).rename ρ := by
  cases slot with
  | none => rfl
  | some name =>
    unfold Run.writeBack
    dsimp only
    split <;> rfl

theorem writeBack_silent (slot : Option String) (before after : Value) (m : Machine)
    (log : List Answer) :
    Run.writeBack slot before after (m.withLog log) =
      (Run.writeBack slot before after m).withLog log := by
  cases slot with
  | none => rfl
  | some name =>
    unfold Run.writeBack
    dsimp only
    split <;> rfl

theorem unlink (frame : FrameId) (ρ : String → String) (m : Machine) :
    Run.unlink frame (m.rename ρ) = (Run.unlink frame m).rename ρ := by
  have frames : (m.frames.rename ρ).modify frame (fun f => { f with caller := none }) =
      (m.frames.modify frame fun f => { f with caller := none }).rename ρ :=
    m.frames.modify_rename frame fun _ => rfl
  simp only [Run.unlink, Machine.rename_frames, frames]
  rfl

section Eval

variable {run : Numbered.Runner} {run' : Runner}

mutual

theorem eval (runs : Runs run run') (c : Context) (i : Interner) (e : Expr) :
    Sim i Same (Numbered.Run.eval run c e) (Run.eval run' c e) := by
  cases e with
  | literal l =>
    rw [Numbered.Run.eval, Run.eval]
    exact literal l
  | constant name =>
    rw [Numbered.Run.eval, Run.eval]
    refine intern fun j name' _ _ named => ?_
    refine Sim.andThen (seen (fun ρ naming m => ?_) fun _ _ => rfl) fun found => ofOption found
    rw [named ρ naming]
    exact m.frames.lookupLocal_rename naming.injective .main name
  | register name =>
    rw [Numbered.Run.eval, Run.eval]
    exact (register name).andThen fun v => ofOption v
  | prim step operands =>
    rw [Numbered.Run.eval, Run.eval]
    exact (evalArgs runs c i operands).andThen fun operands => perform c step operands
  | seq first second =>
    rw [Numbered.Run.eval, Run.eval]
    exact (eval runs c i first).andThen fun _ => eval runs c i second
  | cond test yes no =>
    rw [Numbered.Run.eval, Run.eval]
    refine (eval runs c i test).andThen fun v => ?_
    refine (seen (fun _ _ m => congrFun m.truthy_rename v) fun _ _ => rfl).andThen fun truthy => ?_
    exact ite _ (eval runs c i yes) (eval runs c i no)
  | times count body =>
    rw [Numbered.Run.eval, Run.eval]
    exact (times count (eval runs c i body)).andThen fun _ => value _
  | send kind receiver selector args block =>
    rw [Numbered.Run.eval, Run.eval]
    refine (eval runs c i receiver).andThen fun before => ?_
    refine (evalArgs runs c i args).andThen fun args => ?_
    refine (evalBlock runs c i block).andThen fun block => ?_
    refine intern fun j name _ _ named => ?_
    refine (route before named args).andThen fun way => ?_
    exact (follow runs c.frame named args block kind way).afterward
      (writeBack _ before way.receiver) (writeBack_silent _ before way.receiver)
  | identifier receiver name args =>
    rw [Numbered.Run.eval, Run.eval]
    refine (eval runs c i receiver).andThen fun before => ?_
    refine (evalArgs runs c i args).andThen fun args => ?_
    refine intern fun j name _ _ named => ?_
    refine (identify runs c.frame named args before).bind fun k way way' _ _ same => ?_
    obtain ⟨after, result⟩ := way
    obtain ⟨after', result'⟩ := way'
    obtain ⟨rfl, results⟩ := same
    exact results.afterward (writeBack _ before after) (writeBack_silent _ before after)
  | callSuper args block =>
    rw [Numbered.Run.eval, Run.eval]
    refine (evalArgs runs c i args).andThen fun args => ?_
    exact (evalBlock runs c i block).andThen fun block =>
      callSuper runs c.frame c.receiver args block
  | invoke owner name receiver args block =>
    rw [Numbered.Run.eval, Run.eval]
    refine (eval runs c i owner).andThen fun owner => (moduleOf owner).andThen fun owner => ?_
    refine (eval runs c i receiver).andThen fun receiver => ?_
    refine (evalArgs runs c i args).andThen fun args => ?_
    refine (evalBlock runs c i block).andThen fun block => ?_
    refine intern fun j name _ _ named => ?_
    exact (findMethod owner named).required fun k method method' _ sound found =>
      invoke runs c.frame receiver args block found sound
  | yield args =>
    rw [Numbered.Run.eval, Run.eval]
    refine (seen (fun _ _ m => m.frames.currentBlock?_rename c.frame) fun _ _ => rfl).andThen
      fun block => ?_
    cases block with
    | none => exact fail c.frame .noBlockGiven
    | some block =>
      exact (evalArgs runs c i args).andThen fun args => callBlock runs c.frame args block
  | call block args =>
    rw [Numbered.Run.eval, Run.eval]
    refine (evalBlock runs c i block).andThen fun block => (ofOption block).andThen fun block => ?_
    exact (evalArgs runs c i args).andThen fun args => callBlock runs c.frame args block
  | makeProc arity body =>
    rw [Numbered.Run.eval, Run.eval]
    exact newObject Core.proc.id fun _ => rfl
  | defineMethod owner name arity capture code visibility =>
    rw [Numbered.Run.eval, Run.eval]
    refine (eval runs c i owner).andThen fun owner => (moduleOf owner).andThen fun owner => ?_
    refine intern fun j name' _ _ named => ?_
    have method : Named Method.rename j
        { Method.plain name' owner arity (Run.body capture code c.frame) with visibility }
        { Method.plain name owner arity (Run.body capture code c.frame) with visibility } :=
      fun ρ naming => by
        rw [named ρ naming]
        rfl
    exact (defineMethod method).andThen fun _ => value _
  | defineFromBlock owner name block =>
    rw [Numbered.Run.eval, Run.eval]
    refine (eval runs c i owner).andThen fun owner => (moduleOf owner).andThen fun owner => ?_
    refine (evalBlock runs c i block).andThen fun block => (ofOption block).andThen fun block => ?_
    exact intern fun j name' _ _ named =>
      (defineMethod (ofBlock named owner block)).andThen fun _ => value _
  | defineSingleton target name arity capture code =>
    rw [Numbered.Run.eval, Run.eval]
    refine (eval runs c i target).andThen fun target => intern fun j name' _ _ named => ?_
    exact (defineSingleton c.frame target named arity _).andThen fun _ => value _
  | within owner body =>
    rw [Numbered.Run.eval, Run.eval]
    refine (eval runs c i owner).andThen fun owner => (moduleOf owner).andThen fun owner => ?_
    refine (ownerFrame owner).andThen fun frame => (ofOption frame).andThen fun frame => ?_
    exact (moduleObject owner).andThen fun receiver => eval runs ⟨frame, receiver, [], none⟩ i body
  | inFrame kind linked body =>
    rw [Numbered.Run.eval, Run.eval]
    refine (newFrame fun _ _ => rfl).andThen fun frame => ?_
    exact (eval runs { c with frame } i body).afterward (unlink frame) fun _ _ => rfl
  | rescue body handler =>
    rw [Numbered.Run.eval, Run.eval]
    refine (rescue c.frame (eval runs c i body)).andThen fun rescued => ?_
    cases rescued with
    | completed v => exact value v
    | delivered exception => exact eval runs c i handler
  | catching tag body =>
    rw [Numbered.Run.eval, Run.eval]
    exact (eval runs c i tag).andThen fun tag => catching c.frame tag (eval runs c i body)
  | ensure body cleanup =>
    rw [Numbered.Run.eval, Run.eval]
    exact ensure (eval runs c i body) ((eval runs c i cleanup).andThen fun _ => value ())
  | stash key body =>
    rw [Numbered.Run.eval, Run.eval]
    exact stash key (eval runs c i body)
  | runMain body =>
    rw [Numbered.Run.eval, Run.eval]
    exact runMain (eval runs { c with frame := .main } i body)

theorem evalArgs (runs : Runs run run') (c : Context) (i : Interner) (args : Args) :
    Sim i Same (Numbered.Run.evalArgs run c args) (Run.evalArgs run' c args) := by
  cases args with
  | nil =>
    rw [Numbered.Run.evalArgs, Run.evalArgs]
    exact value []
  | cons first rest =>
    rw [Numbered.Run.evalArgs, Run.evalArgs]
    exact (eval runs c i first).andThen fun v => (evalArgs runs c i rest).andThen fun vs =>
      value (v :: vs)
  | splice start rest =>
    rw [Numbered.Run.evalArgs, Run.evalArgs]
    exact (evalArgs runs c i rest).andThen fun vs => value (c.args.drop start ++ vs)

theorem evalBlock (runs : Runs run run') (c : Context) (i : Interner) (block : BlockArg) :
    Sim i Same (Numbered.Run.evalBlock run c block) (Run.evalBlock run' c block) := by
  cases block with
  | none | literal arity body | passed =>
    rw [Numbered.Run.evalBlock, Run.evalBlock]
    exact value _
  | current =>
    rw [Numbered.Run.evalBlock, Run.evalBlock]
    exact seen (fun _ _ m => m.frames.currentBlock?_rename c.frame) fun _ _ => rfl
  | ofProc v =>
    rw [Numbered.Run.evalBlock, Run.evalBlock]
    refine (eval runs c i v).andThen fun v => ?_
    exact (seen (fun _ _ m => m.block?_rename v) fun _ _ => rfl).andThen fun block =>
      (ofOption block).andThen fun block => value (some block)

end

end Eval

theorem runEntry (calls : Nat) :
    Runs (Numbered.Run.runEntry calls) (ObjectRuntime.runEntry calls) := by
  -- On the calls that may still be nested; within one call the program gets smaller.
  induction calls with
  | zero => exact fun _ _ _ _ _ _ => exit .exhausted
  | succ calls ih =>
    intro i entry frame receiver args block
    cases entry with
    | builtin method => exact performBuiltin ih frame receiver args block method
    | code body => exact eval ih ⟨frame, receiver, args, block⟩ i body

theorem evalMain (program : Expr) :
    Sim i Same (Numbered.Run.evalMain program) (Run.evalMain program) :=
  (seen (fun _ _ _ => rfl) fun _ _ => rfl).andThen fun nesting =>
    eval (runEntry nesting) ⟨.main, .object .main, [], none⟩ i program

end ObjectRuntime.Sim
