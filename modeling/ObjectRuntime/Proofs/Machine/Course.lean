import ObjectRuntime.Proofs.Machine.Primitives

/-!
# The course of an evaluation

Seen from the machine, an evaluation is a sequence of changes with calls, handlers and scopes in
between, each of which is opened, has a course of its own, and is closed again. `Course` is this
tree without what is computed. However an evaluation ends, it takes such a course; what courses
have in common is shown here by induction on them.
-/

set_option autoImplicit false

namespace ObjectRuntime

/-! ### Code that stays in its frame -/

mutual

/-- The bodies of methods and blocks in the program work in the frame they are given, or in a scope
inside it. Where `away` holds, the code outside of these bodies may also work in the frame of a
module or in the main one. -/
def Expr.isLocal (away : Bool) : Expr → Bool
  | .literal _ | .constant _ | .register _ => true
  | .prim _ operands => operands.isLocal away
  | .seq first second => first.isLocal away && second.isLocal away
  | .cond test yes no => test.isLocal away && yes.isLocal away && no.isLocal away
  | .times _ body => body.isLocal away
  | .send _ receiver _ args block =>
    receiver.isLocal away && args.isLocal away && block.isLocal away
  | .identifier receiver _ args => receiver.isLocal away && args.isLocal away
  | .callSuper args block => args.isLocal away && block.isLocal away
  | .invoke owner _ receiver args block =>
    owner.isLocal away && receiver.isLocal away && args.isLocal away && block.isLocal away
  | .yield args => args.isLocal away
  | .call block args => block.isLocal away && args.isLocal away
  | .makeProc _ body => body.isLocal false
  | .defineMethod owner _ _ _ body _ => owner.isLocal away && body.isLocal false
  | .defineFromBlock owner _ block => owner.isLocal away && block.isLocal away
  | .defineSingleton target _ _ _ body => target.isLocal away && body.isLocal false
  | .within owner body => away && owner.isLocal away && body.isLocal away
  | .inFrame _ _ body => body.isLocal away
  | .rescue body handler => body.isLocal away && handler.isLocal away
  | .catching tag body => tag.isLocal away && body.isLocal away
  | .ensure body cleanup => body.isLocal away && cleanup.isLocal away
  | .stash _ body => body.isLocal away
  | .runMain body => away && body.isLocal away

def Args.isLocal (away : Bool) : Args → Bool
  | .nil => true
  | .cons first rest => first.isLocal away && rest.isLocal away
  | .splice _ rest => rest.isLocal away

def BlockArg.isLocal (away : Bool) : BlockArg → Bool
  | .none | .passed | .current => true
  | .literal _ body => body.isLocal false
  | .ofProc value => value.isLocal away

end

mutual

/-- The same, except that scopes may be opened only where `scopes` holds. Otherwise every body works
in the very frame it is given. -/
def Expr.stays (scopes away : Bool) : Expr → Bool
  | .literal _ | .constant _ | .register _ => true
  | .prim _ operands => operands.stays scopes away
  | .seq first second => first.stays scopes away && second.stays scopes away
  | .cond test yes no => test.stays scopes away && yes.stays scopes away && no.stays scopes away
  | .times _ body => body.stays scopes away
  | .send _ receiver _ args block =>
    receiver.stays scopes away && args.stays scopes away && block.stays scopes away
  | .identifier receiver _ args => receiver.stays scopes away && args.stays scopes away
  | .callSuper args block => args.stays scopes away && block.stays scopes away
  | .invoke owner _ receiver args block =>
    owner.stays scopes away && receiver.stays scopes away && args.stays scopes away &&
      block.stays scopes away
  | .yield args => args.stays scopes away
  | .call block args => block.stays scopes away && args.stays scopes away
  | .makeProc _ body => body.stays scopes false
  | .defineMethod owner _ _ _ body _ => owner.stays scopes away && body.stays scopes false
  | .defineFromBlock owner _ block => owner.stays scopes away && block.stays scopes away
  | .defineSingleton target _ _ _ body => target.stays scopes away && body.stays scopes false
  | .within owner body => away && owner.stays scopes away && body.stays scopes away
  | .inFrame _ _ body => scopes && body.stays scopes away
  | .rescue body handler => body.stays scopes away && handler.stays scopes away
  | .catching tag body => tag.stays scopes away && body.stays scopes away
  | .ensure body cleanup => body.stays scopes away && cleanup.stays scopes away
  | .stash _ body => body.stays scopes away
  | .runMain body => away && body.stays scopes away

def Args.stays (scopes away : Bool) : Args → Bool
  | .nil => true
  | .cons first rest => first.stays scopes away && rest.stays scopes away
  | .splice _ rest => rest.stays scopes away

def BlockArg.stays (scopes away : Bool) : BlockArg → Bool
  | .none | .passed | .current => true
  | .literal _ body => body.stays scopes false
  | .ofProc value => value.stays scopes away

end

mutual

theorem Expr.stays_true (away : Bool) (e : Expr) : e.stays true away = e.isLocal away := by
  cases e <;>
    simp only [Expr.stays, Expr.isLocal, Bool.true_and, Expr.stays_true, Args.stays_true,
      BlockArg.stays_true]

theorem Args.stays_true (away : Bool) (args : Args) : args.stays true away = args.isLocal away := by
  cases args <;> simp only [Args.stays, Args.isLocal, Expr.stays_true, Args.stays_true]

theorem BlockArg.stays_true (away : Bool) (block : BlockArg) :
    block.stays true away = block.isLocal away := by
  cases block <;> simp only [BlockArg.stays, BlockArg.isLocal, Expr.stays_true]

end

/-- What free code may do always, and other code only if it is in order. -/
def Permits (free ok : Bool) : Prop := free = true ∨ ok = true

abbrev Allowed (free : Bool) (e : Expr) : Prop := Permits free (e.isLocal false)

theorem Permits.and {free a b : Bool} (permits : Permits free (a && b)) :
    Permits free a ∧ Permits free b := by
  obtain is_free | both := permits
  · exact ⟨.inl is_free, .inl is_free⟩
  · obtain ⟨a_ok, b_ok⟩ := Bool.and_eq_true_iff.1 both
    exact ⟨.inr a_ok, .inr b_ok⟩

theorem Permits.of_free (ok : Bool) : Permits true ok := .inl rfl

/-- What the code that a machine hands out keeps to: free code to nothing, and other code to its
frame, with or without scopes inside it. -/
structure Rule where
  free : Bool
  scopes : Bool
  Code : Expr → Prop
  code_iff : ∀ e, Code e ↔ Permits free (e.stays scopes false)

namespace Rule

def ofFree (free : Bool) : Rule where
  free := free
  scopes := true
  Code := Allowed free
  code_iff e := by rw [Expr.stays_true]

instance : Coe Bool Rule := ⟨ofFree⟩

def own : Rule where
  free := false
  scopes := false
  Code e := e.stays false false = true
  code_iff _ := by simp [Permits]

end Rule

/-! ### Code that a machine hands out -/

section Code

variable {P : Expr → Prop} {m : Machine} {env : FrameId}

theorem Method.eq_some_of_defined? {found : Option Method} {method : Method}
    (is_defined : Method.defined? found = some method) : found = some method :=
  (Option.filter_eq_some_iff.1 is_defined).1

theorem Machine.Valid.nextDefinition (valid : m.Valid P) {id : ObjectId}
    {current method : Method} {recorded place : Option Nat}
    (next : Run.nextDefinition m id current recorded = some (place, method)) :
    method.Satisfies P := by
  unfold Run.nextDefinition at next
  obtain ⟨found, -⟩ := Option.filter_eq_some_iff.1 next
  split at found
  next =>
    obtain ⟨_, entry, ⟨⟩⟩ := Option.map_eq_some_iff.1 found
    exact valid.findClassMethodAfter entry
  next =>
    obtain ⟨_, entry, ⟨⟩⟩ := Option.map_eq_some_iff.1 found
    exact valid.findMethodAfter entry

theorem Frames.currentBlock?_eq_some {fs : Frames} {b : Block}
    (current : fs.currentBlock? env = some b) :
    ∃ id f, fs.get? id = some f ∧ f.block = some b := by
  obtain ⟨f, at_frame, passed⟩ := Option.bind_eq_some_iff.1 current
  obtain ⟨id, -, at_id⟩ := Option.bind_eq_some_iff.1 at_frame
  exact ⟨id, f, at_id, passed⟩

theorem Machine.Valid.currentBlock (valid : m.Valid P) {b : Block}
    (current : m.frames.currentBlock? env = some b) : b.Satisfies P := by
  obtain ⟨id, f, at_id, passed⟩ := Frames.currentBlock?_eq_some current
  exact (valid.frames id f at_id).2 b passed

theorem Body.satisfies_code (capture : Capture) {code : Expr} (frame : FrameId)
    (holds : P code) : (Run.body capture code frame).Satisfies P := by
  cases capture <;> exact holds

theorem Machine.block?_eq_some {v : Value} {b : Block} (is_proc : m.block? v = some b) :
    ∃ id o, m.heap.get? id = some o ∧ o.payload = .proc b := by
  unfold Machine.block? at is_proc
  split at is_proc
  next block payload =>
    obtain rfl := Option.some.inj is_proc
    obtain ⟨o, at_object, is_block⟩ := Option.map_eq_some_iff.1 payload
    cases v with
    | object id => exact ⟨id, o, at_object, is_block⟩
    | int _ => cases at_object
    | float _ => cases at_object
  next => cases is_proc

theorem Machine.Valid.block (valid : m.Valid P) {v : Value} {b : Block}
    (is_proc : m.block? v = some b) : b.Satisfies P := by
  obtain ⟨id, o, at_object, is_block⟩ := Machine.block?_eq_some is_proc
  have code := valid.payloads id o at_object
  rw [is_block] at code
  exact code

theorem Run.ofProc_eq_ok {x : Run Value} {m' : Machine} {given : Option Block}
    (ending : (do let v ← x; some <$> Run.ofOption (← Run.read fun m => m.block? v)) m =
      (.ok given, m')) :
    ∃ v b, x m = (.ok v, m') ∧ m'.block? v = some b ∧ given = some b := by
  obtain ⟨v, between, evaluated, reads⟩ := Run.run_bind_eq_ok ending
  rw [Run.run_bind, Run.run_read] at reads
  cases is_proc : between.block? v with
  | none =>
    rw [is_proc] at reads
    cases reads
  | some b =>
    rw [is_proc] at reads
    cases reads
    exact ⟨v, b, evaluated, is_proc, rfl⟩

end Code

/-- Writing a receiver back is a change of what the observer sees, if it is one at all. -/
theorem calmly_writeBack {P : Expr → Prop} (slot : Option String) (before after : Value)
    (m : Machine) : Calmly P m (Run.writeBack slot before after m) := by
  unfold Run.writeBack
  split
  next name =>
    split
    next =>
      exact .single ⟨.observe m.globals m.symbols m.missReason m.counters _ m.heap.gate, .refl _⟩
    next => exact .refl
  next => exact .refl

/-! ### Opening and closing -/

namespace Machine

variable {P : Expr → Prop} {m : Machine}

theorem Valid.modifyFrame (valid : m.Valid P) (id : FrameId) (f : Frame → Frame)
    (method : ∀ frame, (f frame).method = frame.method)
    (block : ∀ frame, (f frame).block = frame.block) (current : Option FrameId)
    (depth tokens : Nat) :
    ({ m with frames := m.frames.modify id f, current, depth, tokens } : Machine).Valid P := by
  refine ⟨valid.methods, valid.classMethods, valid.singletons, valid.payloads, ?_, valid.modules⟩
  intro other frame at_other
  obtain ⟨before, -, was, rfl⟩ | was := Frames.get?_modify_cases at_other
  · obtain ⟨methods, blocks⟩ := valid.frames other before was
    refine ⟨?_, ?_⟩
    · rw [method]
      exact methods
    · rw [block]
      exact blocks
  · exact valid.frames other frame was

def nextTarget (m : Machine) (kind : TargetKind) : Target := ⟨⟨m.tokens + 1⟩, kind⟩

def opened (m : Machine) (env : FrameId) (kind : TargetKind) : Machine :=
  { m with
    tokens := m.tokens + 1
    frames := m.frames.modify env fun f => f.pushTarget (m.nextTarget kind) }

def closed (m : Machine) (env : FrameId) (token : Token) : Machine :=
  { m with frames := m.frames.modify env fun f => f.dropTarget token }

theorem Valid.opened (valid : m.Valid P) (env : FrameId) (kind : TargetKind) :
    (m.opened env kind).Valid P :=
  valid.modifyFrame env (fun f => f.pushTarget (m.nextTarget kind)) (fun _ => rfl) (fun _ => rfl)
    m.current m.depth (m.tokens + 1)

theorem Valid.closed (valid : m.Valid P) (env : FrameId) (token : Token) :
    (m.closed env token).Valid P :=
  valid.modifyFrame env (fun f => f.dropTarget token) (fun _ => rfl) (fun _ => rfl) m.current
    m.depth m.tokens

def called (m : Machine) (f : Frame) (current : Option FrameId) : Machine :=
  { m with frames := m.frames.push f, current }

theorem Valid.called (valid : m.Valid P) {f : Frame} (code : f.Satisfies P)
    (current : Option FrameId) : (m.called f current).Valid P := by
  refine ⟨valid.methods, valid.classMethods, valid.singletons, valid.payloads, ?_, valid.modules⟩
  intro id frame at_id
  obtain rfl | before := Frames.get?_push_cases at_id
  · exact code
  · exact valid.frames id frame before

def entered (m : Machine) (f : Frame) : Machine :=
  { m.called f (some m.frames.next) with depth := m.depth + 1 }

theorem Valid.entered (valid : m.Valid P) {f : Frame} (code : f.Satisfies P) :
    (m.entered f).Valid P :=
  have called := valid.called code (some m.frames.next)
  ⟨called.methods, called.classMethods, called.singletons, called.payloads, called.frames,
    called.modules⟩

end Machine

def Frame.scope (kind : FrameKind) (env : FrameId) (linked : Bool) : Frame :=
  { Frame.fresh kind (some env) with caller := if linked then some env else none }

structure Frame.CalledFrom (f : Frame) (env : FrameId) : Prop where
  caller : f.caller = some env
  receiver : f.receiver.isSome
  targets : f.targets = []

theorem Frame.released_leave (f : Frame) :
    f.Released fun frame => { frame with caller := none, receiver := none } :=
  ⟨fun _ => rfl, fun _ _ => rfl, fun _ => rfl, fun _ => rfl, fun _ => rfl⟩

theorem Frame.released_unlink (f : Frame) (no_receiver : f.receiver = none) :
    f.Released fun frame => { frame with caller := none } :=
  ⟨fun _ => rfl, fun _ same => same.trans no_receiver, fun _ => rfl, fun _ => rfl, fun _ => rfl⟩

/-- The frame of the program itself, or of a module. -/
def Machine.IsPlace (m : Machine) (id : FrameId) : Prop :=
  id = .main ∨ ∃ owner, Run.ownerFrame m owner = some id

/-- What an evaluation in a frame does to the machine. A call is entered only if the limit leaves
room for it. Only code that is away, outside of the bodies of calls, may work in another frame; free
code may everywhere. -/
inductive Course (r : Rule) : Bool → FrameId → Machine → Machine → Prop where
  | calm {away : Bool} {env : FrameId} {m m' : Machine} (calmly : Calmly r.Code m m') :
      Course r away env m m'
  | trans {away : Bool} {env : FrameId} {m m' m'' : Machine} (first : Course r away env m m')
      (second : Course r away env m' m'') : Course r away env m m''
  | call {away : Bool} {env : FrameId} {m m' : Machine} (f : Frame)
      (allowed : Run.allowsCall m = true) (called : f.CalledFrom env) (code : f.Satisfies r.Code)
      (body : Course r false m.frames.next (m.entered f) m') :
      Course r away env m (Run.leaveCall m.frames.next m.current m')
  | handler {away : Bool} {env : FrameId} {m m' : Machine} (kind : TargetKind)
      (body : Course r away env (m.opened env kind) m') :
      Course r away env m (m'.closed env (m.nextTarget kind).token)
  | scope {away : Bool} {env : FrameId} {m m' : Machine} (kind : FrameKind) (linked : Bool)
      (opens : Permits r.free r.scopes)
      (body : Course r away m.frames.next (m.called (.scope kind env linked) m.current) m') :
      Course r away env m (Run.unlink m.frames.next m')
  | elsewhere {away : Bool} {env other : FrameId} {m m' : Machine}
      (permits : Permits r.free away) (place : m.IsPlace other)
      (body : Course r away other m m') : Course r away env m m'

namespace Course

variable {r : Rule} {away : Bool} {env : FrameId} {m m' : Machine}

theorem refl (env : FrameId) (m : Machine) : Course r away env m m := .calm .refl

theorem valid (course : Course r away env m m') (valid : m.Valid r.Code) :
    m'.Valid r.Code := by
  induction course with
  | calm calmly => exact calmly.valid valid
  | trans _ _ first second => exact second (first valid)
  | call f _ _ code _ ih =>
    have left := f.released_leave
    exact (ih (valid.entered code)).modifyFrame _ _ left.method left.block _ _ _
  | handler kind _ ih => exact (ih (valid.opened _ kind)).closed _ _
  | @scope _ env _ _ kind linked _ _ ih =>
    have left := (Frame.scope kind env linked).released_unlink rfl
    have code : (Frame.scope kind env linked).Satisfies r.Code := .of_none rfl rfl
    exact (ih (valid.called code _)).modifyFrame _ _ left.method left.block _ _ _
  | elsewhere _ _ _ ih => exact ih valid

theorem keeps (course : Course r away env m m') : m.frames.Keeps m'.frames := by
  induction course with
  | calm calmly => exact calmly.keeps
  | trans _ _ first second => exact first.trans second
  | call f _ called _ _ ih => exact ih.leave called.targets f.released_leave
  | handler _ _ ih => exact ih.withdraw
  | scope _ _ _ _ ih => exact ih.leave rfl (Frame.released_unlink _ rfl)
  | elsewhere _ _ _ ih => exact ih

theorem steps (course : Course r away env m m') : Steps m m' := by
  induction course with
  | calm calmly => exact calmly.changes.steps
  | trans _ _ first second => exact first.trans second
  | call _ _ _ _ _ ih =>
    exact ((Relation.ReflTransGen.single (.call _ _ _ _)).trans ih).tail (.call _ _ _ _)
  | handler _ _ ih =>
    exact ((Relation.ReflTransGen.single (.call _ _ _ _)).trans ih).tail (.call _ _ _ _)
  | scope _ _ _ _ ih =>
    exact ((Relation.ReflTransGen.single (.call _ _ _ _)).trans ih).tail (.call _ _ _ _)
  | elsewhere _ _ _ ih => exact ih

end Course

end ObjectRuntime
