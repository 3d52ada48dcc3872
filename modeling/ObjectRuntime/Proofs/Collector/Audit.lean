import ObjectRuntime.Proofs.Collector.Connections
import ObjectRuntime.Proofs.Machine.Situations

/-!
# What a mark pass finds while programs run

The machine knows only the frame of the innermost call. From it the links to the callers, and from a
scope the link outward, lead through all calls that are running, so that what any of them uses is
marked. The rest that is marked is what the anchors of the machine own; when no call is running,
this is all.
-/

set_option autoImplicit false

namespace ObjectRuntime

/-- What a machine holds on to by itself: the global variables and the fixed objects, the main
frame, the objects, frames and methods of its modules, and the symbols. -/
inductive Machine.Anchor (m : Machine) : Entity → Prop where
  | global {target : ObjectId} (held : .object target ∈ m.globals.values) :
      Anchor m (.object target)
  | mainObject : Anchor m (.object .main)
  | mainFrame : Anchor m (.frame .main)
  | nil : Anchor m (.object .nil)
  | true : Anchor m (.object .true)
  | false : Anchor m (.object .false)
  | moduleObject {entry : Module} (present : entry ∈ m.hierarchy.modules) :
      Anchor m (.object entry.object)
  | moduleFrame {entry : Module} (present : entry ∈ m.hierarchy.modules) :
      Anchor m (.frame entry.frame)
  | method {entry : Module} {method : Method} (present : entry ∈ m.hierarchy.modules)
      (defined : method ∈ entry.methods.values) : Anchor m (.method method)
  | classMethod {entry : Module} {method : Method} (present : entry ∈ m.hierarchy.modules)
      (defined : method ∈ entry.classMethods.values) : Anchor m (.method method)
  | symbol {id : ObjectId} (interned : id ∈ m.symbols.values) : Anchor m (.object id)

/-- What a call that runs in the frame, which was made for it, has to do with: its receiver, the
local variables of the frame and of the scopes around it, its block, the tags of its catches, and
the exception that was delivered to it. -/
inductive Machine.Uses (m : Machine) (frame : FrameId) (made : Frame) : Entity → Prop where
  | receiver {target : ObjectId} (receiver : made.receiver = some (.object target)) :
      Uses m frame made (.object target)
  | binding {scope : FrameId} {f : Frame} {target : ObjectId}
      (encloses : Relation.ReflTransGen (fun a b => m.frames.outer? a = some b) frame scope)
      (at_scope : m.frames.get? scope = some f) (bound : .object target ∈ f.bindings.values) :
      Uses m frame made (.object target)
  | block {block : Block} (passed : made.block = some block) : Uses m frame made (.block block)
  | tag {f : Frame} {t : Target} {target : ObjectId} (at_frame : m.frames.get? frame = some f)
      (registered : t ∈ f.targets) (tag : t.kind = .catching (.object target)) :
      Uses m frame made (.object target)
  | delivered {f : Frame} {target : ObjectId} (at_frame : m.frames.get? frame = some f)
      (delivered : f.exception = some (.object target)) : Uses m frame made (.object target)

namespace Machine

variable {m : Machine}

/-! ### Roots -/

theorem Anchor.mem_roots {a : Entity} (anchor : m.Anchor a) {node : Node} (mem : node ∈ a.nodes) :
    node ∈ m.roots := by
  have of_module : ∀ {entry : Module}, entry ∈ m.hierarchy.modules → node ∈ entry.nodes →
      node ∈ m.roots := by
    intro entry present inside
    have among : node ∈ m.hierarchy.modules.toList.flatMap Module.nodes :=
      List.mem_flatMap.2 ⟨entry, Array.mem_toList_iff.2 present, inside⟩
    simp only [roots, List.mem_append, among, or_true, true_or]
  cases anchor with
  | global held =>
    have among := Value.mem_flatMap_nodes.2 ⟨_, held, List.mem_singleton.1 mem⟩
    simp only [roots, List.mem_append, among, true_or]
  | mainObject | mainFrame | nil | true | false =>
    obtain rfl := List.mem_singleton.1 mem
    simp [roots]
  | moduleObject present =>
    obtain rfl := List.mem_singleton.1 mem
    exact of_module present (by simp [Module.nodes])
  | moduleFrame present =>
    obtain rfl := List.mem_singleton.1 mem
    exact of_module present (by simp [Module.nodes])
  | @method entry method present defined =>
    have among : node ∈ entry.methods.values.flatMap Method.nodes :=
      List.mem_flatMap.2 ⟨method, defined, mem⟩
    exact of_module present (by simp [Module.nodes, among])
  | @classMethod entry method present defined =>
    have among : node ∈ entry.classMethods.values.flatMap Method.nodes :=
      List.mem_flatMap.2 ⟨method, defined, mem⟩
    exact of_module present (by simp [Module.nodes, among])
  | symbol interned =>
    obtain rfl := List.mem_singleton.1 mem
    simp [roots, interned]

theorem root_cases {node : Node} (mem : node ∈ m.roots) :
    (∃ cls, node = .module cls) ∨ (∃ frame, m.current = some frame ∧ node = .frame frame) ∨
      ∃ a, m.Anchor a ∧ node ∈ a.nodes := by
  simp only [roots, List.mem_append, List.mem_cons, List.not_mem_nil, or_false, List.mem_map,
    Option.mem_toList, Option.map_eq_some_iff] at mem
  obtain ((((held | fixed) | current) | cls) | inside) | symbol := mem
  · obtain ⟨target, inside, rfl⟩ := Value.mem_flatMap_nodes.1 held
    exact .inr (.inr ⟨_, .global inside, List.mem_singleton.2 rfl⟩)
  · obtain rfl | rfl | rfl | rfl | rfl := fixed
    · exact .inr (.inr ⟨_, .mainObject, List.mem_singleton.2 rfl⟩)
    · exact .inr (.inr ⟨_, .mainFrame, List.mem_singleton.2 rfl⟩)
    · exact .inr (.inr ⟨_, .nil, List.mem_singleton.2 rfl⟩)
    · exact .inr (.inr ⟨_, .true, List.mem_singleton.2 rfl⟩)
    · exact .inr (.inr ⟨_, .false, List.mem_singleton.2 rfl⟩)
  · obtain ⟨frame, current, rfl⟩ := current
    exact .inr (.inl ⟨frame, current, rfl⟩)
  · obtain ⟨n, -, rfl⟩ := cls
    exact .inl ⟨_, rfl⟩
  · obtain ⟨entry, present, inside⟩ := List.mem_flatMap.1 inside
    have present : entry ∈ m.hierarchy.modules := Array.mem_toList_iff.1 present
    simp only [Module.nodes, List.mem_append, List.mem_map, List.mem_cons, List.not_mem_nil,
      or_false, Option.mem_toList, Option.map_eq_some_iff] at inside
    obtain (((superclass | included) | method) | classMethod) | rfl | rfl := inside
    · obtain ⟨cls, -, rfl⟩ := superclass
      exact .inl ⟨cls, rfl⟩
    · obtain ⟨cls, -, rfl⟩ := included
      exact .inl ⟨cls, rfl⟩
    · obtain ⟨method, defined, mem⟩ := List.mem_flatMap.1 method
      exact .inr (.inr ⟨_, .method present defined, mem⟩)
    · obtain ⟨method, defined, mem⟩ := List.mem_flatMap.1 classMethod
      exact .inr (.inr ⟨_, .classMethod present defined, mem⟩)
    · exact .inr (.inr ⟨_, .moduleFrame present, List.mem_singleton.2 rfl⟩)
    · exact .inr (.inr ⟨_, .moduleObject present, List.mem_singleton.2 rfl⟩)
  · obtain ⟨id, interned, rfl⟩ := symbol
    exact .inr (.inr ⟨_, .symbol interned, List.mem_singleton.2 rfl⟩)

variable (m) in
def MarksObject (id : ObjectId) : Prop :=
  Graph.isMarked m.marks (m.numberOf (.object id)) = Bool.true

theorem marksObject_iff {id : ObjectId} :
    m.MarksObject id ↔ id.index < m.heap.size ∧
      ((∃ a, m.Anchor a ∧ m.Connects a (.object id)) ∨
        ∃ frame, m.current = some frame ∧ m.Connects (.frame frame) (.object id)) := by
  rw [MarksObject, marks, (marksFrom_marksOf m.roots).isMarked_iff]
  refine and_congr_right fun _ => ?_
  constructor
  · rintro ⟨node, mem, path⟩
    have connects := NodeConnects.of_linked path
    obtain ⟨cls, rfl⟩ | ⟨frame, current, rfl⟩ | ⟨a, anchor, mem⟩ := root_cases mem
    · cases connects
    · exact .inr ⟨frame, current, connects⟩
    · exact .inl ⟨a, anchor, connects.connects mem⟩
  · rintro (⟨a, anchor, connects⟩ | ⟨frame, current, connects⟩)
    · obtain ⟨node, mem, path⟩ := (connects_iff_linked a id).1 connects
      exact ⟨node, anchor.mem_roots mem, path⟩
    · obtain ⟨node, mem, path⟩ := (connects_iff_linked _ id).1 connects
      obtain rfl := List.mem_singleton.1 mem
      refine ⟨_, ?_, path⟩
      simp [roots, current]

end Machine

/-! ### Links between the running calls -/

section Running

variable {m : Machine} {running : List Activation}

theorem innermostCall_of_mem {frame : FrameId} {previous : Option FrameId} {made : Frame}
    (mem : .call frame previous made ∈ running) : ∃ inner, innermostCall running = some inner := by
  induction running with
  | nil => cases mem
  | cons a rest ih =>
    cases a with
    | call inner _ _ => exact ⟨inner, rfl⟩
    | scope _ => exact ih ((List.mem_cons.1 mem).resolve_left nofun)
    | elsewhere _ => exact ih ((List.mem_cons.1 mem).resolve_left nofun)

theorem mem_of_innermostCall {inner : FrameId} (innermost : innermostCall running = some inner) :
    ∃ previous made, .call inner previous made ∈ running := by
  induction running with
  | nil => cases innermost
  | cons a rest ih =>
    cases a with
    | call frame previous made =>
      obtain rfl := Option.some.inj innermost
      exact ⟨previous, made, List.mem_cons_self⟩
    | scope _ | elsewhere _ =>
      obtain ⟨previous, made, mem⟩ := ih innermost
      exact ⟨previous, made, List.mem_cons_of_mem _ mem⟩

namespace Chained

variable (chained : Chained m.frames running) {frame : FrameId} {previous : Option FrameId}
  {made : Frame} (mem : .call frame previous made ∈ running)

include chained mem

theorem call_frame :
    m.frames.receiver? frame = made.receiver ∧ m.frames.block? frame = made.block := by
  induction chained with
  | nil => cases mem
  | call _ _ _ _ receiver block ih =>
    obtain same | inside := List.mem_cons.1 mem
    · cases same
      exact ⟨receiver, block⟩
    · exact ih inside
  | scope _ _ _ _ _ ih => exact ih ((List.mem_cons.1 mem).resolve_left nofun)
  | elsewhere _ _ ih => exact ih ((List.mem_cons.1 mem).resolve_left nofun)

theorem workingFrame_lt : (workingFrame running).index < m.frames.size := by
  cases chained with
  | nil => cases mem
  | call _ present _ _ _ _ => exact present
  | scope _ present _ _ _ => exact present
  | elsewhere _ no_call =>
    obtain ⟨inner, some_call⟩ := innermostCall_of_mem ((List.mem_cons.1 mem).resolve_left nofun)
    rw [no_call] at some_call
    cases some_call

/-- The links lead from where the machine works to every call that runs: from a call to its caller,
and from a scope outward. -/
theorem workingFrame_connects : m.Connects (.frame (workingFrame running)) (.frame frame) := by
  induction chained with
  | nil => cases mem
  | call around _ _ caller _ _ ih =>
    obtain same | inside := List.mem_cons.1 mem
    · cases same
      exact .refl
    · obtain ⟨f, at_frame, calls⟩ := Option.bind_eq_some_iff.1 caller
      exact .head (.caller at_frame calls (around.workingFrame_lt inside)) (ih inside)
  | scope around _ _ outer _ ih =>
    obtain ⟨f, at_frame, encloses⟩ := Option.bind_eq_some_iff.1 outer
    exact .head (.owned (.outer at_frame encloses))
      (ih ((List.mem_cons.1 mem).resolve_left nofun))
  | elsewhere _ no_call =>
    obtain ⟨inner, some_call⟩ := innermostCall_of_mem ((List.mem_cons.1 mem).resolve_left nofun)
    rw [no_call] at some_call
    cases some_call

theorem innermostCall_connects :
    ∃ inner, innermostCall running = some inner ∧ m.Connects (.frame inner) (.frame frame) := by
  induction running with
  | nil => cases mem
  | cons a rest ih =>
    cases a with
    | call inner _ _ => exact ⟨inner, rfl, chained.workingFrame_connects mem⟩
    | scope _ =>
      have inside := (List.mem_cons.1 mem).resolve_left nofun
      cases chained with
      | scope around => exact ih around inside
    | elsewhere _ =>
      have inside := (List.mem_cons.1 mem).resolve_left nofun
      cases chained with
      | elsewhere around => exact ih around inside

end Chained

theorem Chained.caller_outer (chained : Chained m.frames running)
    (no_call : innermostCall running = none) {id caller : FrameId} (own : id ∈ ownFrames running)
    (calls : m.frames.caller? id = some caller) : m.frames.outer? id = some caller := by
  induction chained with
  | nil => cases own
  | call => cases no_call
  | scope _ _ _ outer only ih =>
    obtain rfl | inside := List.mem_cons.1 own
    · rw [outer, only caller calls]
    · exact ih no_call inside
  | elsewhere _ _ ih => exact ih no_call own

end Running

namespace Machine

variable {m : Machine}

theorem Uses.connects {frame : FrameId} {made : Frame} {a : Entity} (uses : m.Uses frame made a)
    (receiver : m.frames.receiver? frame = made.receiver)
    (block : m.frames.block? frame = made.block) : m.Connects (.frame frame) a := by
  cases uses with
  | receiver is =>
    obtain ⟨f, at_frame, is⟩ := Option.bind_eq_some_iff.1 (receiver.trans is)
    exact .single (.owned (.receiver at_frame is))
  | binding encloses at_scope bound =>
    have outward : m.Connects (.frame frame) (.frame _) :=
      encloses.lift Entity.frame fun _ _ outer => by
        obtain ⟨f, at_frame, encloses⟩ := Option.bind_eq_some_iff.1 outer
        exact .owned (.outer at_frame encloses)
    exact outward.tail (.owned (.binding at_scope bound))
  | block is =>
    obtain ⟨f, at_frame, is⟩ := Option.bind_eq_some_iff.1 (block.trans is)
    exact .single (.owned (.passed at_frame is))
  | tag at_frame registered tag => exact .single (.owned (.tag at_frame registered tag))
  | delivered at_frame delivered => exact .single (.owned (.delivered at_frame delivered))

end Machine

namespace Situation

variable {s : Situation}

theorem Orderly.owns (orderly : s.Orderly) (no_call : innermostCall s.running = none) {a b : Entity}
    (refers : s.machine.Refers a b) : s.machine.Owns a b := by
  cases refers with
  | owned owns => exact owns
  | caller at_id calls live =>
    have calls := Option.bind_eq_some_iff.2 ⟨_, at_id, calls⟩
    have outer := orderly.chained.caller_outer no_call (orderly.callers _ _ calls) calls
    obtain ⟨f, at_id, encloses⟩ := Option.bind_eq_some_iff.1 outer
    exact .outer at_id encloses

/-- Whatever is evaluated where the machine works goes through situations that are reached, and a
call that there is room for is entered by a step, with its body running from there. In each
situation the mark pass marks all objects that the anchors own, and all that any of the running
calls uses, not only the innermost one. When no call is running, it marks nothing else. -/
theorem marks_anchors_and_calls (reached : s.Reached) :
    (∀ calls c e away, c.frame = workingFrame s.running → AllowedBlock false c.block →
      (away = true → innermostCall s.running = none) → e.isLocal away = true →
      Path s ⟨s.running, (Run.eval (runEntry calls) c e s.machine).2⟩) ∧
    (∀ run entry receiver args block x,
      Run.Attempts run (workingFrame s.running) entry receiver args block x →
      entry.Satisfies (Allowed false) → AllowedBlock false block →
      Run.allowsCall s.machine = true → ∃ f, s.EntersCall run entry receiver args block x f) ∧
    (∀ a id, s.machine.Anchor a → Relation.ReflTransGen s.machine.Owns a (.object id) →
      id.index < s.machine.heap.size → s.machine.MarksObject id) ∧
    (∀ frame previous made, .call frame previous made ∈ s.running →
      ∀ a, s.machine.Uses frame made a → ∀ id, s.machine.Connects a (.object id) →
        id.index < s.machine.heap.size → s.machine.MarksObject id) ∧
    ((∀ frame previous made, .call frame previous made ∉ s.running) → ∀ id,
      s.machine.MarksObject id ↔ id.index < s.machine.heap.size ∧
        ∃ a, s.machine.Anchor a ∧ Relation.ReflTransGen s.machine.Owns a (.object id)) := by
  have orderly := reached.orderly
  have owned : ∀ {a b : Entity}, Relation.ReflTransGen s.machine.Owns a b →
      s.machine.Connects a b :=
    fun path => Relation.ReflTransGen.mono (fun _ _ owns => .owned owns) _ _ path
  refine ⟨?_, ?_, ?_, ?_, ?_⟩
  · intro calls c e away works block home stays
    exact reached.path_eval calls works block home stays
  · intro run entry receiver args block x attempts code block_code allowed
    exact reached.enters_call attempts code block_code allowed
  · intro a id anchor path present
    exact Machine.marksObject_iff.2 ⟨present, .inl ⟨a, anchor, owned path⟩⟩
  · intro frame previous made mem a uses id path present
    obtain ⟨receiver, block⟩ := orderly.chained.call_frame mem
    obtain ⟨inner, innermost, linked⟩ := orderly.chained.innermostCall_connects mem
    have connects := (linked.trans (uses.connects receiver block)).trans path
    have current : s.machine.current = some inner := orderly.current.trans innermost
    exact Machine.marksObject_iff.2 ⟨present, .inr ⟨inner, current, connects⟩⟩
  · intro idle id
    have no_call : innermostCall s.running = none := by
      cases innermost : innermostCall s.running with
      | none => rfl
      | some inner =>
        obtain ⟨previous, made, mem⟩ := mem_of_innermostCall innermost
        exact absurd mem (idle inner previous made)
    have no_current : s.machine.current = none := orderly.current.trans no_call
    rw [Machine.marksObject_iff]
    refine and_congr_right fun _ => ?_
    constructor
    · rintro (⟨a, anchor, path⟩ | ⟨frame, current, -⟩)
      · refine ⟨a, anchor, ?_⟩
        exact Relation.ReflTransGen.mono (fun _ _ refers => orderly.owns no_call refers) _ _ path
      · rw [no_current] at current
        cases current
    · exact fun ⟨a, anchor, path⟩ => .inl ⟨a, anchor, owned path⟩

def withObject : Machine :=
  { Machine.boot .standard with
    heap := (Machine.boot .standard).heap.push (.ofPayload Core.object.id .plain) }

def methodFrame : Frame :=
  { Frame.fresh .method none with
    caller := some .main
    receiver := some (.object (Machine.boot .standard).heap.next) }

def blockFrame : Frame :=
  { Frame.fresh .block none with
    caller := some withObject.frames.next
    receiver := some .nil }

def nested : Situation :=
  ⟨[.call (withObject.entered methodFrame).frames.next (some withObject.frames.next) blockFrame,
      .call withObject.frames.next none methodFrame],
    (withObject.entered methodFrame).entered blockFrame⟩

theorem marks_anchors_and_calls_nested :
    nested.Reached ∧ nested.machine.MarksObject (Machine.boot .standard).heap.next := by
  have makes : Step ⟨[], .boot .standard⟩ ⟨[], withObject⟩ :=
    .operate ⟨.make Core.object.id .plain trivial nofun, .refl _⟩
  have calls : Step ⟨[], withObject⟩
      ⟨[.call withObject.frames.next none methodFrame], withObject.entered methodFrame⟩ :=
    .call methodFrame ⟨rfl, rfl, rfl⟩ (.of_none rfl rfl)
  have yields : Step _ nested := .call blockFrame ⟨rfl, rfl, rfl⟩ (.of_none rfl rfl)
  have reached : nested.Reached :=
    ⟨.standard, ((Relation.ReflTransGen.single makes).tail calls).tail yields⟩
  obtain ⟨-, -, -, running, -⟩ := marks_anchors_and_calls reached
  have present : (Machine.boot .standard).heap.next.index < nested.machine.heap.size := by
    change (Machine.boot .standard).heap.size < ((Machine.boot .standard).heap.push _).size
    rw [Heap.size_push]
    omega
  have outer : .call withObject.frames.next none methodFrame ∈ nested.running :=
    List.mem_cons_of_mem _ (List.mem_singleton.2 rfl)
  exact ⟨reached, running _ _ _ outer _ (.receiver rfl) _ .refl present⟩

end Situation

end ObjectRuntime
