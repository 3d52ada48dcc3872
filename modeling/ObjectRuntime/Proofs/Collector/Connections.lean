import ObjectRuntime.Collector.Mark
import ObjectRuntime.Proofs.Collector.Marking

/-!
# What refers to what

An object, a frame, a method or a block refers to others. The mark pass knows objects and frames
only: what the methods and blocks of an object or a frame refer to counts as its own. So a node is
marked if a path of references leads to it from a root, through methods and blocks too.
-/

set_option autoImplicit false

namespace ObjectRuntime

inductive Entity where
  | object (id : ObjectId)
  | frame (id : FrameId)
  | method (method : Method)
  | block (block : Block)

/-- The references that keep alive what they lead to. -/
inductive Machine.Owns (m : Machine) : Entity → Entity → Prop where
  | ivar {id target : ObjectId} {o : Object} (at_id : m.heap.get? id = some o)
      (held : .object target ∈ o.ivars.values) : Owns m (.object id) (.object target)
  | singleton {id : ObjectId} {o : Object} {method : Method} (at_id : m.heap.get? id = some o)
      (own : method ∈ o.singletonMethods.values) : Owns m (.object id) (.method method)
  | proc {id : ObjectId} {o : Object} {block : Block} (at_id : m.heap.get? id = some o)
      (payload : o.payload = .proc block) : Owns m (.object id) (.block block)
  | closure {method : Method} {frame : FrameId} (kept : method.body.frame? = some frame) :
      Owns m (.method method) (.frame frame)
  | environment (block : Block) : Owns m (.block block) (.frame block.frame)
  | self {block : Block} {target : ObjectId} (self : block.receiver = .object target) :
      Owns m (.block block) (.object target)
  | binding {id : FrameId} {f : Frame} {target : ObjectId} (at_id : m.frames.get? id = some f)
      (bound : .object target ∈ f.bindings.values) : Owns m (.frame id) (.object target)
  | receiver {id : FrameId} {f : Frame} {target : ObjectId} (at_id : m.frames.get? id = some f)
      (receiver : f.receiver = some (.object target)) : Owns m (.frame id) (.object target)
  | outer {id outer : FrameId} {f : Frame} (at_id : m.frames.get? id = some f)
      (encloses : f.outer = some outer) : Owns m (.frame id) (.frame outer)
  | running {id : FrameId} {f : Frame} {method : Method} (at_id : m.frames.get? id = some f)
      (runs : f.method = some method) : Owns m (.frame id) (.method method)
  | passed {id : FrameId} {f : Frame} {block : Block} (at_id : m.frames.get? id = some f)
      (passed : f.block = some block) : Owns m (.frame id) (.block block)
  | tag {id : FrameId} {f : Frame} {t : Target} {target : ObjectId}
      (at_id : m.frames.get? id = some f) (registered : t ∈ f.targets)
      (tag : t.kind = .catching (.object target)) : Owns m (.frame id) (.object target)
  | delivered {id : FrameId} {f : Frame} {target : ObjectId} (at_id : m.frames.get? id = some f)
      (delivered : f.exception = some (.object target)) : Owns m (.frame id) (.object target)

/-- All references: those, and that of a frame to the frame that called it, if that one is still
there. -/
inductive Machine.Refers (m : Machine) : Entity → Entity → Prop where
  | owned {a b : Entity} (owns : m.Owns a b) : Refers m a b
  | caller {id caller : FrameId} {f : Frame} (at_id : m.frames.get? id = some f)
      (calls : f.caller = some caller) (live : caller.index < m.frames.size) :
      Refers m (.frame id) (.frame caller)

abbrev Machine.Connects (m : Machine) : Entity → Entity → Prop := Relation.ReflTransGen m.Refers

/-- The nodes that stand for an entity: methods and blocks have none of their own. -/
def Entity.nodes : Entity → List Node
  | .object id => [.object id]
  | .frame id => [.frame id]
  | .method m => m.nodes
  | .block b => b.nodes

/-! ### The nodes of each -/

theorem Value.mem_nodes {v : Value} {node : Node} :
    node ∈ v.nodes ↔ ∃ id, v = .object id ∧ node = .object id := by
  cases v with
  | object id => simp [nodes]
  | int _ => simp [nodes]
  | float _ => simp [nodes]

theorem Value.mem_flatMap_nodes {vs : List Value} {node : Node} :
    node ∈ vs.flatMap nodes ↔ ∃ id, .object id ∈ vs ∧ node = .object id := by
  rw [List.mem_flatMap]
  constructor
  · rintro ⟨v, mem, in_v⟩
    obtain ⟨id, rfl, is_object⟩ := mem_nodes.1 in_v
    exact ⟨id, mem, is_object⟩
  · rintro ⟨id, mem, is_object⟩
    exact ⟨.object id, mem, mem_nodes.2 ⟨id, rfl, is_object⟩⟩

theorem Method.mem_nodes {method : Method} {node : Node} :
    node ∈ method.nodes ↔
      node = .module method.owner ∨ ∃ f, method.body.frame? = some f ∧ node = .frame f := by
  cases kept : method.body.frame? with
  | none => simp [nodes, kept]
  | some frame => simp [nodes, kept]

theorem Block.mem_nodes {block : Block} {node : Node} :
    node ∈ block.nodes ↔
      node = .frame block.frame ∨ ∃ id, block.receiver = .object id ∧ node = .object id := by
  rw [nodes, List.mem_cons, Value.mem_nodes]

theorem Target.mem_nodes {t : Target} {node : Node} :
    node ∈ t.nodes ↔ ∃ id, t.kind = .catching (.object id) ∧ node = .object id := by
  rw [nodes]
  cases t.kind with
  | rescue => simp
  | catching tag => simp [Value.mem_nodes]

namespace Machine

variable (m : Machine)

def Linked (a b : Node) : Prop := b ∈ m.edges a

variable {m}

theorem linked_object_iff {id : ObjectId} {node : Node} :
    m.Linked (.object id) node ↔ ∃ o, m.heap.get? id = some o ∧ node ∈ o.nodes := by
  rw [Linked, edges]
  cases m.heap.get? id with
  | none => simp
  | some o => simp

theorem linked_frame_iff {id : FrameId} {node : Node} :
    m.Linked (.frame id) node ↔ ∃ f, m.frames.get? id = some f ∧ node ∈ f.nodes := by
  rw [Linked, edges]
  cases m.frames.get? id with
  | none => simp
  | some f => simp

theorem Refers.linked {a b : Entity} (refers : m.Refers a b) {node : Node} (mem : node ∈ b.nodes) :
    ∃ x ∈ a.nodes, Relation.ReflTransGen m.Linked x node := by
  have from_object : ∀ {id : ObjectId} {o : Object}, m.heap.get? id = some o → node ∈ o.nodes →
      ∃ x ∈ (Entity.object id).nodes, Relation.ReflTransGen m.Linked x node :=
    fun at_id inside =>
      ⟨_, List.mem_singleton.2 rfl, .single (linked_object_iff.2 ⟨_, at_id, inside⟩)⟩
  have from_frame : ∀ {id : FrameId} {f : Frame}, m.frames.get? id = some f → node ∈ f.nodes →
      ∃ x ∈ (Entity.frame id).nodes, Relation.ReflTransGen m.Linked x node :=
    fun at_id inside =>
      ⟨_, List.mem_singleton.2 rfl, .single (linked_frame_iff.2 ⟨_, at_id, inside⟩)⟩
  cases refers with
  | caller at_id calls live =>
    obtain rfl := List.mem_singleton.1 mem
    exact from_frame at_id (by simp [Frame.nodes, calls])
  | owned owns =>
    cases owns with
    | ivar at_id held =>
      have inside := Value.mem_flatMap_nodes.2 ⟨_, held, List.mem_singleton.1 mem⟩
      exact from_object at_id (by simp [Object.nodes, inside])
    | @singleton _ o method at_id own =>
      have inside : node ∈ o.singletonMethods.values.flatMap Method.nodes :=
        List.mem_flatMap.2 ⟨method, own, mem⟩
      exact from_object at_id (by simp [Object.nodes, inside])
    | @proc _ o block at_id payload =>
      have inside : node ∈ block.nodes := mem
      exact from_object at_id (by simp [Object.nodes, payload, Payload.nodes, inside])
    | closure kept =>
      obtain rfl := List.mem_singleton.1 mem
      exact ⟨_, Method.mem_nodes.2 (.inr ⟨_, kept, rfl⟩), .refl⟩
    | environment block =>
      obtain rfl := List.mem_singleton.1 mem
      exact ⟨_, Block.mem_nodes.2 (.inl rfl), .refl⟩
    | self self =>
      obtain rfl := List.mem_singleton.1 mem
      exact ⟨_, Block.mem_nodes.2 (.inr ⟨_, self, rfl⟩), .refl⟩
    | binding at_id bound =>
      have inside := Value.mem_flatMap_nodes.2 ⟨_, bound, List.mem_singleton.1 mem⟩
      exact from_frame at_id (by simp [Frame.nodes, inside])
    | receiver at_id receiver =>
      have inside := Value.mem_nodes.2 ⟨_, rfl, List.mem_singleton.1 mem⟩
      exact from_frame at_id (by simp [Frame.nodes, receiver, inside])
    | outer at_id encloses =>
      obtain rfl := List.mem_singleton.1 mem
      exact from_frame at_id (by simp [Frame.nodes, encloses])
    | @running _ _ method at_id runs =>
      have inside : node ∈ method.nodes := mem
      exact from_frame at_id (by simp [Frame.nodes, runs, inside])
    | @passed _ _ block at_id passed =>
      have inside : node ∈ block.nodes := mem
      exact from_frame at_id (by simp [Frame.nodes, passed, inside])
    | @tag _ f t _ at_id registered tag =>
      have inside : node ∈ f.targets.flatMap Target.nodes :=
        List.mem_flatMap.2 ⟨t, registered, Target.mem_nodes.2 ⟨_, tag, List.mem_singleton.1 mem⟩⟩
      exact from_frame at_id (by simp [Frame.nodes, inside])
    | delivered at_id delivered =>
      have inside := Value.mem_nodes.2 ⟨_, rfl, List.mem_singleton.1 mem⟩
      exact from_frame at_id (by simp [Frame.nodes, delivered, inside])

theorem owned_of_object {id : ObjectId} {o : Object} (at_id : m.heap.get? id = some o) {node : Node}
    (mem : node ∈ o.nodes) :
    (∃ cls, node = .module cls) ∨ ∃ b, m.Owns (.object id) b ∧ node ∈ b.nodes := by
  simp only [Object.nodes, List.mem_cons, List.mem_append] at mem
  obtain rfl | (held | own) | payload := mem
  · exact .inl ⟨_, rfl⟩
  · obtain ⟨target, inside, rfl⟩ := Value.mem_flatMap_nodes.1 held
    exact .inr ⟨_, .ivar at_id inside, List.mem_singleton.2 rfl⟩
  · obtain ⟨method, own, inside⟩ := List.mem_flatMap.1 own
    exact .inr ⟨_, .singleton at_id own, inside⟩
  · cases is : o.payload with
    | module cls =>
      rw [is] at payload
      exact .inl ⟨cls, List.mem_singleton.1 payload⟩
    | proc block =>
      rw [is] at payload
      exact .inr ⟨_, .proc at_id is, payload⟩
    | _ =>
      rw [is] at payload
      cases payload

theorem refers_of_frame {id : FrameId} {f : Frame} (at_id : m.frames.get? id = some f) {node : Node}
    (mem : node ∈ f.nodes) :
    (∃ caller : FrameId, m.frames.size ≤ caller.index ∧ node = .frame caller) ∨
      ∃ b, m.Refers (.frame id) b ∧ node ∈ b.nodes := by
  simp only [Frame.nodes, List.mem_append, List.mem_flatMap, Option.mem_toList,
    Option.map_eq_some_iff] at mem
  obtain ((((((bound | receiver) | encloses) | calls) | runs) | passed) | tagged) | delivered := mem
  · obtain ⟨target, inside, rfl⟩ := Value.mem_flatMap_nodes.1 (List.mem_flatMap.2 bound)
    exact .inr ⟨_, .owned (.binding at_id inside), List.mem_singleton.2 rfl⟩
  · obtain ⟨v, receiver, inside⟩ := receiver
    obtain ⟨target, rfl, rfl⟩ := Value.mem_nodes.1 inside
    exact .inr ⟨_, .owned (.receiver at_id receiver), List.mem_singleton.2 rfl⟩
  · obtain ⟨outer, encloses, rfl⟩ := encloses
    exact .inr ⟨_, .owned (.outer at_id encloses), List.mem_singleton.2 rfl⟩
  · obtain ⟨caller, calls, rfl⟩ := calls
    by_cases live : caller.index < m.frames.size
    · exact .inr ⟨_, .caller at_id calls live, List.mem_singleton.2 rfl⟩
    · exact .inl ⟨caller, Nat.le_of_not_lt live, rfl⟩
  · obtain ⟨method, runs, inside⟩ := runs
    exact .inr ⟨_, .owned (.running at_id runs), inside⟩
  · obtain ⟨block, passed, inside⟩ := passed
    exact .inr ⟨_, .owned (.passed at_id passed), inside⟩
  · obtain ⟨t, registered, inside⟩ := tagged
    obtain ⟨target, tag, rfl⟩ := Target.mem_nodes.1 inside
    exact .inr ⟨_, .owned (.tag at_id registered tag), List.mem_singleton.2 rfl⟩
  · obtain ⟨v, delivered, inside⟩ := delivered
    obtain ⟨target, rfl, rfl⟩ := Value.mem_nodes.1 inside
    exact .inr ⟨_, .owned (.delivered at_id delivered), List.mem_singleton.2 rfl⟩

/-! ### Paths of references and paths of nodes -/

theorem Refers.present {id : FrameId} {b : Entity} (refers : m.Refers (.frame id) b) :
    id.index < m.frames.size := by
  have of_some : ∀ {f : Frame}, m.frames.get? id = some f → id.index < m.frames.size :=
    fun at_id => (Array.getElem?_eq_some_iff.1 at_id).1
  cases refers with
  | caller at_id => exact of_some at_id
  | owned owns => cases owns with
    | binding at_id | receiver at_id | outer at_id | running at_id | passed at_id | tag at_id
    | delivered at_id => exact of_some at_id

variable (m) in
def NodeConnects (target : ObjectId) : Node → Prop
  | .object id => m.Connects (.object id) (.object target)
  | .frame id => m.Connects (.frame id) (.object target)
  | .module _ => False

variable {target : ObjectId}

theorem NodeConnects.connects {a : Entity} {node : Node} (mem : node ∈ a.nodes)
    (connects : m.NodeConnects target node) : m.Connects a (.object target) := by
  cases a with
  | object id =>
    obtain rfl := List.mem_singleton.1 mem
    exact connects
  | frame id =>
    obtain rfl := List.mem_singleton.1 mem
    exact connects
  | method method =>
    obtain rfl | ⟨frame, kept, rfl⟩ := Method.mem_nodes.1 mem
    · cases connects
    · exact .head (.owned (.closure kept)) connects
  | block block =>
    obtain rfl | ⟨id, self, rfl⟩ := Block.mem_nodes.1 mem
    · exact .head (.owned (.environment block)) connects
    · exact .head (.owned (.self self)) connects

theorem NodeConnects.of_linked {node : Node}
    (path : Relation.ReflTransGen m.Linked node (.object target)) : m.NodeConnects target node := by
  induction path using Relation.ReflTransGen.head_induction_on with
  | refl => exact .refl
  | @head x y first _ ih =>
    cases x with
    | object id =>
      obtain ⟨o, at_id, inside⟩ := linked_object_iff.1 first
      obtain ⟨cls, rfl⟩ | ⟨b, owns, mem⟩ := owned_of_object at_id inside
      · cases ih
      · exact .head (.owned owns) (ih.connects mem)
    | frame id =>
      obtain ⟨f, at_id, inside⟩ := linked_frame_iff.1 first
      obtain ⟨caller, absent, rfl⟩ | ⟨b, refers, mem⟩ := refers_of_frame at_id inside
      -- A frame that is not there leads to nothing.
      · obtain same | ⟨_, refers, -⟩ := Relation.ReflTransGen.cases_head ih
        · cases same
        · have present := refers.present
          omega
      · exact .head refers (ih.connects mem)
    | module cls => cases first

theorem connects_iff_linked (root : Entity) (target : ObjectId) :
    m.Connects root (.object target) ↔
      ∃ node ∈ root.nodes, Relation.ReflTransGen m.Linked node (.object target) := by
  constructor
  · intro path
    induction path using Relation.ReflTransGen.head_induction_on with
    | refl => exact ⟨_, List.mem_singleton.2 rfl, .refl⟩
    | head first _ ih =>
      obtain ⟨node, mem, rest⟩ := ih
      obtain ⟨start, mem, before⟩ := first.linked mem
      exact ⟨start, mem, before.trans rest⟩
  · rintro ⟨node, mem, path⟩
    exact (NodeConnects.of_linked path).connects mem

/-! ### Numbers -/

variable (m) in
def Has : Node → Prop
  | .object id => id.index < m.heap.size
  | .frame id => id.index < m.frames.size
  | .module id => id.index < m.hierarchy.size

theorem numberOf_lt_iff {node : Node} : m.numberOf node < m.nodeCount ↔ m.Has node := by
  cases node with
  | object id =>
    simp only [numberOf, nodeCount, Has]
    split <;> omega
  | frame id =>
    simp only [numberOf, nodeCount, Has]
    split <;> omega
  | module id =>
    simp only [numberOf, nodeCount, Has]
    split <;> omega

theorem nodeOf_numberOf {node : Node} (has : m.Has node) : m.nodeOf (m.numberOf node) = node := by
  cases node with
  | object id =>
    have present : id.index < m.heap.size := has
    simp [nodeOf, numberOf, present]
  | frame id =>
    have present : id.index < m.frames.size := has
    simp [nodeOf, numberOf, present]
  | module id =>
    have present : id.index < m.hierarchy.size := has
    have later : ¬ m.heap.size + m.frames.size + id.index < m.heap.size := by omega
    simp [nodeOf, numberOf, present, later]

theorem Linked.has {a b : Node} (linked : m.Linked a b) : m.Has a := by
  cases a with
  | object id =>
    obtain ⟨o, at_id, -⟩ := linked_object_iff.1 linked
    exact (Array.getElem?_eq_some_iff.1 at_id).1
  | frame id =>
    obtain ⟨f, at_id, -⟩ := linked_frame_iff.1 linked
    exact (Array.getElem?_eq_some_iff.1 at_id).1
  | module id => cases linked

theorem Linked.leads {a b : Node} (linked : m.Linked a b) :
    Graph.Leads m.successors m.nodeCount (m.numberOf a) (m.numberOf b) := by
  refine ⟨numberOf_lt_iff.2 linked.has, ?_⟩
  rw [successors, nodeOf_numberOf linked.has]
  exact List.mem_map_of_mem linked

theorem linked_of_leads {k n : Nat} (leads : Graph.Leads m.successors m.nodeCount k n)
    (below : n < m.nodeCount) : m.Linked (m.nodeOf k) (m.nodeOf n) := by
  obtain ⟨-, next⟩ := leads
  obtain ⟨node, linked, rfl⟩ := List.mem_map.1 next
  rw [nodeOf_numberOf (numberOf_lt_iff.1 below)]
  exact linked

theorem reaches_iff_linked {roots : List Node} {node : Node} (has : m.Has node) :
    Graph.Reaches m.successors m.nodeCount (roots.map m.numberOf) (m.numberOf node) ↔
      ∃ r ∈ roots, Relation.ReflTransGen m.Linked r node := by
  constructor
  · rintro ⟨_, numbered, path⟩
    obtain ⟨r, is_root, rfl⟩ := List.mem_map.1 numbered
    refine ⟨r, is_root, ?_⟩
    have to_number : ∀ n, Relation.ReflTransGen (Graph.Leads m.successors m.nodeCount)
        (m.numberOf r) n → n < m.nodeCount → Relation.ReflTransGen m.Linked r (m.nodeOf n) := by
      intro n path
      induction path with
      | refl =>
        intro below
        rw [nodeOf_numberOf (numberOf_lt_iff.1 below)]
      | tail _ last ih => exact fun below => (ih last.1).tail (linked_of_leads last below)
    have path := to_number _ path (numberOf_lt_iff.2 has)
    rwa [nodeOf_numberOf has] at path
  · rintro ⟨r, is_root, path⟩
    exact ⟨m.numberOf r, List.mem_map_of_mem is_root,
      path.lift m.numberOf fun _ _ linked => linked.leads⟩

/-! ### Mark passes -/

variable (m) in
def marking (roots : List Node) : Graph.Marking := .start m.nodeCount (roots.map m.numberOf)

variable (m) in
/-- The pass from these nodes may end with these marks. -/
def MarksFrom (roots : List Node) (marks : Array Bool) : Prop :=
  Graph.Visits m.successors (m.marking roots) ⟨marks, []⟩

theorem marksFrom_marksOf (roots : List Node) : m.MarksFrom roots (m.marksOf roots) :=
  Graph.visits_marksFrom

variable {roots : List Node} {marks : Array Bool}

theorem MarksFrom.eq_marksOf (pass : m.MarksFrom roots marks) : marks = m.marksOf roots :=
  Graph.visits_unique pass

theorem MarksFrom.isMarked_iff (pass : m.MarksFrom roots marks) (node : Node) :
    Graph.isMarked marks (m.numberOf node) = true ↔
      m.Has node ∧ ∃ r ∈ roots, Relation.ReflTransGen m.Linked r node := by
  rw [Graph.isMarked_iff_of_visits pass, numberOf_lt_iff]
  exact and_congr_right fun has => reaches_iff_linked has

theorem MarksFrom.object_iff {roots : List Entity}
    (pass : m.MarksFrom (roots.flatMap Entity.nodes) marks) {id : ObjectId}
    (present : id.index < m.heap.size) :
    Graph.isMarked marks id.index = true ↔ ∃ r ∈ roots, m.Connects r (.object id) := by
  have numbered : m.numberOf (.object id) = id.index := if_pos present
  rw [← numbered, pass.isMarked_iff]
  constructor
  · rintro ⟨-, node, mem, path⟩
    obtain ⟨r, is_root, mem⟩ := List.mem_flatMap.1 mem
    exact ⟨r, is_root, (connects_iff_linked r id).2 ⟨node, mem, path⟩⟩
  · rintro ⟨r, is_root, path⟩
    obtain ⟨node, mem, path⟩ := (connects_iff_linked r id).1 path
    exact ⟨present, node, List.mem_flatMap.2 ⟨r, is_root, mem⟩, path⟩

end Machine

end ObjectRuntime
