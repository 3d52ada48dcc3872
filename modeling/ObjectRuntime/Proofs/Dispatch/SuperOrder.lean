import ObjectRuntime.Dispatch
import ObjectRuntime.Proofs.Hierarchy.SuperChain
import ObjectRuntime.Proofs.Dispatch.Operators
import ObjectRuntime.Proofs.Machine.Owners
import ObjectRuntime.Proofs.Machine.Programs

/-!
# The order of super calls

The definitions of a name for an object, in the order in which resolution searches them: the method
of the object's own, the class-level methods of a class and of its superclasses, and the entries of
the tables along the ancestors of the object's class. A super call goes to the next one in the
middle of each kind, but does not hand over between the kinds: from a method of the object's own it
passes over the table of the object's class, and from the last class-level method it goes nowhere.
-/

set_option autoImplicit false

namespace ObjectRuntime

inductive Site where
  | own
  | classLevel (id : ModuleId)
  | table (place : Nat)
deriving DecidableEq

def Site.place? : Site → Option Nat
  | table place => some place
  | own | classLevel _ => none

structure Definition where
  site : Site
  method : Method

namespace Definition

def isDefined (d : Definition) : Bool := !d.method.isUndefined

def target (d : Definition) : Option Nat × Method := (d.site.place?, d.method)

end Definition

namespace Machine

variable (m : Machine) (id : ObjectId) (name : String)

def ownDefinitions : List Definition :=
  ((m.singletonMethod? id name).map fun method => ⟨.own, method⟩).toList

def classDefinition? (cls : ModuleId) : Option Definition :=
  (m.hierarchy.ownClassMethod? cls name).map fun method => ⟨.classLevel cls, method⟩

def classDefinitions : List Definition :=
  match m.module? (.object id) with
  | some cls => (m.hierarchy.superclasses cls).filterMap (m.classDefinition? name)
  | none => []

def tableDefinitions : List Definition :=
  (m.hierarchy.entries (m.classOf (.object id)) name).map fun entry => ⟨.table entry.1, entry.2⟩

/-- All definitions of the name for the object, in the order of resolution. -/
def definitions : List Definition :=
  m.ownDefinitions id name ++ m.classDefinitions id name ++ m.tableDefinitions id name

/-- The definition that a super call from the definition at a position should go to. -/
def superTarget? (position : Nat) : Option (Option Nat × Method) :=
  (((m.definitions id name)[position + 1]?).filter Definition.isDefined).map Definition.target

/-- No table on the way holds a copy of another table's method. -/
def Uncopied : Prop :=
  ∀ place method, m.hierarchy.entryAt (m.classOf (.object id)) name place = some method →
    (m.hierarchy.ancestors (m.classOf (.object id)))[place]? = some method.owner

/-- The place that the frame of the definition records: that of a table, unless the method was found
first there; none for the other kinds. -/
def Records (d : Definition) (recorded : Option Nat) : Prop :=
  match d.site with
  | .table place => recorded = some place ∨ recorded = none ∧
      ∀ earlier < place, m.hierarchy.entryAt (m.classOf (.object id)) name earlier = none
  | .own | .classLevel _ => recorded = none

def siteAt (position : Nat) : Option Site := ((m.definitions id name)[position]?).map (·.site)

/-- What the super call from the definition at a position calls: it passes over the table of the
object's class after a method of the object's own, and finds nothing after the last class-level
method. -/
def handover (position : Nat) : Option (Option Nat × Method) :=
  match m.siteAt id name position, m.siteAt id name (position + 1) with
  | some .own, some (.table 0) => m.superTarget? id name (position + 1)
  | some (.classLevel _), some (.table _) => none
  | _, _ => m.superTarget? id name position

/-- The definition at a position is one of the object's own or the last one at class level, and the
definition after it, in a table, is missed. A placeholder that is passed over is missed if a
definition comes after it. -/
def Misses (position : Nat) : Prop :=
  (m.siteAt id name position = some .own ∧ m.siteAt id name (position + 1) = some (.table 0) ∧
      ((m.superTarget? id name position).isSome ∨ (m.superTarget? id name (position + 1)).isSome)) ∨
    (∃ cls place, m.siteAt id name position = some (.classLevel cls) ∧
      m.siteAt id name (position + 1) = some (.table place)) ∧
        (m.superTarget? id name position).isSome

def Arrives (position : Nat) (d : Definition) (recorded : Option Nat) : Prop :=
  (m.definitions id name)[position]? = some d ∧
    (recorded = d.site.place? ∨ position = 0 ∧ recorded = none)

def FollowsOrder : Prop :=
  ∀ position d recorded, m.Arrives id name position d recorded →
    Run.nextDefinition m id d.method recorded = m.superTarget? id name position

variable {m : Machine} {id : ObjectId} {name : String}

theorem findSome?_classDefinition? (path : List ModuleId) :
    (path.findSome? (m.classDefinition? name)).map Definition.target =
      (path.findSome? fun cls => m.hierarchy.ownClassMethod? cls name).map fun method =>
        (none, method) := by
  induction path with
  | nil => rfl
  | cons cls rest ih =>
    rw [List.findSome?_cons, List.findSome?_cons, classDefinition?]
    cases m.hierarchy.ownClassMethod? cls name with
    | some method => rfl
    | none => exact ih

theorem getElem?_tableDefinitions (position : Nat) :
    (m.tableDefinitions id name)[position]? =
      ((m.hierarchy.entries (m.classOf (.object id)) name)[position]?).map fun entry =>
        ⟨.table entry.1, entry.2⟩ := List.getElem?_map ..

theorem head?_tableDefinitions (m : Machine) (id : ObjectId) (name : String) :
    ((m.tableDefinitions id name).head?).map Definition.target =
      (m.hierarchy.firstEntry name 0 (m.hierarchy.ancestors (m.classOf (.object id)))).map
        fun entry => (some entry.1, entry.2) := by
  rw [tableDefinitions, List.head?_map, Hierarchy.entries, Hierarchy.head?_entriesFrom,
    Option.map_map]
  rfl

theorem head?_classDefinitions (m : Machine) (id : ObjectId) (name : String) :
    ((m.classDefinitions id name).head?).map Definition.target =
      ((m.module? (.object id)).bind fun cls => m.hierarchy.findClassMethod cls name).map
        fun method => (none, method) := by
  rw [classDefinitions]
  cases m.module? (.object id) with
  | none => rfl
  | some cls =>
    change ((m.hierarchy.superclasses cls).filterMap (m.classDefinition? name)).head?.map _ = _
    rw [List.head?_filterMap, findSome?_classDefinition?]
    rfl

theorem definitions_head :
    (m.definitions id name).head?.map (fun d => d.target.2) = m.resolve id name := by
  rw [definitions, ownDefinitions, resolve]
  cases m.singletonMethod? id name with
  | some method => rfl
  | none =>
    rw [Option.map_none, Option.toList_none, List.nil_append, List.head?_append]
    have classes : (m.classDefinitions id name).head?.map (fun d => d.target.2) =
        (m.module? (.object id)).bind fun cls => m.hierarchy.findClassMethod cls name := by
      have targets := congrArg (Option.map Prod.snd) (m.head?_classDefinitions id name)
      simpa [Function.comp_def] using targets
    have tables : (m.tableDefinitions id name).head?.map (fun d => d.target.2) =
        m.hierarchy.findMethod (m.classOf (.object id)) name := by
      have targets := congrArg (Option.map Prod.snd) (m.head?_tableDefinitions id name)
      rw [Hierarchy.findMethod_eq, ← Hierarchy.firstEntry_map_snd _ name 0]
      simpa [Function.comp_def] using targets
    rw [← classes, ← tables]
    cases (m.classDefinitions id name).head? with
    | some d => rfl
    | none => rfl

theorem filter_map_target (d : Option Definition) :
    (d.map Definition.target).filter (fun entry => !entry.2.isUndefined) =
      (d.filter Definition.isDefined).map Definition.target := by
  cases d with
  | none => rfl
  | some d =>
    rw [Option.map_some, Option.filter_some, Option.filter_some]
    cases undefined : d.method.isUndefined <;>
      simp [Definition.target, Definition.isDefined, undefined]

end Machine

namespace Run

variable {m : Machine} {id : ObjectId} {name : String} {current : Method} {recorded : Option Nat}

theorem nextDefinition_of_table
    (other : ∀ method, m.hierarchy.ownClassMethod? current.owner current.name = some method →
      method.serial ≠ current.serial) :
    nextDefinition m id current recorded =
      ((m.hierarchy.findMethodAfter (m.classOf (.object id)) current.owner current.name
        recorded).map fun entry => (some entry.1, entry.2)).filter fun entry =>
          !entry.2.isUndefined := by
  unfold nextDefinition
  cases own : m.hierarchy.ownClassMethod? current.owner current.name with
  | none => cases m.module? (.object id) <;> rfl
  | some method =>
    have apart : method.isIdentical current = false := beq_eq_false_iff_ne.2 (other method own)
    cases m.module? (.object id) <;> simp only [apart]

theorem nextDefinition_of_classLevel {cls : ModuleId}
    (is_module : m.module? (.object id) = some cls)
    (own : m.hierarchy.ownClassMethod? current.owner current.name = some current) :
    nextDefinition m id current recorded =
      ((m.hierarchy.findClassMethodAfter cls current.owner current.name).map fun method =>
        (none, method)).filter fun entry => !entry.2.isUndefined := by
  have identical : current.isIdentical current = true := beq_self_eq_true current.serial
  unfold nextDefinition
  simp only [own, is_module, identical]

end Run

namespace Machine

variable {m : Machine} {id : ObjectId} {name : String} {recorded : Option Nat} {position : Nat}
  {d : Definition}

theorem next_of_table (owned : m.Owned)
    (named : ∀ id name method, m.hierarchy.ownMethod? id name = some method → method.name = name)
    (uncopied : m.Uncopied id name) (at_position : (m.tableDefinitions id name)[position]? = some d)
    (records : m.Records id name d recorded) :
    (∃ place, d.site = .table place) ∧
      Run.nextDefinition m id d.method recorded =
        (((m.tableDefinitions id name)[position + 1]?).filter Definition.isDefined).map
          Definition.target := by
  rw [getElem?_tableDefinitions] at at_position
  obtain ⟨⟨place, method⟩, at_entry, rfl⟩ := Option.map_eq_some_iff.1 at_position
  obtain ⟨entry, next⟩ := Hierarchy.entries_next at_entry
  refine ⟨⟨place, rfl⟩, ?_⟩
  obtain ⟨table, at_place, own⟩ := Option.bind_eq_some_iff.1 entry
  have method_name : method.name = name := named table name method own
  have owner := uncopied place method entry
  have found : Hierarchy.Stop.Found m.hierarchy (m.classOf (.object id)) name
      ⟨place, method, recorded⟩ := ⟨entry, records⟩
  have resumed := Hierarchy.placeOf_of_owner found owner
  rw [Run.nextDefinition_of_table, method_name, Hierarchy.findMethodAfter, resumed,
    Option.bind_some, ← next, getElem?_tableDefinitions, ← filter_map_target, Option.map_map]
  · rfl
  · intro classMethod at_class
    exact owned.apart _ _ classMethod at_class table name method own

theorem getElem?_succ_filterMap {α β : Type} [DecidableEq α] {f : α → Option β} {path : List α}
    (nodup : path.Nodup) {position : Nat} {a : α} {b : β}
    (injective : ∀ a', f a' = some b → a' = a)
    (at_position : (path.filterMap f)[position]? = some b) :
    (path.filterMap f)[position + 1]? = ((path.dropWhile (· != a)).drop 1).findSome? f := by
  induction path generalizing position with
  | nil => cases at_position
  | cons x rest ih =>
    obtain ⟨fresh, nodup⟩ := List.nodup_cons.1 nodup
    have passed {earlier : Nat} (at_rest : (rest.filterMap f)[earlier]? = some b) :
        (x :: rest).dropWhile (· != a) = rest.dropWhile (· != a) := by
      have other : x ≠ a := by
        rintro rfl
        obtain ⟨y, mem, fy⟩ := List.mem_filterMap.1 (List.mem_of_getElem? at_rest)
        exact fresh (injective y fy ▸ mem)
      exact List.dropWhile_cons_of_pos (bne_iff_ne.2 other)
    rw [List.filterMap_cons] at at_position ⊢
    cases fx : f x with
    | none =>
      rw [fx] at at_position
      rw [passed at_position]
      exact ih nodup at_position
    | some y =>
      rw [fx] at at_position
      cases position with
      | zero =>
        obtain rfl : y = b := Option.some.inj at_position
        obtain rfl := injective x fx
        rw [List.dropWhile_cons_of_neg (by simp), List.drop_one, List.tail_cons,
          List.getElem?_cons_succ, ← List.head?_eq_getElem?, List.head?_filterMap]
      | succ position =>
        rw [List.getElem?_cons_succ] at at_position ⊢
        rw [passed at_position]
        exact ih nodup at_position

theorem next_of_classLevel (owned : m.Owned)
    (at_position : (m.classDefinitions id name)[position]? = some d) :
    (∃ cls, d.site = .classLevel cls) ∧
      Run.nextDefinition m id d.method recorded =
        (((m.classDefinitions id name)[position + 1]?).filter Definition.isDefined).map
          Definition.target := by
  rw [classDefinitions] at at_position ⊢
  cases is_module : m.module? (.object id) with
  | none =>
    rw [is_module] at at_position
    cases at_position
  | some cls =>
    rw [is_module] at at_position
    change ((m.hierarchy.superclasses cls).filterMap (m.classDefinition? name))[position]? = some d
      at at_position
    obtain ⟨above, -, source⟩ := List.mem_filterMap.1 (List.mem_of_getElem? at_position)
    obtain ⟨method, own, rfl⟩ := Option.map_eq_some_iff.1 source
    obtain ⟨-, owner, method_name⟩ := owned.classMethods above name method own
    have injective : ∀ other, m.classDefinition? name other = some ⟨.classLevel above, method⟩ →
        other = above := by
      intro other same
      obtain ⟨found, -, eq⟩ := Option.map_eq_some_iff.1 same
      exact Site.classLevel.inj (congrArg Definition.site eq)
    refine ⟨⟨above, rfl⟩, ?_⟩
    have next := getElem?_succ_filterMap (m.hierarchy.nodup_superclasses cls) injective at_position
    change _ =
      ((((m.hierarchy.superclasses cls).filterMap (m.classDefinition? name))[position + 1]?)
        |>.filter Definition.isDefined).map Definition.target
    rw [Run.nextDefinition_of_classLevel is_module, next, ← filter_map_target,
      findSome?_classDefinition?, Hierarchy.findClassMethodAfter, owner, method_name]
    rw [owner, method_name]
    exact own

/-- From a method of the object's own the super call goes on behind the table of the object's
class. -/
theorem next_of_own (owned : m.Owned) {method : Method} (present : 0 < m.hierarchy.size)
    (own : m.singletonMethod? id name = some method) :
    m.classDefinitions id name = [] ∧
      Run.nextDefinition m id method none =
        ((m.hierarchy.firstEntry name 1
          ((m.hierarchy.ancestors (m.classOf (.object id))).drop 1)).map fun entry =>
            (some entry.1, entry.2)).filter fun entry => !entry.2.isUndefined := by
  obtain ⟨o, at_id, entry⟩ := Option.bind_eq_some_iff.1 own
  obtain ⟨-, owner, method_name, no_module⟩ := owned.singletons id o name method at_id entry
  have not_module : m.module? (.object id) = none := by
    change (m.heap.get? id).bind Object.module? = none
    rw [at_id]
    exact no_module
  have cls : m.classOf (.object id) = o.cls := by
    change ((m.heap.get? id).map (·.cls)).getD _ = o.cls
    rw [at_id]
    rfl
  refine ⟨by rw [classDefinitions, not_module], ?_⟩
  rw [Run.nextDefinition_of_table, method_name, owner, ← cls, Hierarchy.findMethodAfter,
    Hierarchy.placeOf, Hierarchy.idxOf?_ancestors present, Option.bind_some]
  intro classMethod at_class
  exact owned.apart_singletons _ _ classMethod at_class id o name method at_id entry

theorem mem_classDefinitions (mem : d ∈ m.classDefinitions id name) :
    ∃ cls, d.site = .classLevel cls := by
  rw [classDefinitions] at mem
  split at mem
  next =>
    obtain ⟨cls, -, source⟩ := List.mem_filterMap.1 mem
    obtain ⟨method, -, rfl⟩ := Option.map_eq_some_iff.1 source
    exact ⟨cls, rfl⟩
  next => cases mem

theorem mem_tableDefinitions (mem : d ∈ m.tableDefinitions id name) :
    ∃ place, d.site = .table place := by
  obtain ⟨entry, -, rfl⟩ := List.mem_map.1 mem
  exact ⟨entry.1, rfl⟩

theorem tableDefinitions_cases (m : Machine) (id : ObjectId) (name : String) :
    ∃ later : List Definition,
      ((later.head?).map Definition.target =
        (m.hierarchy.firstEntry name 1
          ((m.hierarchy.ancestors (m.classOf (.object id))).drop 1)).map fun entry =>
            (some entry.1, entry.2)) ∧
      (∀ d ∈ later, ∃ place, d.site = .table (place + 1)) ∧
      ((∃ method, m.tableDefinitions id name = ⟨.table 0, method⟩ :: later) ∨
        m.tableDefinitions id name = later) := by
  let inTable (entry : Nat × Method) : Definition := ⟨.table entry.1, entry.2⟩
  let path := (m.hierarchy.ancestors (m.classOf (.object id))).drop 1
  refine ⟨(m.hierarchy.entriesFrom name 1 path).map inTable, ?_, ?_, ?_⟩
  · rw [List.head?_map, Hierarchy.head?_entriesFrom, Option.map_map]
    rfl
  · intro d mem
    obtain ⟨⟨place, method⟩, in_entries, rfl⟩ := List.mem_map.1 mem
    obtain ⟨position, at_position⟩ := List.mem_iff_getElem?.1 in_entries
    obtain ⟨skipped, rfl, -⟩ := Hierarchy.getElem?_entriesFrom at_position
    exact ⟨skipped, congrArg Site.table (Nat.add_comm 1 skipped)⟩
  · rw [tableDefinitions, Hierarchy.entries]
    cases order : m.hierarchy.ancestors (m.classOf (.object id)) with
    | nil => exact .inr (by simp only [path, order]; rfl)
    | cons first rest =>
      simp only [path, order, List.drop_one, List.tail_cons, Hierarchy.entriesFrom]
      cases m.hierarchy.ownMethod? first name with
      | some method => exact .inl ⟨method, rfl⟩
      | none => exact .inr rfl

theorem definitions_of_own {method : Method} (own : m.singletonMethod? id name = some method)
    (no_classMethods : m.classDefinitions id name = []) :
    m.definitions id name = ⟨.own, method⟩ :: m.tableDefinitions id name := by
  rw [definitions, ownDefinitions, own, no_classMethods]
  rfl

theorem definitions_of_none (no_own : m.singletonMethod? id name = none) :
    m.definitions id name = m.classDefinitions id name ++ m.tableDefinitions id name := by
  rw [definitions, ownDefinitions, no_own]
  rfl

theorem handover_of_table (at_position : (m.definitions id name)[position]? = some d)
    {place : Nat} (site : d.site = .table place) :
    m.handover id name position = m.superTarget? id name position := by
  have at_site : m.siteAt id name position = some (.table place) := by
    rw [siteAt, at_position, Option.map_some, site]
  rw [handover, at_site]

theorem nextDefinition_eq_handover (reachable : m.Reachable) (uncopied : m.Uncopied id name)
    (at_position : (m.definitions id name)[position]? = some d)
    (records : m.Records id name d recorded) :
    Run.nextDefinition m id d.method recorded = m.handover id name position := by
  have owned := reachable.owned
  have tagged := reachable.tagged
  cases own : m.singletonMethod? id name with
  | some method =>
    obtain ⟨no_classMethods, next⟩ :=
      next_of_own owned (Nat.lt_of_lt_of_le (by decide) tagged.core) own
    have order := definitions_of_own own no_classMethods
    cases position with
    | zero =>
      obtain rfl : ⟨.own, method⟩ = d := by
        rw [order] at at_position
        exact Option.some.inj at_position
      obtain rfl : recorded = none := records
      rw [next, handover, siteAt, siteAt, superTarget?, superTarget?, order]
      obtain ⟨later, first, sites, ⟨shadowed, tables⟩ | tables⟩ :=
        m.tableDefinitions_cases id name
      · rw [← first, filter_map_target, tables, List.head?_eq_getElem?]
        rfl
      · rw [← first, filter_map_target, tables]
        cases later with
        | nil => rfl
        | cons behind rest =>
          obtain ⟨place, site⟩ := sites behind List.mem_cons_self
          simp only [List.getElem?_cons_succ, List.getElem?_cons_zero, Option.map_some, site,
            List.head?_cons]
    | succ position =>
      have in_tables : (m.tableDefinitions id name)[position]? = some d := by
        rw [order] at at_position
        exact at_position
      obtain ⟨⟨place, site⟩, next⟩ := next_of_table owned tagged.named uncopied in_tables records
      rw [handover_of_table at_position site, next, superTarget?, order]
      rfl
  | none =>
    have order := definitions_of_none own
    obtain before | behind := Nat.lt_or_ge position (m.classDefinitions id name).length
    · have in_classes : (m.classDefinitions id name)[position]? = some d := by
        rw [order, List.getElem?_append_left before] at at_position
        exact at_position
      obtain ⟨⟨cls, site⟩, next⟩ := next_of_classLevel owned in_classes
      have at_site : m.siteAt id name position = some (.classLevel cls) := by
        rw [siteAt, at_position, Option.map_some, site]
      obtain more | last := Nat.lt_or_ge (position + 1) (m.classDefinitions id name).length
      · have at_next : (m.definitions id name)[position + 1]? =
            (m.classDefinitions id name)[position + 1]? := by
          rw [order, List.getElem?_append_left more]
        obtain ⟨above, site⟩ := mem_classDefinitions (List.getElem_mem more)
        have next_site : m.siteAt id name (position + 1) = some (.classLevel above) := by
          rw [siteAt, at_next, List.getElem?_eq_getElem more, Option.map_some, site]
        simp only [handover, at_site, next_site]
        rw [next, superTarget?, at_next]
      · have at_next : (m.definitions id name)[position + 1]? =
            (m.tableDefinitions id name)[position + 1 - (m.classDefinitions id name).length]? := by
          rw [order, List.getElem?_append_right last]
        rw [next, List.getElem?_eq_none last]
        cases following : (m.tableDefinitions id name)[position + 1 -
          (m.classDefinitions id name).length]? with
        | none =>
          have next_site : m.siteAt id name (position + 1) = none := by
            rw [siteAt, at_next, following]
            rfl
          simp only [handover, at_site, next_site]
          rw [superTarget?, at_next, following]
        | some d =>
          obtain ⟨place, site⟩ := mem_tableDefinitions (List.mem_of_getElem? following)
          have next_site : m.siteAt id name (position + 1) = some (.table place) := by
            rw [siteAt, at_next, following, Option.map_some, site]
          simp only [handover, at_site, next_site]
          rfl
    · have in_tables :
          (m.tableDefinitions id name)[position - (m.classDefinitions id name).length]? =
            some d := by
        rw [order, List.getElem?_append_right behind] at at_position
        exact at_position
      obtain ⟨⟨place, site⟩, next⟩ := next_of_table owned tagged.named uncopied in_tables records
      rw [handover_of_table at_position site, next, superTarget?, order,
        List.getElem?_append_right (Nat.le_succ_of_le behind), Nat.succ_sub behind]

theorem superTarget?_site {target : Option Nat × Method}
    (goal : m.superTarget? id name position = some target) :
    ∃ site, m.siteAt id name (position + 1) = some site ∧ site.place? = target.1 := by
  obtain ⟨next, chosen, rfl⟩ := Option.map_eq_some_iff.1 goal
  obtain ⟨at_next, -⟩ := Option.filter_eq_some_iff.1 chosen
  exact ⟨next.site, congrArg (Option.map Definition.site) at_next, rfl⟩

theorem getElem?_of_table (at_position : (m.definitions id name)[position]? = some d)
    {place : Nat} (site : d.site = .table place) :
    ∃ skipped, position =
        (m.ownDefinitions id name ++ m.classDefinitions id name).length + skipped ∧
      (m.tableDefinitions id name)[skipped]? = some d := by
  obtain before | behind := Nat.lt_or_ge position
    (m.ownDefinitions id name ++ m.classDefinitions id name).length
  · rw [definitions, List.getElem?_append_left before] at at_position
    obtain own | at_class := List.mem_append.1 (List.mem_of_getElem? at_position)
    · obtain ⟨method, -, rfl⟩ := Option.map_eq_some_iff.1 (Option.mem_toList.1 own)
      cases site
    · obtain ⟨cls, other⟩ := mem_classDefinitions at_class
      rw [site] at other
      cases other
  · obtain ⟨skipped, rfl⟩ := Nat.exists_eq_add_of_le behind
    rw [definitions, List.getElem?_append_right behind, Nat.add_sub_cancel_left] at at_position
    exact ⟨skipped, rfl, at_position⟩

theorem siteAt_succ_ne (first : m.siteAt id name position = some (.table 0)) :
    m.siteAt id name (position + 1) ≠ some (.table 0) := by
  intro again
  obtain ⟨d, at_position, site⟩ := Option.map_eq_some_iff.1 first
  obtain ⟨next, at_next, next_site⟩ := Option.map_eq_some_iff.1 again
  obtain ⟨skipped, rfl, -⟩ := getElem?_of_table at_position site
  obtain ⟨later, same, in_tables⟩ := getElem?_of_table at_next next_site
  obtain rfl : skipped + 1 = later := by omega
  obtain ⟨later, -, sites, ⟨method, tables⟩ | tables⟩ :=
    m.tableDefinitions_cases id name
  all_goals
    rw [tables] at in_tables
    obtain ⟨place, other⟩ := sites next (List.mem_of_getElem? in_tables)
    rw [next_site] at other
    cases other

theorem handover_eq_iff :
    m.handover id name position = m.superTarget? id name position ↔
      ¬ m.Misses id name position := by
  unfold handover
  split
  next at_own first =>
    constructor
    · rintro same (⟨-, -, present⟩ | ⟨⟨cls, place, at_class, -⟩, -⟩)
      · rw [same, or_self] at present
        obtain ⟨target, goal⟩ := Option.isSome_iff_exists.1 present
        obtain ⟨site, at_next, place⟩ := superTarget?_site goal
        obtain rfl := Option.some.inj (first.symm.trans at_next)
        obtain ⟨site, at_after, same_place⟩ := superTarget?_site (same.trans goal)
        cases site with
        | table place' =>
          obtain rfl : place' = 0 := Option.some.inj (same_place.trans place.symm)
          exact siteAt_succ_ne first at_after
        | own | classLevel =>
          rw [← place] at same_place
          cases same_place
      · rw [at_own] at at_class
        cases at_class
    · intro reaches
      have absent : m.superTarget? id name position = none ∧
          m.superTarget? id name (position + 1) = none := by
        rw [← Option.not_isSome_iff_eq_none, ← Option.not_isSome_iff_eq_none, ← not_or]
        exact fun present => reaches (.inl ⟨at_own, first, present⟩)
      rw [absent.1, absent.2]
  next cls place at_class at_table =>
    rw [eq_comm, ← Option.not_isSome_iff_eq_none, not_iff_not]
    constructor
    · exact fun present => .inr ⟨⟨cls, place, at_class, at_table⟩, present⟩
    · rintro (⟨at_own, -⟩ | ⟨-, present⟩)
      · rw [at_class] at at_own
        cases at_own
      · exact present
  next not_own not_last =>
    refine iff_of_true rfl ?_
    rintro (⟨at_own, first, -⟩ | ⟨⟨cls, place, at_class, at_table⟩, -⟩)
    · exact not_own at_own first
    · exact not_last cls place at_class at_table

theorem callSuper_eq {frame : Frame} {env : FrameId} {args : List Value} {block : Option Block}
    (run : Runner) (at_frame : (m.frames.methodFrame? env).bind m.frames.get? = some frame)
    (running : frame.method = some d.method) :
    Run.callSuper run env (.object id) args block m =
      match Run.nextDefinition m id d.method frame.ancestorIndex with
      | some (place, method) =>
        Run.invokeAt run env method (.object id) args
          (block.or (m.frames.currentBlock? env)) place m
      | none =>
        Run.fail env (.noSuperMethod d.method.name (m.describeReceiver (.object id))) m := by
  simp only [Run.callSuper, Run.run_bind, Run.run_read, at_frame, Option.bind_some, running,
    Option.map_some]
  change (match Run.nextDefinition m id d.method frame.ancestorIndex with
    | some (place, method) => _
    | none => _ : Run Value) m = _
  cases Run.nextDefinition m id d.method frame.ancestorIndex with
  | none => rfl
  | some next => cases block <;> rfl

theorem Arrives.records (arrives : m.Arrives id name position d recorded) :
    m.Records id name d recorded := by
  obtain ⟨at_position, rfl | ⟨rfl, rfl⟩⟩ := arrives
  · rw [Records]
    cases d.site with
    | table place => exact .inl rfl
    | own | classLevel => rfl
  · rw [Records]
    cases site : d.site with
    | own | classLevel => rfl
    | table place =>
      obtain ⟨skipped, start, in_tables⟩ := getElem?_of_table at_position site
      obtain rfl : skipped = 0 := by omega
      rw [getElem?_tableDefinitions] at in_tables
      obtain ⟨entry, first, rfl⟩ := Option.map_eq_some_iff.1 in_tables
      obtain rfl : entry.1 = place := Site.table.inj site
      rw [← List.head?_eq_getElem?, Hierarchy.entries, Hierarchy.head?_entriesFrom] at first
      have spec := (m.hierarchy.firstEntry_drop_eq_some _ name 0 entry.1 entry.2).1 first
      exact .inr ⟨rfl, fun earlier lt => spec.2.2 earlier (Nat.zero_le _) lt⟩

theorem name_of_mem (owned : m.Owned)
    (named : ∀ id name method, m.hierarchy.ownMethod? id name = some method → method.name = name)
    (mem : d ∈ m.definitions id name) : d.method.name = name := by
  obtain other | in_tables := List.mem_append.1 mem
  · obtain is_own | at_class := List.mem_append.1 other
    · obtain ⟨method, own, rfl⟩ := Option.map_eq_some_iff.1 (Option.mem_toList.1 is_own)
      obtain ⟨o, at_id, entry⟩ := Option.bind_eq_some_iff.1 own
      exact (owned.singletons id o name method at_id entry).2.2.1
    · rw [classDefinitions] at at_class
      split at at_class
      next =>
        obtain ⟨cls, -, source⟩ := List.mem_filterMap.1 at_class
        obtain ⟨method, own, rfl⟩ := Option.map_eq_some_iff.1 source
        exact (owned.classMethods cls name method own).2.2
      next => cases at_class
  · obtain ⟨position, at_position⟩ := List.mem_iff_getElem?.1 in_tables
    rw [getElem?_tableDefinitions] at at_position
    obtain ⟨⟨place, method⟩, at_entry, rfl⟩ := Option.map_eq_some_iff.1 at_position
    obtain ⟨table, -, own⟩ := Option.bind_eq_some_iff.1 (Hierarchy.entries_next at_entry).1
    exact named table name method own

theorem followsOrder_iff (reachable : m.Reachable) (uncopied : m.Uncopied id name) :
    m.FollowsOrder id name ↔ ∀ position, ¬ m.Misses id name position := by
  constructor
  · intro follows position misses
    have present : ∃ site, m.siteAt id name position = some site := by
      obtain ⟨at_own, -⟩ | ⟨⟨cls, place, at_class, -⟩, -⟩ := misses
      · exact ⟨_, at_own⟩
      · exact ⟨_, at_class⟩
    obtain ⟨site, at_site⟩ := present
    obtain ⟨d, at_position, -⟩ := Option.map_eq_some_iff.1 at_site
    have arrives : m.Arrives id name position d d.site.place? := ⟨at_position, .inl rfl⟩
    have goes := nextDefinition_eq_handover reachable uncopied at_position arrives.records
    rw [follows position d d.site.place? arrives] at goes
    exact handover_eq_iff.1 goes.symm misses
  · intro hits position d recorded arrives
    rw [nextDefinition_eq_handover reachable uncopied arrives.1 arrives.records]
    exact handover_eq_iff.2 (hits position)

/-- A super call follows the order of resolution unless it misses its target at one of two places:
after a method of the object's own, and after the last class-level method. -/
theorem super_follows_resolution (reachable : m.Reachable) (uncopied : m.Uncopied id name) :
    (m.definitions id name).head?.map (fun d => d.target.2) = m.resolve id name ∧
    (m.FollowsOrder id name ↔ ∀ position, ¬ m.Misses id name position) ∧
    ∀ position d recorded, m.Arrives id name position d recorded →
      Run.nextDefinition m id d.method recorded = m.handover id name position ∧
      ∀ frame env, (m.frames.methodFrame? env).bind m.frames.get? = some frame →
        frame.method = some d.method → frame.ancestorIndex = recorded →
          ∀ run args block, Run.callSuper run env (.object id) args block m =
            match m.handover id name position with
            | some (place, method) =>
              Run.invokeAt run env method (.object id) args
                (block.or (m.frames.currentBlock? env)) place m
            | none => Run.fail env (.noSuperMethod name (m.describeReceiver (.object id))) m := by
  refine ⟨definitions_head, followsOrder_iff reachable uncopied, ?_⟩
  intro position d recorded arrives
  have goes := nextDefinition_eq_handover reachable uncopied arrives.1 arrives.records
  refine ⟨goes, ?_⟩
  intro frame env at_frame running place run args block
  rw [callSuper_eq run at_frame running, place, goes,
    name_of_mem reachable.owned reachable.tagged.named (List.mem_of_getElem? arrives.1)]

theorem uncopied_of_all
    (all : ((List.range (m.hierarchy.ancestors (m.classOf (.object id))).length).all fun place =>
      (m.hierarchy.entryAt (m.classOf (.object id)) name place).all fun method =>
        (m.hierarchy.ancestors (m.classOf (.object id)))[place]? == some method.owner) = true) :
    m.Uncopied id name := by
  intro place method entry
  have at_place := List.all_eq_true.1 all place (List.mem_range.2 (Hierarchy.entryAt_lt entry))
  rw [entry] at at_place
  exact eq_of_beq at_place

/-- `Object` gets a method and a `new` at class level, and the main object a method of its own over
the first; both overriding methods call super. -/
def overriding : Expr :=
  .seq (.defineMethod (.constant "Object") "f" (.exactly 0) .none (.literal (.int 1)) .isPublic)
    (.seq (.defineSingleton (.prim .mainObject .nil) "f" (.exactly 0) .none (.callSuper .nil .none))
      (.seq (.defineSingleton (.constant "Object") "new" (.exactly 0) .none (.callSuper .nil .none))
        (.send .anyMethod (.prim .mainObject .nil) "f" .nil .none)))

def overridden : Machine :=
  ((Machine.boot { Settings.standard with callDepthLimit := some 2 }).runProgram overriding).2

theorem overridden_reachable : overridden.Reachable :=
  Reachable.runProgram ⟨_, .refl⟩ overriding

theorem overridden_uncopied : overridden.Uncopied .main "f" := uncopied_of_all (by decide +kernel)

theorem super_follows_resolution_overridden :
    overridden.Reachable ∧ overridden.Uncopied .main "f" ∧
    (overridden.FollowsOrder .main "f" ↔ ∀ position, ¬ overridden.Misses .main "f" position) :=
  ⟨overridden_reachable, overridden_uncopied,
    (super_follows_resolution overridden_reachable overridden_uncopied).2.1⟩

/-- After that program the super calls find nothing, although the object's class has the method, and
although classes have a `new`. -/
theorem super_misses_definition :
    overridden.Reachable ∧ overridden.Uncopied .main "f" ∧ overridden.Misses .main "f" 0 ∧
    ¬ overridden.FollowsOrder .main "f" ∧
    overridden.Uncopied Core.object.objectId "new" ∧
    overridden.Misses Core.object.objectId "new" 0 ∧
    ¬ overridden.FollowsOrder Core.object.objectId "new" := by
  have misses_own : overridden.Misses .main "f" 0 :=
    .inl ⟨by decide +kernel, by decide +kernel, .inl (by decide +kernel)⟩
  have misses_class : overridden.Misses Core.object.objectId "new" 0 :=
    .inr ⟨⟨Core.object.id, 0, by decide +kernel, by decide +kernel⟩, by decide +kernel⟩
  have uncopied : overridden.Uncopied Core.object.objectId "new" :=
    uncopied_of_all (by decide +kernel)
  refine ⟨overridden_reachable, overridden_uncopied, misses_own, ?_, uncopied, misses_class, ?_⟩
  · intro follows
    exact (followsOrder_iff overridden_reachable overridden_uncopied).1 follows 0 misses_own
  · intro follows
    exact (followsOrder_iff overridden_reachable uncopied).1 follows 0 misses_class

end Machine

end ObjectRuntime
