import ObjectRuntime.Proofs.Hierarchy.Growth
import ObjectRuntime.Proofs.Machine.Formed

/-!
# Payloads and classes agree

Integers, floats, symbols, strings, exceptions, nil, true and false have a payload of their own
kind, and a class for each kind. In a formed machine an object has the payload of a kind exactly if
its class is that class or below it: whatever makes an object settles both, and later only the data
of an exception changes.

A class or module object has a class below `Module`. The reverse holds but for the plain objects
that an allocation makes of such a class.
-/

set_option autoImplicit false

namespace ObjectRuntime

/-! ### Families -/

def Payload.family? : Payload → Option Core
  | .nil => some .nilClass
  | .true => some .trueClass
  | .false => some .falseClass
  | .int _ => some .integer
  | .float _ => some .float
  | .symbol _ => some .symbol
  | .text _ => some .string
  | .exception _ => some .exception
  | .module _ => some .moduleClass
  | .plain | .proc _ => none

/-- The one of these classes, or of `Module`, that the core class is or is below. -/
def Core.family? : Core → Option Core
  | nilClass => some nilClass
  | trueClass => some trueClass
  | falseClass => some falseClass
  | integer => some integer
  | float => some float
  | symbol => some symbol
  | string => some string
  | exception | standardError | nameError | argumentError | rangeError | runtimeError | scriptError
  | systemStackError | noMethodError | typeError | uncaughtThrowError | floatDomainError
  | zeroDivisionError | frozenError | localJumpError => some exception
  | moduleClass | classClass => some moduleClass
  | basicObject | object | kernel | comparable | numeric | array | hash | regexp | random | rational
  | binding | proc => none

theorem Core.mem_superclasses_iff (c : Core) : ∀ F ∈ moduleClass :: families,
    F.id ∈ Machine.bareHierarchy.superclasses c.id ↔ c.family? = some F := by
  cases c <;> decide +kernel

theorem Core.kind_of_mem : ∀ F ∈ moduleClass :: families, F.kind = .classKind := by decide

theorem Payload.Becomes.family? {p p' : Payload} (becomes : p.Becomes p') :
    p'.family? = p.family? := by
  obtain rfl | ⟨data, data', rfl, rfl⟩ := becomes
  · rfl
  · rfl

theorem Payload.Becomes.plain {p p' : Payload} (becomes : p.Becomes p') (is_plain : p = .plain) :
    p' = .plain := by
  obtain rfl | ⟨data, data', rfl, -⟩ := becomes
  · exact is_plain
  · cases is_plain

/-- The payload is of the kind that goes with the class. Only below `Module` it may be plain
instead. -/
structure Hierarchy.Fits (h : Hierarchy) (cls : ModuleId) (payload : Payload) : Prop where
  family : ∀ F ∈ Core.families, F.id ∈ h.superclasses cls ↔ payload.family? = some F
  module : payload.family? = some .moduleClass → Core.moduleClass.id ∈ h.superclasses cls
  standing : Core.moduleClass.id ∈ h.superclasses cls →
    payload.family? = some .moduleClass ∨ payload = .plain

theorem Hierarchy.Fits.of_above_iff {h : Hierarchy} {cls : ModuleId} {payload : Payload}
    (above_iff : ∀ F ∈ Core.moduleClass :: Core.families,
      F.id ∈ h.superclasses cls ↔ payload.family? = some F) : h.Fits cls payload where
  family F mem := above_iff F (List.mem_cons_of_mem _ mem)
  module := (above_iff .moduleClass List.mem_cons_self).2
  standing above := .inl ((above_iff .moduleClass List.mem_cons_self).1 above)

theorem Hierarchy.Rooted.fits_core {h : Hierarchy} (rooted : h.Rooted) (c : Core)
    {payload : Payload} (same : payload.family? = c.family?) : h.Fits c.id payload := by
  refine .of_above_iff ?_
  intro F mem
  rw [rooted.core_superclasses, c.mem_superclasses_iff F mem, same]

theorem Core.family?_of_mem : ∀ F ∈ moduleClass :: families, F.family? = some F := by decide

/-- No class is below two families, or below a family and `Module`. -/
theorem Hierarchy.Rooted.fits_below {h : Hierarchy} (rooted : h.Rooted) {cls : ModuleId}
    {payload : Payload} {F : Core} (mem : F ∈ Core.moduleClass :: Core.families)
    (above : F.id ∈ h.superclasses cls) (family : payload.family? = some F) :
    h.Fits cls payload := by
  refine .of_above_iff ?_
  intro G also
  rw [family]
  refine ⟨?_, ?_⟩
  · intro also_above
    obtain higher | higher := chain_linear also_above above
    · have higher : F.id ∈ h.superclasses G.id := higher
      rw [rooted.core_superclasses, G.mem_superclasses_iff F mem,
        Core.family?_of_mem G also] at higher
      exact higher.symm
    · have higher : G.id ∈ h.superclasses F.id := higher
      rw [rooted.core_superclasses, F.mem_superclasses_iff G also,
        Core.family?_of_mem F mem] at higher
      exact higher
  · intro same
    obtain rfl := Option.some.inj same
    exact above

theorem Fault.cls_core {fault : Fault} (ordinary : fault.isOrdinary = true) :
    ∃ c : Core, fault.cls = c.id ∧ c.family? = some .exception := by
  cases fault with
  | raised cls message => cases ordinary
  | _ => exact ⟨_, rfl, rfl⟩

/-! ### What is made fits its class -/

variable {free : Bool} {m m' : Machine} {cls : ModuleId} {payload : Payload}

/-- The families that dispatch and allocation look for among the ancestors are superclasses. -/
theorem Hierarchy.Rooted.inherits_iff {h : Hierarchy} (rooted : h.Rooted) (shaped : h.Shaped)
    {F : Core} (mem : F ∈ Core.moduleClass :: Core.families) :
    h.inherits cls F.id = true ↔ F.id ∈ h.superclasses cls :=
  shaped.inherits_iff rooted.present (rooted.core_isClass (Core.kind_of_mem F mem))

theorem Hierarchy.Rooted.fits_plain {h : Hierarchy} (rooted : h.Rooted) (shaped : h.Shaped)
    (outside : ∀ F ∈ Core.families, h.inherits cls F.id ≠ true) : h.Fits cls .plain := by
  refine ⟨?_, nofun, fun _ => .inr rfl⟩
  intro F mem
  rw [← rooted.inherits_iff shaped (List.mem_cons_of_mem _ mem)]
  exact iff_of_false (outside F mem) nofun

theorem Hierarchy.Rooted.fits_exception {h : Hierarchy} (rooted : h.Rooted) (shaped : h.Shaped)
    (below : h.inherits cls Core.exception.id = true) (data : ExceptionData) :
    h.Fits cls (.exception data) :=
  rooted.fits_below (by decide) ((rooted.inherits_iff shaped (by decide)).1 below) rfl

/-- An allocation looks for the families among the ancestors, and takes the one there is. It does
not look for `Module`. -/
theorem Machine.allocation_fits (shaped : m.hierarchy.Shaped) (rooted : m.hierarchy.Rooted)
    (allows : Run.withoutAllocator.any (fun special => m.hierarchy.inherits cls special.id) =
      false) : m.hierarchy.Fits cls (m.allocation cls) := by
  unfold allocation
  split
  next exceptional => exact rooted.fits_exception shaped exceptional _
  next no_exception =>
    split
    next textual =>
      exact rooted.fits_below (by decide) ((rooted.inherits_iff shaped (by decide)).1 textual) rfl
    next no_text =>
      refine rooted.fits_plain shaped ?_
      intro F mem
      obtain special | chosen := List.mem_append.1 mem
      · exact List.any_eq_false.1 allows F special
      · obtain rfl | rfl : F = .string ∨ F = .exception := by simpa using chosen
        · exact no_text
        · exact no_exception

theorem Machine.Makes.fits (makes : m.Makes false cls payload) (shaped : m.hierarchy.Shaped)
    (rooted : m.hierarchy.Rooted) : m.hierarchy.Fits cls payload := by
  cases makes with
  | int value => exact rooted.fits_core .integer rfl
  | float value => exact rooted.fits_core .float rfl
  | text content => exact rooted.fits_core .string rfl
  | fault fault ordinary =>
    obtain ⟨c, at_core, family⟩ := Fault.cls_core (ordinary.resolve_left Bool.false_ne_true)
    rw [at_core]
    exact rooted.fits_core c family.symm
  | proc block coded => exact rooted.fits_core .proc rfl
  | tag => exact rooted.fits_core .object rfl
  | allocated cls present allows => exact allocation_fits shaped rooted allows
  | plain cls present fits =>
    refine rooted.fits_plain shaped ?_
    have outside := fits.resolve_left Bool.false_ne_true
    rw [Bool.not_eq_true'] at outside
    exact List.any_eq_false.1 outside
  | exception cls message present fits =>
    exact rooted.fits_exception shaped (fits.resolve_left Bool.false_ne_true) _

theorem Machine.Makes.present (makes : m.Makes false cls payload) (rooted : m.hierarchy.Rooted) :
    cls.index < m.hierarchy.size := by
  cases makes with
  | int => exact rooted.core_present .integer
  | float => exact rooted.core_present .float
  | text => exact rooted.core_present .string
  | fault fault ordinary =>
    obtain ⟨c, at_core, -⟩ := Fault.cls_core (ordinary.resolve_left Bool.false_ne_true)
    rw [at_core]
    exact rooted.core_present c
  | proc => exact rooted.core_present .proc
  | tag => exact rooted.core_present .object
  | allocated cls present | plain cls present | exception cls message present => exact present

theorem ModuleKind.metaclass_family (kind : ModuleKind) :
    kind.metaclass.family? = some .moduleClass := by
  cases kind <;> rfl

theorem Machine.Brings.fits (brings : m.Brings false cls payload) (shaped : m.hierarchy.Shaped)
    (rooted : m.hierarchy.Rooted) :
    cls.index < m.hierarchy.size ∧ m.hierarchy.Fits cls payload := by
  cases brings with
  | made makes => exact ⟨makes.present rooted, makes.fits shaped rooted⟩
  | symbol name => exact ⟨rooted.core_present .symbol, rooted.fits_core .symbol rfl⟩
  | module kind =>
    exact ⟨rooted.core_present _, rooted.fits_core _ kind.metaclass_family.symm⟩

/-! ### The invariant -/

structure Machine.Kinds (m : Machine) : Prop where
  present : ∀ id o, m.heap.get? id = some o → o.cls.index < m.hierarchy.size
  fits : ∀ id o, m.heap.get? id = some o → m.hierarchy.Fits o.cls o.payload

theorem Deed.grows (deed : Deed free m m') : m.hierarchy.Grows m'.hierarchy :=
  (Deeds.steps (.single deed)).grows

theorem Hierarchy.Fits.grows {h h' : Hierarchy} (fits : h.Fits cls payload) (grows : h.Grows h')
    (present : cls.index < h.size) : h'.Fits cls payload := by
  have above_eq := grows.superclasses present
  refine ⟨?_, ?_, ?_⟩
  · rw [above_eq]
    exact fits.family
  · rw [above_eq]
    exact fits.module
  · rw [above_eq]
    exact fits.standing

theorem Hierarchy.Fits.becomes {h : Hierarchy} {payload' : Payload} (fits : h.Fits cls payload)
    (becomes : payload.Becomes payload') : h.Fits cls payload' := by
  refine ⟨?_, ?_, ?_⟩
  · rw [becomes.family?]
    exact fits.family
  · rw [becomes.family?]
    exact fits.module
  · rw [becomes.family?]
    exact fun above => (fits.standing above).imp_right becomes.plain

theorem Deed.kinds (deed : Deed false m m') (shaped : m.hierarchy.Shaped)
    (rooted : m.hierarchy.Rooted) (kinds : m.Kinds) : m'.Kinds := by
  have grows := deed.grows
  have both : ∀ id o, m'.heap.get? id = some o →
      o.cls.index < m.hierarchy.size ∧ m.hierarchy.Fits o.cls o.payload := by
    intro id o' at_id
    obtain ⟨o, before, cls, becomes⟩ | brings := deed.object_origin at_id
    · rw [cls]
      exact ⟨kinds.present id o before, (kinds.fits id o before).becomes becomes⟩
    · exact brings.fits shaped rooted
  refine ⟨?_, ?_⟩
  · intro id o at_id
    exact Nat.lt_of_lt_of_le (both id o at_id).1 grows.size
  · intro id o at_id
    obtain ⟨present, fits⟩ := both id o at_id
    exact fits.grows grows present

namespace Machine

theorem mem_startObjects {settings : Settings} {id : ObjectId} {o : Object}
    (at_id : (boot settings).heap.get? id = some o) : o ∈ startObjects := by
  change startObjects.toArray[id.index]? = some o at at_id
  rw [List.getElem?_toArray] at at_id
  exact List.mem_of_getElem? at_id

theorem startObjects_core : ∀ o ∈ startObjects, ∃ c : Core, o.cls = c.id ∧
    o.payload.family? = c.family? := by
  intro o mem
  obtain is_class | other := List.mem_append.1 mem
  · obtain ⟨c, -, rfl⟩ := List.mem_map.1 is_class
    refine ⟨c.metaclass, rfl, ?_⟩
    cases c <;> rfl
  · simp only [List.mem_cons, List.not_mem_nil, or_false] at other
    obtain rfl | rfl | rfl | rfl := other
    · exact ⟨.object, rfl, rfl⟩
    · exact ⟨.nilClass, rfl, rfl⟩
    · exact ⟨.trueClass, rfl, rfl⟩
    · exact ⟨.falseClass, rfl, rfl⟩

theorem kinds_boot (settings : Settings) : (boot settings).Kinds := by
  refine ⟨?_, ?_⟩
  · intro id o at_id
    obtain ⟨c, at_core, -⟩ := startObjects_core o (mem_startObjects at_id)
    rw [at_core]
    exact rooted_start.core_present c
  · intro id o at_id
    obtain ⟨c, at_core, family⟩ := startObjects_core o (mem_startObjects at_id)
    rw [at_core]
    exact rooted_start.fits_core c family

theorem Formed.kinds (formed : m.Formed) : m.Kinds := by
  refine formed.induction Kinds kinds_boot ?_
  intro m m' formed kinds deed
  exact deed.kinds formed.reachable.shaped formed.reachable.rooted kinds

theorem Formed.family_iff (formed : m.Formed) {id : ObjectId} {o : Object}
    (at_id : m.heap.get? id = some o) {F : Core} (mem : F ∈ Core.families) :
    F.id ∈ m.hierarchy.ancestors o.cls ↔ o.payload.family? = some F := by
  have rooted := formed.reachable.rooted
  rw [formed.reachable.shaped.mem_ancestors_iff rooted.present
    (rooted.core_isClass (Core.kind_of_mem F (List.mem_cons_of_mem _ mem)))]
  exact (formed.kinds.fits id o at_id).family F mem

end Machine

end ObjectRuntime
