import ObjectRuntime.Frame.Transcript
import ObjectRuntime.Proofs.Frame.Targets

/-!
# Where look-up finds a name

Frames form trees: a frame is enclosed by one that was there when it was made, or by none. Look-up
of a name goes outward from frame to frame and stops at the first binding, or at the first frame
without one whose way out is closed for the name. What lies beyond a closed frame is never looked
at, so it may be bound in any way.
-/

set_option autoImplicit false

namespace ObjectRuntime

def IsSeenInside (name : String) : Prop :=
  name = "nil" ∨ name = "true" ∨ name = "false" ∨
    ∃ c rest, name.toList = c :: rest ∧ Text.isCapital c = true

theorem isLexicallyVisible_iff {name : String} :
    isLexicallyVisible name = true ↔ IsSeenInside name := by
  rw [isLexicallyVisible, IsSeenInside]
  cases h : name.toList with
  | nil => simp [or_assoc]
  | cons c rest => simp [or_assoc]

instance (name : String) : Decidable (IsSeenInside name) :=
  decidable_of_iff _ isLexicallyVisible_iff

namespace FrameKind

theorem isTransparent_iff {kind : FrameKind} :
    kind.isTransparent = true ↔ kind = .block ∨ kind = .closureMethod := by
  cases kind <;> simp [isTransparent]

end FrameKind

namespace Frames

def Nested (fs : Frames) : Prop := ∀ id o : FrameId, fs.outer? id = some o → o.index < id.index

def Passes (fs : Frames) (name : String) (id : FrameId) : Prop :=
  (fs.kindOf id = .block ∨ fs.kindOf id = .closureMethod) ∨ IsSeenInside name

/-- From the first frame, the links to enclosing frames lead through those in the list to the last
one. -/
inductive Outward (fs : Frames) : FrameId → List FrameId → FrameId → Prop where
  | here (id : FrameId) : Outward fs id [] id
  | out {id o d : FrameId} {before : List FrameId} (link : fs.outer? id = some o)
      (rest : Outward fs o before d) : Outward fs id (id :: before) d

/-- The search for the name from the first frame comes to the second one: the frames before it do
not bind the name, and let the search pass. -/
def Reaches (fs : Frames) (name : String) (id d : FrameId) : Prop :=
  ∃ before, fs.Outward id before d ∧
    ∀ f ∈ before, fs.lookupLocal f name = none ∧ fs.Passes name f

variable {fs fs' : Frames} {name : String} {id o d : FrameId}

theorem passes_iff : fs.Passes name id ↔
    (isLexicallyVisible name || (fs.kindOf id).isTransparent) = true := by
  rw [Bool.or_eq_true, isLexicallyVisible_iff, FrameKind.isTransparent_iff, or_comm]
  rfl

instance (fs : Frames) (name : String) (id : FrameId) : Decidable (fs.Passes name id) :=
  decidable_of_iff _ passes_iff.symm

/-! ### One step outward -/

theorem scopes_eq (nested : fs.Nested) (id : FrameId) :
    fs.scopes id = id :: match fs.outer? id with
      | some o => fs.scopes o
      | none => [] := by
  have lower : lower? FrameId.index fs.outer? id = fs.outer? id := by
    cases link : fs.outer? id with
    | none => simp [lower?, link]
    | some o => simp [lower?, link, nested id o link]
  rw [scopes, chain_eq, lower]
  cases fs.outer? id <;> rfl

theorem definingFrame?_eq (nested : fs.Nested) (id : FrameId) (name : String) :
    fs.definingFrame? id name =
      if (fs.lookupLocal id name).isSome then some id
      else if isLexicallyVisible name || (fs.kindOf id).isTransparent then
        (fs.outer? id).bind fun o => fs.definingFrame? o name
      else none := by
  rw [definingFrame?, scopes_eq nested]
  by_cases bound : (fs.lookupLocal id name).isSome = true
  · by_cases passes : (isLexicallyVisible name || (fs.kindOf id).isTransparent) = true
    · simp [searched, passes, bound]
    · simp [searched, passes, bound]
  · by_cases passes : (isLexicallyVisible name || (fs.kindOf id).isTransparent) = true
    · cases link : fs.outer? id with
      | none => simp [searched, passes, bound]
      | some o => simp [searched, passes, bound, definingFrame?]
    · simp [searched, passes, bound]

theorem lookup_eq (nested : fs.Nested) (id : FrameId) (name : String) :
    fs.lookup id name =
      match fs.lookupLocal id name with
      | some v => some v
      | none =>
        if isLexicallyVisible name || (fs.kindOf id).isTransparent then
          (fs.outer? id).bind fun o => fs.lookup o name
        else none := by
  rw [lookup, definingFrame?_eq nested]
  cases bound : fs.lookupLocal id name with
  | some v => simp [bound]
  | none =>
    by_cases passes : (isLexicallyVisible name || (fs.kindOf id).isTransparent) = true
    · cases link : fs.outer? id <;> simp [passes, lookup]
    · simp [passes]

theorem lookup_of_bound (nested : fs.Nested) {v : Value}
    (bound : fs.lookupLocal id name = some v) : fs.lookup id name = some v := by
  rw [lookup_eq nested, bound]

theorem lookup_of_link (nested : fs.Nested) (unbound : fs.lookupLocal id name = none)
    (passes : fs.Passes name id) (link : fs.outer? id = some o) :
    fs.lookup id name = fs.lookup o name := by
  rw [lookup_eq nested, unbound]
  simp [passes_iff.1 passes, link]

theorem lookup_of_closed (nested : fs.Nested) (closed : ¬ fs.Passes name id) :
    fs.lookup id name = fs.lookupLocal id name := by
  rw [lookup_eq nested]
  rw [passes_iff] at closed
  cases fs.lookupLocal id name <;> simp [closed]

/-- An induction outward: what holds of a frame may be shown from what holds of the frame around
it. -/
theorem Nested.induction (nested : fs.Nested) {motive : FrameId → Prop}
    (step : ∀ id, (∀ o, fs.outer? id = some o → motive o) → motive id) (id : FrameId) :
    motive id := by
  induction index : id.index using Nat.strongRecOn generalizing id with
  | ind n ih =>
    apply step
    intro o link
    exact ih o.index (index ▸ nested id o link) o rfl

/-! ### The search -/

theorem Reaches.here : fs.Reaches name id id :=
  ⟨[], .here id, fun _ mem => absurd mem List.not_mem_nil⟩

theorem reaches_iff : fs.Reaches name id d ↔
    d = id ∨ (fs.lookupLocal id name = none ∧ fs.Passes name id) ∧
      ∃ o, fs.outer? id = some o ∧ fs.Reaches name o d := by
  constructor
  · rintro ⟨before, outward, searched⟩
    cases outward with
    | here => exact .inl rfl
    | @out _ o _ before link rest =>
      rw [List.forall_mem_cons] at searched
      exact .inr ⟨searched.1, o, link, before, rest, searched.2⟩
  · rintro (rfl | ⟨here, o, link, before, rest, searched⟩)
    · exact .here
    · exact ⟨id :: before, .out link rest, List.forall_mem_cons.2 ⟨here, searched⟩⟩

theorem definingFrame?_eq_some (nested : fs.Nested) :
    fs.definingFrame? id name = some d ↔
      fs.Reaches name id d ∧ (fs.lookupLocal d name).isSome = true := by
  induction id using nested.induction with
  | step id ih =>
    rw [definingFrame?_eq nested, reaches_iff]
    cases bound : fs.lookupLocal id name with
    | some v =>
      constructor
      · intro same
        obtain rfl : id = d := by simpa using same
        simp [bound]
      · rintro ⟨rfl | ⟨⟨unbound, -⟩, -⟩, -⟩
        · simp
        · simp at unbound
    | none =>
      by_cases passes : fs.Passes name id
      · rw [if_neg (by simp), if_pos (passes_iff.1 passes)]
        cases link : fs.outer? id with
        | none =>
          simp only [Option.bind_none, reduceCtorEq, false_and, exists_false, and_false, or_false,
            false_iff, not_and]
          rintro rfl
          simp [bound]
        | some o =>
          rw [Option.bind_some, ih o link]
          constructor
          · rintro ⟨reaches, ends⟩
            exact ⟨.inr ⟨⟨rfl, passes⟩, o, rfl, reaches⟩, ends⟩
          · rintro ⟨rfl | ⟨-, _, ⟨⟩, reaches⟩, ends⟩
            · simp [bound] at ends
            · exact ⟨reaches, ends⟩
      · rw [if_neg (by simp), if_neg (mt passes_iff.2 passes)]
        constructor
        · simp
        · rintro ⟨rfl | ⟨⟨-, open_⟩, -⟩, ends⟩
          · simp [bound] at ends
          · exact absurd open_ passes

theorem lookup_eq_some (nested : fs.Nested) {v : Value} :
    fs.lookup id name = some v ↔
      ∃ d, fs.Reaches name id d ∧ fs.lookupLocal d name = some v := by
  rw [lookup, Option.bind_eq_some_iff]
  apply exists_congr
  intro d
  rw [definingFrame?_eq_some nested]
  constructor
  · rintro ⟨⟨reaches, -⟩, bound⟩
    exact ⟨reaches, bound⟩
  · rintro ⟨reaches, bound⟩
    exact ⟨⟨reaches, by simp [bound]⟩, bound⟩

theorem lookup_eq_none (nested : fs.Nested) :
    fs.lookup id name = none ↔ ∀ before d, fs.Outward id before d →
      (∀ f ∈ before, fs.Passes name f) → fs.lookupLocal d name = none := by
  constructor
  · intro nothing before d outward passes
    induction outward with
    | here id =>
      cases bound : fs.lookupLocal id name with
      | none => rfl
      | some v => simp [lookup_of_bound nested bound] at nothing
    | @out id o d before link rest ih =>
      rw [List.forall_mem_cons] at passes
      refine ih ?_ passes.2
      cases bound : fs.lookupLocal id name with
      | none => rwa [lookup_of_link nested bound passes.1 link] at nothing
      | some v => simp [lookup_of_bound nested bound] at nothing
  · intro unbound
    cases found : fs.lookup id name with
    | none => rfl
    | some v =>
      obtain ⟨d, ⟨before, outward, searched⟩, bound⟩ := (lookup_eq_some nested).1 found
      have nothing := unbound before d outward fun f mem => (searched f mem).2
      simp [bound] at nothing

structure AgreeOn (fs fs' : Frames) (name : String) (frames : List FrameId) : Prop where
  kinds : ∀ f ∈ frames, fs'.kindOf f = fs.kindOf f
  links : ∀ f ∈ frames, fs'.outer? f = fs.outer? f
  bindings : ∀ f ∈ frames, fs'.lookupLocal f name = fs.lookupLocal f name

theorem lookup_eq_of_agreeOn (nested : fs.Nested) (nested' : fs'.Nested) {before : List FrameId}
    {stop : FrameId} (outward : fs.Outward id before stop)
    (passes : ∀ f ∈ before, fs.Passes name f) (closed : ¬ fs.Passes name stop)
    (agree : fs.AgreeOn fs' name (before ++ [stop])) : fs'.lookup id name = fs.lookup id name := by
  have passes_same : ∀ f ∈ before ++ [stop], (fs'.Passes name f ↔ fs.Passes name f) := by
    intro f mem
    rw [Passes, Passes, agree.kinds f mem]
  induction outward with
  | here id =>
    have mem : id ∈ [] ++ [id] := List.mem_singleton_self id
    rw [lookup_of_closed nested closed,
      lookup_of_closed nested' fun open_ => closed ((passes_same id mem).1 open_)]
    exact agree.bindings id mem
  | @out id o stop before link rest ih =>
    have mem : id ∈ id :: before ++ [stop] := List.mem_cons_self
    have inner : ∀ f ∈ before ++ [stop], f ∈ id :: before ++ [stop] :=
      fun f mem => List.mem_cons_of_mem id mem
    have passes_id := passes id List.mem_cons_self
    have further := ih (fun f mem => passes f (List.mem_cons_of_mem id mem)) closed
      ⟨fun f mem => agree.kinds f (inner f mem), fun f mem => agree.links f (inner f mem),
        fun f mem => agree.bindings f (inner f mem)⟩
      fun f mem => passes_same f (inner f mem)
    have same := agree.bindings id mem
    cases bound : fs.lookupLocal id name with
    | some v =>
      rw [bound] at same
      rw [lookup_of_bound nested bound, lookup_of_bound nested' same]
    | none =>
      rw [bound] at same
      rw [lookup_of_link nested bound passes_id link,
        lookup_of_link nested' same ((passes_same id mem).2 passes_id)
          ((agree.links id mem).trans link), further]

/-! ### Frames that are driven -/

theorem nested_empty : empty.Nested := by
  intro id o link
  simp [outer?, get?, empty] at link

theorem Nested.push (nested : fs.Nested) {f : Frame}
    (older : ∀ o, f.outer = some o → o.index < fs.size) : (fs.push f).Nested := by
  intro id o link
  rw [outer?, get?_push] at link
  split at link
  next same =>
    subst same
    exact older o link
  next => exact nested id o link

theorem Nested.modify (nested : fs.Nested) (id : FrameId) {f : Frame → Frame}
    (keeps : ∀ frame : Frame, (f frame).outer = frame.outer) : (fs.modify id f).Nested := by
  intro other o link
  rw [outer?, bind_get?_modify fs id other f (·.outer) keeps] at link
  exact nested other o link

end Frames

namespace FrameHolding

structure Sound (h : FrameHolding) : Prop where
  nested : h.frames.Nested
  present : ∀ handle id, h.handles.get? handle = some id → id.index < h.frames.size

variable {h h' : FrameHolding} {handle : String} {answer : FrameAnswer}

theorem sound_empty : empty.Sound := by
  refine ⟨Frames.nested_empty, ?_⟩
  intro handle id named
  simp [empty] at named

theorem Sound.create (sound : h.Sound) (handle : String) {f : Frame}
    (older : ∀ o, f.outer = some o → o.index < h.frames.size) : (h.create handle f).Sound := by
  refine ⟨sound.nested.push older, ?_⟩
  intro other id named
  change id.index < (h.frames.push f).size
  change (h.handles.insert handle h.frames.next).get? other = some id at named
  rw [Frames.size_push]
  rw [Bindings.get?_insert] at named
  split at named
  next =>
    obtain rfl : h.frames.next = id := by simpa using named
    exact Nat.lt_succ_self _
  next =>
    have before := sound.present other id named
    omega

theorem Sound.modify {f : Frame → Frame} (sound : h.Sound)
    (done : h.modify handle f = some (answer, h'))
    (keeps : ∀ frame : Frame, (f frame).outer = frame.outer) : h'.Sound := by
  obtain ⟨id, -, rest⟩ := Option.bind_eq_some_iff.mp done
  cases rest
  refine ⟨sound.nested.modify id keeps, ?_⟩
  simpa using sound.present

theorem Sound.change {f : Frames → FrameId → Frames} (sound : h.Sound)
    (done : h.change handle f = some (answer, h')) (nested : ∀ id, (f h.frames id).Nested)
    (size : ∀ id, (f h.frames id).size = h.frames.size) : h'.Sound := by
  obtain ⟨id, -, rest⟩ := Option.bind_eq_some_iff.mp done
  cases rest
  refine ⟨nested id, ?_⟩
  simpa [size] using sound.present

theorem Sound.tell {f : Frames → FrameId → FrameAnswer} (sound : h.Sound)
    (done : h.tell handle f = some (answer, h')) : h'.Sound := by
  obtain ⟨id, -, rest⟩ := Option.bind_eq_some_iff.mp done
  cases rest
  exact sound

theorem Sound.perform {step : FrameStep} (sound : h.Sound)
    (done : h.perform step = some (answer, h')) : h'.Sound := by
  have nested_define (id : FrameId) (name : String) (v : Value) :
      (h.frames.define id name v).Nested := sound.nested.modify id fun _ => rfl
  have size_define (id : FrameId) (name : String) (v : Value) :
      (h.frames.define id name v).size = h.frames.size := Frames.size_modify ..
  cases step with
  | create handle kind =>
    cases done
    exact sound.create handle nofun
  | child handle outer kind =>
    obtain ⟨id, named, rest⟩ := Option.bind_eq_some_iff.mp done
    cases rest
    apply sound.create
    rintro o ⟨⟩
    exact sound.present outer id named
  | release handle =>
    cases done
    refine ⟨sound.nested, ?_⟩
    intro other id named
    rw [Bindings.get?_erase] at named
    split at named
    next => cases named
    next => exact sound.present other id named
  | define handle name value =>
    rw [FrameHolding.perform] at done
    exact sound.change done (fun id => nested_define id name _) fun id => size_define id name _
  | assign handle name value =>
    rw [FrameHolding.perform] at done
    exact sound.change done (fun _ => nested_define _ name _) fun _ => size_define _ name _
  | setCaller handle caller =>
    obtain ⟨id, -, rest⟩ := Option.bind_eq_some_iff.mp done
    exact sound.modify rest fun _ => rfl
  | setLine handle line =>
    rw [FrameHolding.perform] at done
    refine sound.change done (fun id => ?_) fun id => ?_
    · unfold Frames.setLine
      split
      next => exact sound.nested.modify id fun _ => rfl
      next => exact sound.nested
    · unfold Frames.setLine
      split
      next => exact Frames.size_modify ..
      next => rfl
  | clearCaller | setPosition | setReceiver | setException =>
    rw [FrameHolding.perform] at done
    exact sound.modify done fun _ => rfl
  | lookup | lookupLocal | localNames | kind | outer | caller | position | methodFrame | receiver
    | exception =>
    rw [FrameHolding.perform] at done
    exact sound.tell done

def after (h : FrameHolding) (steps : List FrameStep) : Option FrameHolding :=
  steps.foldlM (fun h step => (h.perform step).map (·.2)) h

theorem Sound.after {steps : List FrameStep} (sound : h.Sound) (done : h.after steps = some h') :
    h'.Sound :=
  keeps_of_steps (fun _ _ _ _ sound performed => Sound.perform sound performed) sound done

/-- A block in a method that was made from a block, in a method of the program. -/
def enclosed : FrameHolding where
  frames := ⟨#[
    { Frame.fresh .top none with bindings := ⟨[("x", .int 1), ("Limit", .int 10)]⟩ },
    { Frame.fresh .method (some ⟨0⟩) with bindings := ⟨[("y", .int 2)]⟩ },
    Frame.fresh .closureMethod (some ⟨1⟩),
    Frame.fresh .block (some ⟨2⟩)]⟩
  handles := ⟨[("program", ⟨0⟩), ("method", ⟨1⟩), ("closure", ⟨2⟩), ("block", ⟨3⟩)]⟩

theorem after_enclosed : empty.after
    [.create "program" .top, .define "program" "x" 1, .define "program" "Limit" 10,
      .child "method" "program" .method, .define "method" "y" 2,
      .child "closure" "method" .closureMethod, .child "block" "closure" .block] = some enclosed :=
  rfl

theorem enclosed_nested : enclosed.frames.Nested := (sound_empty.after after_enclosed).nested

end FrameHolding

namespace Frames

variable {fs : Frames}

/-- Look-up gives the nearest binding of the name such that all frames before it let the search
pass, and nothing if there is none. For a name that is not seen inside methods, what lies beyond the
first frame of a program, a module or a method does not matter. -/
theorem lookup_nearest_visible (nested : fs.Nested) (id : FrameId) (name : String) :
    (∀ v, fs.lookup id name = some v ↔ ∃ before d, fs.Outward id before d ∧
      (∀ f ∈ before, fs.lookupLocal f name = none) ∧
      (∀ f ∈ before, (fs.kindOf f = .block ∨ fs.kindOf f = .closureMethod) ∨ IsSeenInside name) ∧
      fs.lookupLocal d name = some v) ∧
    (fs.lookup id name = none ↔ ∀ before d, fs.Outward id before d →
      (∀ f ∈ before, (fs.kindOf f = .block ∨ fs.kindOf f = .closureMethod) ∨ IsSeenInside name) →
      fs.lookupLocal d name = none) ∧
    ∀ before stop, ¬ IsSeenInside name → fs.Outward id before stop →
      (∀ f ∈ before, fs.kindOf f = .block ∨ fs.kindOf f = .closureMethod) →
      (fs.kindOf stop = .top ∨ fs.kindOf stop = .moduleBody ∨ fs.kindOf stop = .method) →
      ∀ fs' : Frames, fs'.Nested → fs.AgreeOn fs' name (before ++ [stop]) →
        fs'.lookup id name = fs.lookup id name := by
  refine ⟨fun v => ?_, lookup_eq_none nested, ?_⟩
  · rw [lookup_eq_some nested]
    constructor
    · rintro ⟨d, ⟨before, outward, searched⟩, bound⟩
      exact ⟨before, d, outward, fun f mem => (searched f mem).1, fun f mem => (searched f mem).2,
        bound⟩
    · rintro ⟨before, d, outward, unbound, passes, bound⟩
      exact ⟨d, ⟨before, outward, fun f mem => ⟨unbound f mem, passes f mem⟩⟩, bound⟩
  · intro before stop hidden outward transparent closes fs' nested' agree
    refine lookup_eq_of_agreeOn nested nested' outward (fun f mem => .inl (transparent f mem)) ?_
      agree
    rintro (open_ | seen)
    · rcases closes with kind | kind | kind <;> simp [kind] at open_
    · exact hidden seen

/-- From the block, the variable of the method is seen, and the constant of the program. The
variable of the program is not: another value for it changes nothing. -/
theorem lookup_nearest_visible_enclosed :
    FrameHolding.enclosed.frames.Nested ∧
    FrameHolding.enclosed.frames.lookup ⟨3⟩ "y" = some (.int 2) ∧
    FrameHolding.enclosed.frames.lookup ⟨3⟩ "Limit" = some (.int 10) ∧
    (FrameHolding.enclosed.frames.define ⟨0⟩ "x" (.int 7)).lookup ⟨3⟩ "x" =
      FrameHolding.enclosed.frames.lookup ⟨3⟩ "x" := by
  have nested := FrameHolding.enclosed_nested
  have to_method : FrameHolding.enclosed.frames.Outward ⟨3⟩ [⟨3⟩, ⟨2⟩] ⟨1⟩ :=
    .out rfl (.out rfl (.here _))
  have to_program : FrameHolding.enclosed.frames.Outward ⟨3⟩ [⟨3⟩, ⟨2⟩, ⟨1⟩] ⟨0⟩ :=
    .out rfl (.out rfl (.out rfl (.here _)))
  refine ⟨nested, ?_, ?_, ?_⟩
  · apply ((lookup_nearest_visible nested ⟨3⟩ "y").1 _).2
    exact ⟨_, _, to_method, by decide, by decide, rfl⟩
  · apply ((lookup_nearest_visible nested ⟨3⟩ "Limit").1 _).2
    exact ⟨_, _, to_program, by decide, by decide, rfl⟩
  · apply (lookup_nearest_visible nested ⟨3⟩ "x").2.2 _ _ (by decide) to_method (by decide)
      (by decide)
    · exact nested.modify ⟨0⟩ fun _ => rfl
    · exact ⟨by decide, by decide, by decide⟩

end Frames

end ObjectRuntime
