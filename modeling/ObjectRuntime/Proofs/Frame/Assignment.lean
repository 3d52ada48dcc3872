import ObjectRuntime.Proofs.Frame.Lookup

/-!
# What an assignment changes

An assignment writes one binding: in the frame where look-up finds the name, or in the frame itself.
It is seen from the frames whose search for the name comes to the written frame, and from no others.
These may reach it by different ways, and they may lie inside frames that did not see the name
before.
-/

set_option autoImplicit false

namespace ObjectRuntime

namespace Frames

/-- The search for the name from the first frame ends at the second one, with a binding. -/
def ResolvesTo (fs : Frames) (name : String) (id d : FrameId) : Prop :=
  fs.Reaches name id d ∧ (fs.lookupLocal d name).isSome = true

variable {fs : Frames} {name other : String} {id d : FrameId} {v : Value}

theorem present_of_lookupLocal (bound : (fs.lookupLocal d name).isSome = true) :
    d.index < fs.size := by
  refine Nat.lt_of_not_le fun beyond => ?_
  have absent : fs.get? d = none := Array.getElem?_eq_none beyond
  simp [lookupLocal, absent] at bound

theorem lookup_eq_none_iff (nested : fs.Nested) :
    fs.lookup id name = none ↔ ∀ d, ¬ fs.ResolvesTo name id d := by
  rw [Option.eq_none_iff_forall_ne_some]
  constructor
  · rintro nothing d ⟨reaches, bound⟩
    obtain ⟨v, bound⟩ := Option.isSome_iff_exists.1 bound
    exact nothing v ((lookup_eq_some nested).2 ⟨d, reaches, bound⟩)
  · intro unresolved v found
    obtain ⟨d, reaches, bound⟩ := (lookup_eq_some nested).1 found
    exact unresolved d ⟨reaches, by simp [bound]⟩

/-! ### A definition in one frame -/

theorem outer?_define (fs : Frames) (d : FrameId) (name : String) (v : Value) (id : FrameId) :
    (fs.define d name v).outer? id = fs.outer? id :=
  bind_get?_modify fs d id _ (·.outer) fun _ => rfl

theorem kindOf_define (fs : Frames) (d : FrameId) (name : String) (v : Value) (id : FrameId) :
    (fs.define d name v).kindOf id = fs.kindOf id := by
  have same := map_get?_modify fs d id (fun f => f.define name v) (·.kind) fun _ => rfl
  rw [kindOf, kindOf, define, same]

theorem passes_define : (fs.define d other v).Passes name id ↔ fs.Passes name id := by
  rw [Passes, Passes, kindOf_define]

theorem Nested.define (nested : fs.Nested) (d : FrameId) (name : String) (v : Value) :
    (fs.define d name v).Nested := nested.modify d fun _ => rfl

theorem lookupLocal_define (present : d.index < fs.size) (id : FrameId) (other : String) :
    (fs.define d name v).lookupLocal id other =
      if id = d ∧ other = name then some v else fs.lookupLocal id other := by
  rw [lookupLocal, lookupLocal, define, get?_modify]
  by_cases same : d = id
  · subst same
    obtain ⟨f, at_d⟩ := get?_isSome present
    simp only [at_d, Option.map_some, Option.bind_some, if_pos, true_and]
    rw [Frame.define, Bindings.get?_insert]
    simp only [eq_comm]
  · simp [same, Ne.symm same]

theorem unbound_define (present : d.index < fs.size) (differs : id ≠ d) :
    (fs.define d name v).lookupLocal id name = fs.lookupLocal id name := by
  rw [lookupLocal_define present, if_neg fun same => differs same.1]

theorem bound_define (present : d.index < fs.size) :
    (fs.define d name v).lookupLocal d name = some v := by
  rw [lookupLocal_define present, if_pos ⟨rfl, rfl⟩]

theorem lookup_define_of_reaches (nested : fs.Nested) (present : d.index < fs.size)
    (reaches : fs.Reaches name id d) : (fs.define d name v).lookup id name = some v := by
  have nested' := nested.define d name v
  induction id using nested.induction with
  | step id ih =>
    by_cases same : id = d
    · subst same
      exact lookup_of_bound nested' (bound_define present)
    · rcases reaches_iff.1 reaches with here | ⟨⟨unbound, passes⟩, o, link, further⟩
      · exact absurd here.symm same
      · rw [lookup_of_link nested' ((unbound_define present same).trans unbound)
          (passes_define.2 passes) ((outer?_define ..).trans link)]
        exact ih o link further

theorem lookup_define_of_not_reaches (nested : fs.Nested) (present : d.index < fs.size)
    (apart : ¬ fs.Reaches name id d) :
    (fs.define d name v).lookup id name = fs.lookup id name := by
  have nested' := nested.define d name v
  induction id using nested.induction with
  | step id ih =>
    have differs : id ≠ d := by
      rintro rfl
      exact apart .here
    have same : (fs.define d name v).lookupLocal id name = fs.lookupLocal id name :=
      unbound_define present differs
    rw [lookup_eq nested', lookup_eq nested, same, kindOf_define, outer?_define]
    cases unbound : fs.lookupLocal id name with
    | some w => rfl
    | none =>
      by_cases passes : fs.Passes name id
      · cases link : fs.outer? id with
        | none => rfl
        | some o =>
          have further := ih o link fun reaches =>
            apart (reaches_iff.2 (.inr ⟨⟨unbound, passes⟩, o, link, reaches⟩))
          simp only [Option.bind_some, further]
      · simp only [if_neg (mt passes_iff.2 passes)]

theorem lookup_define_of_ne (nested : fs.Nested) (present : d.index < fs.size)
    (differs : other ≠ name) (id : FrameId) :
    (fs.define d name v).lookup id other = fs.lookup id other := by
  have nested' := nested.define d name v
  have same (id : FrameId) :
      (fs.define d name v).lookupLocal id other = fs.lookupLocal id other := by
    rw [lookupLocal_define present, if_neg fun both => differs both.2]
  induction id using nested.induction with
  | step id ih =>
    rw [lookup_eq nested', lookup_eq nested, same, kindOf_define, outer?_define]
    cases link : fs.outer? id with
    | none => rfl
    | some o => simp only [Option.bind_some, ih o link]

/-! ### Assignment -/

theorem assign_eq_define (nested : fs.Nested) (present : id.index < fs.size) (name : String)
    (v : Value) :
    ∃ d, (fs.ResolvesTo name id d ∨ d = id ∧ ∀ e, ¬ fs.ResolvesTo name id e) ∧
      fs.Reaches name id d ∧ d.index < fs.size ∧ fs.assign id name v = fs.define d name v := by
  cases found : fs.definingFrame? id name with
  | some d =>
    have resolves : fs.ResolvesTo name id d := (definingFrame?_eq_some nested).1 found
    refine ⟨d, .inl resolves, resolves.1, present_of_lookupLocal resolves.2, ?_⟩
    rw [assign, found]
    rfl
  | none =>
    have unresolved : ∀ e, ¬ fs.ResolvesTo name id e := by
      intro e resolves
      have found_e := (definingFrame?_eq_some nested).2 resolves
      simp [found] at found_e
    refine ⟨id, .inr ⟨rfl, unresolved⟩, .here, present, ?_⟩
    rw [assign, found]
    rfl

theorem lookup_of_reaches (nested : fs.Nested) (reaches : fs.Reaches name id d) :
    fs.lookup id name = fs.lookup d name := by
  induction id using nested.induction with
  | step id ih =>
    rcases reaches_iff.1 reaches with rfl | ⟨⟨unbound, passes⟩, o, link, further⟩
    · rfl
    · rw [lookup_of_link nested unbound passes link]
      exact ih o link further

/-- An assignment writes one binding in one frame, the one where look-up found the name, or else the
frame itself. After it, the new value is found from there, and from exactly those frames whose
search for the name comes to the written frame; these are the frames that found the name there, or
frames that found nothing before. All else is found as before. -/
theorem assignment_writes_where_found (nested : fs.Nested) {id : FrameId}
    (present : id.index < fs.size) (name : String) (v : Value) :
    ∃ d, (fs.ResolvesTo name id d ∨ d = id ∧ ∀ e, ¬ fs.ResolvesTo name id e) ∧
      (fs.assign id name v).lookup id name = some v ∧
      (∀ g n, (fs.assign id name v).lookupLocal g n =
        if g = d ∧ n = name then some v else fs.lookupLocal g n) ∧
      (∀ g, ((fs.assign id name v).get? g).map (fun f => { f with bindings := .empty }) =
        (fs.get? g).map fun f => { f with bindings := .empty }) ∧
      (∀ g, fs.ResolvesTo name g d → (fs.assign id name v).lookup g name = some v) ∧
      (∀ g n, n ≠ name → (fs.assign id name v).lookup g n = fs.lookup g n) ∧
      (∀ g, ¬ fs.Reaches name g d →
        (fs.assign id name v).lookup g name = fs.lookup g name) ∧
      ((∀ e, ¬ fs.ResolvesTo name id e) → ∀ g, fs.Reaches name g id →
        fs.lookup g name = none ∧ (fs.assign id name v).lookup g name = some v) := by
  obtain ⟨d, resolves, reaches, inside, written⟩ := assign_eq_define nested present name v
  refine ⟨d, resolves, ?_, ?_, ?_, ?_, ?_, ?_, ?_⟩
  · rw [written]
    exact lookup_define_of_reaches nested inside reaches
  · intro g n
    rw [written]
    exact lookupLocal_define inside g n
  · intro g
    rw [written]
    exact map_get?_modify fs d g _ _ fun _ => rfl
  · intro g resolves
    rw [written]
    exact lookup_define_of_reaches nested inside resolves.1
  · intro g n differs
    rw [written]
    exact lookup_define_of_ne nested inside differs g
  · intro g apart
    rw [written]
    exact lookup_define_of_not_reaches nested inside apart
  · intro unresolved g reaches_id
    obtain rfl : d = id := (resolves.resolve_left (unresolved d)).1
    refine ⟨?_, ?_⟩
    · rw [lookup_of_reaches nested reaches_id]
      exact (lookup_eq_none_iff nested).2 unresolved
    · rw [written]
      exact lookup_define_of_reaches nested inside reaches_id

/-- Two blocks of one method, and a block in the first of them. -/
def siblings : Frames := ⟨#[
  Frame.fresh .top none,
  { Frame.fresh .method (some ⟨0⟩) with bindings := ⟨[("y", .int 2)]⟩ },
  Frame.fresh .block (some ⟨1⟩),
  Frame.fresh .block (some ⟨1⟩),
  Frame.fresh .block (some ⟨2⟩)]⟩

theorem siblings_nested : siblings.Nested := by
  have linked : ∀ i : Fin siblings.table.size, ∀ o, siblings.table[i].outer = some o →
      o.index < i := by decide
  intro id o link
  obtain ⟨f, at_id, outer⟩ := Option.bind_eq_some_iff.1 link
  obtain ⟨inside, rfl⟩ := Array.getElem?_eq_some_iff.1 at_id
  exact linked ⟨id.index, inside⟩ o outer

theorem assignment_writes_where_found_siblings :
    siblings.Nested ∧ (⟨2⟩ : FrameId).index < siblings.size ∧
    (siblings.assign ⟨2⟩ "z" (.int 5)).lookup ⟨4⟩ "z" = some (.int 5) ∧
    (siblings.assign ⟨2⟩ "z" (.int 5)).lookup ⟨3⟩ "z" = siblings.lookup ⟨3⟩ "z" ∧
    (siblings.assign ⟨2⟩ "y" (.int 5)).lookup ⟨3⟩ "y" = some (.int 5) := by
  have nested := siblings_nested
  have present : (⟨2⟩ : FrameId).index < siblings.size := by decide
  obtain ⟨d, resolves, -, -, -, -, -, apart, fresh⟩ :=
    assignment_writes_where_found nested present "z" (.int 5)
  have unresolved := (lookup_eq_none_iff nested).1 (show siblings.lookup ⟨2⟩ "z" = none by decide)
  obtain rfl := (resolves.resolve_left (unresolved d)).1
  refine ⟨nested, present, ?_, ?_, ?_⟩
  · have inner : siblings.Reaches "z" ⟨4⟩ ⟨2⟩ := ⟨[⟨4⟩], .out rfl (.here _), by decide⟩
    exact (fresh unresolved ⟨4⟩ inner).2
  · apply apart
    rw [reaches_iff]
    rintro (here | ⟨-, o, link, further⟩)
    · exact absurd here (by decide)
    · obtain rfl : (⟨1⟩ : FrameId) = o := Option.some.inj link
      rcases reaches_iff.1 further with here | ⟨⟨-, passes⟩, -⟩
      · exact absurd here (by decide)
      · exact absurd passes (by decide)
  · have of_block (id : FrameId) (found : siblings.definingFrame? id "y" = some ⟨1⟩) :
        siblings.ResolvesTo "y" id ⟨1⟩ := (definingFrame?_eq_some nested).1 found
    obtain ⟨d, resolves, -, -, -, seen, -⟩ :=
      assignment_writes_where_found nested present "y" (.int 5)
    have found := of_block ⟨2⟩ (by decide)
    have resolved := resolves.resolve_right fun unresolved => unresolved.2 ⟨1⟩ found
    obtain rfl : d = ⟨1⟩ := by
      have at_d := (definingFrame?_eq_some nested).2 resolved
      exact Option.some.inj (at_d.symm.trans (by decide))
    exact seen ⟨3⟩ (of_block ⟨3⟩ (by decide))

end Frames

end ObjectRuntime
