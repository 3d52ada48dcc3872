/-!
# Chains of links

A link leads from a place in a table to a smaller place, or nowhere. Superclass links, links to the
enclosing frame and links to the calling frame are of this kind. `chain` follows them to their end;
a link that does not lead to a smaller place counts as none, so the end is always reached.
-/

set_option autoImplicit false

namespace ObjectRuntime

variable {ι α : Type}

def lower? (index : ι → Nat) (next : ι → Option ι) (i : ι) : Option ι :=
  (next i).filter fun j => index j < index i

def chainFrom (index : ι → Nat) (next : ι → Option ι) : Nat → ι → List ι
  | 0, i => [i]
  | steps + 1, i =>
    i :: match lower? index next i with
      | some j => chainFrom index next steps j
      | none => []

/-- The place, then the places its links lead to. -/
def chain (index : ι → Nat) (next : ι → Option ι) (i : ι) : List ι :=
  chainFrom index next (index i) i

def firstFrom (index : ι → Nat) (next : ι → Option ι) (f : ι → Option α) : Nat → ι → Option α
  | 0, i => f i
  | steps + 1, i =>
    match f i with
    | some a => some a
    | none =>
      match lower? index next i with
      | some j => firstFrom index next f steps j
      | none => none

/-- The first answer along the chain, which is followed no further than that. -/
def first? (index : ι → Nat) (next : ι → Option ι) (f : ι → Option α) (i : ι) : Option α :=
  firstFrom index next f (index i) i

theorem index_lt_of_lower? {index : ι → Nat} {next : ι → Option ι} {i j : ι}
    (h : lower? index next i = some j) : index j < index i := by
  simp [lower?, Option.filter_eq_some_iff] at h
  exact h.2

theorem chainFrom_eq (index : ι → Nat) (next : ι → Option ι) (i : ι) (steps more : Nat)
    (hs : index i ≤ steps) (hm : index i ≤ more) :
    chainFrom index next steps i = chainFrom index next more i := by
  induction steps generalizing i more with
  | zero =>
    cases more with
    | zero => rfl
    | succ more =>
      cases h : lower? index next i with
      | none => simp [chainFrom, h]
      | some j => have := index_lt_of_lower? h; omega
  | succ steps ih =>
    cases more with
    | zero =>
      cases h : lower? index next i with
      | none => simp [chainFrom, h]
      | some j => have := index_lt_of_lower? h; omega
    | succ more =>
      cases h : lower? index next i with
      | none => simp [chainFrom, h]
      | some j =>
        have := index_lt_of_lower? h
        simp only [chainFrom, h]
        rw [ih j more (by omega) (by omega)]

theorem chain_eq (index : ι → Nat) (next : ι → Option ι) (i : ι) :
    chain index next i =
      i :: match lower? index next i with
        | some j => chain index next j
        | none => [] := by
  cases h : lower? index next i with
  | none =>
    cases hi : index i <;> simp [chain, hi, chainFrom, h]
  | some j =>
    have hlt := index_lt_of_lower? h
    obtain ⟨n, hn⟩ : ∃ n, index i = n + 1 := ⟨index i - 1, by omega⟩
    simp only [chain, hn, chainFrom, h]
    rw [chainFrom_eq index next j n (index j) (by omega) (Nat.le_refl _)]

theorem firstFrom_eq (index : ι → Nat) (next : ι → Option ι) (f : ι → Option α) (steps : Nat)
    (i : ι) : firstFrom index next f steps i = (chainFrom index next steps i).findSome? f := by
  induction steps generalizing i with
  | zero => cases h : f i <;> simp [firstFrom, chainFrom, h]
  | succ steps ih =>
    cases h : f i with
    | some a => simp [firstFrom, chainFrom, h]
    | none =>
      cases hn : lower? index next i with
      | none => simp [firstFrom, chainFrom, h, hn]
      | some j => simp [firstFrom, chainFrom, h, hn, ih]

theorem first?_eq (index : ι → Nat) (next : ι → Option ι) (f : ι → Option α) (i : ι) :
    first? index next f i = (chain index next i).findSome? f :=
  firstFrom_eq index next f (index i) i

/-! ### What is on a chain -/

section Members

variable {index : ι → Nat} {next next' : ι → Option ι} {i j k : ι}

theorem chain_induction (index : ι → Nat) (next : ι → Option ι) {motive : ι → Prop}
    (step : ∀ i, (∀ lower, lower? index next i = some lower → motive lower) → motive i) (i : ι) :
    motive i := by
  induction bound : index i using Nat.strongRecOn generalizing i with
  | ind n ih =>
    refine step i ?_
    intro lower links
    exact ih (index lower) (bound ▸ index_lt_of_lower? links) lower rfl

theorem mem_chain_iff : j ∈ chain index next i ↔
    j = i ∨ ∃ lower, lower? index next i = some lower ∧ j ∈ chain index next lower := by
  rw [chain_eq]
  cases lower? index next i <;> simp

theorem self_mem_chain : i ∈ chain index next i := mem_chain_iff.2 (.inl rfl)

theorem mem_chain (mem : j ∈ chain index next i) :
    j = i ∨ index j < index i ∧ (next i).isSome := by
  induction i using chain_induction index next with
  | step i ih =>
    obtain rfl | ⟨lower, links, below⟩ := mem_chain_iff.1 mem
    · exact .inl rfl
    · have smaller := index_lt_of_lower? links
      have linked : (next i).isSome :=
        Option.isSome_iff_exists.2 ⟨lower, (Option.filter_eq_some_iff.1 links).1⟩
      obtain rfl | ⟨further, -⟩ := ih lower links below
      · exact .inr ⟨smaller, linked⟩
      · exact .inr ⟨Nat.lt_trans further smaller, linked⟩

theorem index_le_of_mem_chain (mem : j ∈ chain index next i) : index j ≤ index i := by
  obtain rfl | ⟨smaller, -⟩ := mem_chain mem
  · exact Nat.le_refl _
  · exact Nat.le_of_lt smaller

theorem nodup_chain (index : ι → Nat) (next : ι → Option ι) (i : ι) :
    (chain index next i).Nodup := by
  induction i using chain_induction index next with
  | step i ih =>
    rw [chain_eq]
    cases links : lower? index next i with
    | none => simp
    | some lower =>
      refine List.nodup_cons.2 ⟨?_, ih lower links⟩
      intro again
      have smaller := index_lt_of_lower? links
      have le := index_le_of_mem_chain again
      omega

theorem chain_congr (same : ∀ j, index j ≤ index i → next' j = next j) :
    chain index next' i = chain index next i := by
  induction i using chain_induction index next with
  | step i ih =>
    have lower_eq : lower? index next' i = lower? index next i := by
      rw [lower?, lower?, same i (Nat.le_refl _)]
    rw [chain_eq, chain_eq index next, lower_eq]
    cases links : lower? index next i with
    | none => rfl
    | some lower =>
      have smaller := index_lt_of_lower? links
      exact congrArg (i :: ·) (ih lower links fun j le => same j (by omega))

theorem mem_chain_trans (mem : j ∈ chain index next i) (above : k ∈ chain index next j) :
    k ∈ chain index next i := by
  induction i using chain_induction index next with
  | step i ih =>
    obtain rfl | ⟨lower, links, below⟩ := mem_chain_iff.1 mem
    · exact above
    · exact mem_chain_iff.2 (.inr ⟨lower, links, ih lower links below⟩)

theorem chain_linear (j_mem : j ∈ chain index next i) (k_mem : k ∈ chain index next i) :
    k ∈ chain index next j ∨ j ∈ chain index next k := by
  induction i using chain_induction index next with
  | step i ih =>
    obtain rfl | ⟨lower, links, j_below⟩ := mem_chain_iff.1 j_mem
    · exact .inl k_mem
    · obtain rfl | ⟨other, also, k_below⟩ := mem_chain_iff.1 k_mem
      · exact .inr j_mem
      · obtain rfl := Option.some.inj (links.symm.trans also)
        exact ih lower links j_below k_below

end Members

end ObjectRuntime
