import ObjectRuntime.Proofs.Numbered.Namings
import ObjectRuntime.Proofs.Numbered.Reading

/-!
# Simulation

A machine with numbered names represents a machine with texts if it stands for it, apart from the
log, where diagnostics may show other names for the same symbols. A computation on the one simulates
a computation on the other if they end in the same way and leave machines that again are related so.
The rules for sequences say what is to be shown of single steps.
-/

set_option autoImplicit false

namespace ObjectRuntime

def Answer.ofSymbol (shown : String) (id : ObjectId) : Answer :=
  .text ((Value.object id).debugText fun _ => "Symbol(" ++ shown ++ ")")

/-- The same answers, or what diagnostics show of one symbol under different names. -/
inductive Answer.Alike : Answer → Answer → Prop
  | same (answer : Answer) : Alike answer answer
  | symbol (shown shown' : String) (id : ObjectId) : Alike (ofSymbol shown id) (ofSymbol shown' id)

def Machine.withLog (m : Machine) (log : List Answer) : Machine :=
  { m with desk := { m.desk with log } }

@[simp] theorem Machine.withLog_heap (m : Machine) (log : List Answer) :
    (m.withLog log).heap = m.heap := rfl

structure Numbered.Represents (s : Numbered) (m : Machine) : Prop where
  sound : s.interner.Sound
  machine : Named Machine.rename s.interner s.machine (m.withLog s.machine.desk.log)
  log : List.Forall₂ Answer.Alike s.machine.desk.log m.desk.log

namespace Numbered.Represents

variable {s : Numbered} {m : Machine}

theorem shown (represents : s.Represents m) : s.shown = m.withLog s.machine.desk.log :=
  represents.machine.text represents.sound Machine.functorial

theorem text (represents : s.Represents m) {name text : String}
    (named : Named (fun ρ => ρ) s.interner name text) : s.text name = text :=
  named.text represents.sound ⟨fun _ => rfl, fun _ _ _ => rfl⟩

end Numbered.Represents

/-! ### Computations -/

/-- Both end with values that are related, or both with the same exit. -/
inductive Ends {α β : Type} (R : α → β → Prop) : Except Exit α → Except Exit β → Prop
  | ok {a : α} {b : β} (related : R a b) : Ends R (.ok a) (.ok b)
  | error (e : Exit) : Ends R (.error e) (.error e)

structure After {α β : Type} (R : Interner → α → β → Prop) (s : Numbered)
    (ending : Except Exit α × Numbered) (ending' : Except Exit β × Machine) : Prop where
  later : s.interner.Extends ending.2.interner
  represents : ending.2.Represents ending'.2
  ends : Ends (R ending.2.interner) ending.1 ending'.1

/-- The simulation starts from any interner that knows at least the names of this one. -/
def Sim {α β : Type} (i : Interner) (R : Interner → α → β → Prop) (x : Numbered.Run α)
    (y : ObjectRuntime.Run β) : Prop :=
  ∀ s m, i.Extends s.interner → s.Represents m → After R s (x s) (y m)

theorem Ends.mono {α β : Type} {R Q : α → β → Prop} {ending : Except Exit α}
    {ending' : Except Exit β} (ends : Ends R ending ending') (weaker : ∀ a b, R a b → Q a b) :
    Ends Q ending ending' := by
  cases ends with
  | ok related => exact .ok (weaker _ _ related)
  | error e => exact .error e

def Same {α : Type} (_ : Interner) (a b : α) : Prop := a = b

theorem Ends.eq {α : Type} {i : Interner} {ending ending' : Except Exit α}
    (ends : Ends (Same i) ending ending') : ending = ending' := by
  cases ends with
  | ok same => exact congrArg Except.ok same
  | error e => rfl

theorem Numbered.Run.lift_bind {α β : Type} (x : ObjectRuntime.Run α)
    (f : α → ObjectRuntime.Run β) :
    lift (x >>= f) = lift x >>= fun a => lift (f a) := by
  funext s
  change lift (ObjectRuntime.Run.bind x f) s = Numbered.Run.bind (lift x) (fun a => lift (f a)) s
  simp only [lift, Numbered.Run.bind, ObjectRuntime.Run.bind]
  cases x s.machine with | mk outcome machine => cases outcome <;> rfl

namespace Sim

open Numbered (Represents)
open Numbered.Run (lift lift_bind)

variable {α β γ δ : Type} {i j : Interner} {R : Interner → α → β → Prop}
  {Q : Interner → γ → δ → Prop}

theorem later {x : Numbered.Run α} {y : ObjectRuntime.Run β} (sim : Sim i R x y)
    (later : i.Extends j) : Sim j R x y :=
  fun s m extends_ represents => sim s m (later.trans extends_) represents

theorem mono {P : Interner → α → β → Prop} {x : Numbered.Run α} {y : ObjectRuntime.Run β}
    (sim : Sim i R x y) (weaker : ∀ j a b, R j a b → P j a b) : Sim i P x y := by
  intro s m later represents
  have after := sim s m later represents
  exact ⟨after.later, after.represents, after.ends.mono (weaker _)⟩

/-! ### Sequences -/

theorem pure {a : α} {b : β} (related : ∀ j, i.Extends j → R j a b) :
    Sim i R (Pure.pure a) (Pure.pure b) :=
  fun s _ later represents => ⟨.refl _, represents, .ok (related s.interner later)⟩

theorem value (a : α) : Sim i Same (Pure.pure a) (Pure.pure a) := pure fun _ _ => rfl

theorem exit (e : Exit) : Sim i R (Numbered.Run.exit e) (ObjectRuntime.Run.exit e) :=
  fun _ _ _ represents => ⟨.refl _, represents, .error e⟩

theorem bind {x : Numbered.Run α} {y : ObjectRuntime.Run β} {f : α → Numbered.Run γ}
    {g : β → ObjectRuntime.Run δ} (first : Sim i R x y)
    (rest : ∀ j a b, i.Extends j → j.Sound → R j a b → Sim j Q (f a) (g b)) :
    Sim i Q (x >>= f) (y >>= g) := by
  intro s m later represents
  obtain ⟨passed, between, ends⟩ := first s m later represents
  change After Q s (Numbered.Run.bind x f s) (ObjectRuntime.Run.bind y g m)
  unfold Numbered.Run.bind ObjectRuntime.Run.bind
  cases hx : x s with | mk ending s' =>
  cases hy : y m with | mk ending' m' =>
  rw [hx, hy] at ends between
  rw [hx] at passed
  cases ends with
  | ok related =>
    have after := rest s'.interner _ _ (later.trans passed) between.sound related s' m' (.refl _)
      between
    exact ⟨passed.trans after.later, after.represents, after.ends⟩
  | error e => exact ⟨passed, between, .error e⟩

theorem andThen {x : Numbered.Run α} {y : ObjectRuntime.Run α} {f : α → Numbered.Run γ}
    {g : α → ObjectRuntime.Run δ} (first : Sim i Same x y) (rest : ∀ a, Sim i Q (f a) (g a)) :
    Sim i Q (x >>= f) (y >>= g) :=
  first.bind fun _ a _ passed _ same => same ▸ (rest a).later passed

theorem liftedBind {x : ObjectRuntime.Run α} {y : ObjectRuntime.Run β} {f : α → ObjectRuntime.Run γ}
    {g : β → ObjectRuntime.Run δ} (first : Sim i R (lift x) y)
    (rest : ∀ j a b, i.Extends j → j.Sound → R j a b → Sim j Q (lift (f a)) (g b)) :
    Sim i Q (lift (x >>= f)) (y >>= g) := by
  rw [lift_bind]
  exact first.bind rest

theorem lifted {x : ObjectRuntime.Run α} {y : ObjectRuntime.Run α} {f : α → ObjectRuntime.Run γ}
    {g : α → ObjectRuntime.Run δ} (first : Sim i Same (lift x) y)
    (rest : ∀ a, Sim i Q (lift (f a)) (g a)) : Sim i Q (lift (x >>= f)) (y >>= g) :=
  first.liftedBind fun _ a _ passed _ same => same ▸ (rest a).later passed

theorem lifts {x y : ObjectRuntime.Run α} (sim : Sim i Same (lift x) y) (f : α → γ) :
    Sim i Same (lift (x >>= fun a => Pure.pure (f a))) (y >>= fun a => Pure.pure (f a)) :=
  sim.lifted fun a => value (f a)

/-! ### Reading -/

theorem read {f : Numbered → α} {g : Machine → β}
    (related : ∀ s m, i.Extends s.interner → s.Represents m → R s.interner (f s) (g m)) :
    Sim i R (Numbered.Run.read f) (ObjectRuntime.Run.read g) :=
  fun s m later represents => ⟨.refl _, represents, .ok (related s m later represents)⟩

theorem shown {f : Machine → α} (silent : ∀ m log, f (m.withLog log) = f m) :
    Sim i Same (Numbered.Run.read fun s => f s.shown) (ObjectRuntime.Run.read f) :=
  read fun s m _ represents => by
    change f s.shown = f m
    rw [represents.shown, silent]

theorem reading {f : Numbered → γ} {k : γ → Numbered.Run α} {y : ObjectRuntime.Run β} {c : γ}
    (known : ∀ s m, i.Extends s.interner → s.Represents m → f s = c) (rest : Sim i R (k c) y) :
    Sim i R (Numbered.Run.read f >>= k) y := by
  intro s m later represents
  have same : (Numbered.Run.read f >>= k) s = k c s := congrArg (k · s) (known s m later represents)
  rw [same]
  exact rest s m later represents

theorem text {k : String → Numbered.Run α} {y : ObjectRuntime.Run β} {name text : String}
    (named : Named (fun ρ => ρ) i name text) (rest : Sim i R (k text) y) :
    Sim i R (Numbered.Run.read (fun s => s.text name) >>= k) y :=
  reading (fun _ _ later represents => represents.text (named.later later)) rest

theorem intern {text : String} {k : String → Numbered.Run α} {y : ObjectRuntime.Run β}
    (rest : ∀ j name, i.Extends j → j.Sound → Named (fun ρ => ρ) j name text → Sim j R (k name) y) :
    Sim i R (Numbered.Run.intern text >>= k) y := by
  intro s m later represents
  obtain ⟨number, known, given⟩ := s.interner.give_known text
  have passed := s.interner.give_extends text
  have named : Named (fun ρ => ρ) (s.interner.give text).2 (s.interner.give text).1 text :=
    fun ρ naming => given.trans (naming.known text number known).symm
  have between : Represents { s with interner := (s.interner.give text).2 } m :=
    ⟨represents.sound.give text, represents.machine.later passed, represents.log⟩
  have after := rest _ _ (later.trans passed) between.sound named _ m (.refl _) between
  exact ⟨passed.trans after.later, after.represents, after.ends⟩

theorem interned (text : String) :
    Sim i (Named fun ρ => ρ) (Numbered.Run.intern text) (Pure.pure text) :=
  show Sim i _ (Numbered.Run.intern text >>= Pure.pure) _ from
    intern fun _ _ _ _ named => pure fun _ later => named.later later

/-! ### Steps of the machine -/

/-- A step that is the same under every naming, and does not look at the log. -/
theorem named {x : ObjectRuntime.Run α} {y : ObjectRuntime.Run β} {act : (String → String) → β → α}
    (mirrors : ∀ ρ, i.Naming ρ → ∀ m, x (m.rename ρ) = ((y m).1.map (act ρ), (y m).2.rename ρ))
    (silent : ∀ m log, y (m.withLog log) = ((y m).1, (y m).2.withLog log)) :
    Sim i (Named act) (lift x) y := by
  intro s m later represents
  have mirrored (ρ : String → String) (naming : s.interner.Naming ρ) :
      x s.machine = ((y m).1.map (act ρ), ((y m).2.withLog s.machine.desk.log).rename ρ) := by
    refine (congrArg x (represents.machine ρ naming)).trans ?_
    rw [mirrors ρ (naming.before later), silent]
  have kept : (y m).2.desk.log = m.desk.log := congrArg (fun ending => ending.2.desk.log)
    (silent m m.desk.log)
  -- Any one naming tells how both ended; that the values are related takes all of them.
  obtain ⟨ρ, naming⟩ := represents.sound.exists_naming
  have same := mirrored ρ naming
  refine ⟨.refl _, ⟨represents.sound, fun ρ naming => ?_, ?_⟩, ?_⟩
  · change (x s.machine).2 = ((y m).2.withLog (x s.machine).2.desk.log).rename ρ
    rw [mirrored ρ naming]
    rfl
  · change List.Forall₂ _ (x s.machine).2.desk.log _
    rw [same, kept]
    exact represents.log
  · change Ends _ (x s.machine).1 _
    cases outcome : (y m).1 with
    | error e =>
      rw [same, outcome]
      exact .error e
    | ok b =>
      rw [same, outcome]
      refine .ok fun ρ' naming' => ?_
      have both := (congrArg Prod.fst same).symm.trans (congrArg Prod.fst (mirrored ρ' naming'))
      rw [outcome] at both
      exact Except.ok.inj both

theorem step {x y : ObjectRuntime.Run α}
    (mirrors : ∀ ρ, i.Naming ρ → ∀ m, x (m.rename ρ) = ((y m).1, (y m).2.rename ρ))
    (silent : ∀ m log, y (m.withLog log) = ((y m).1, (y m).2.withLog log)) :
    Sim i Same (lift x) y := by
  have sim : Sim i (Named fun _ a => a) (lift x) y := by
    refine named (fun ρ naming m => ?_) silent
    rw [mirrors ρ naming m]
    cases (y m).1 <;> rfl
  intro s m later represents
  have after := sim s m later represents
  obtain ⟨ρ, naming⟩ := after.represents.sound.exists_naming
  exact ⟨after.later, after.represents, after.ends.mono fun _ _ named => named ρ naming⟩

theorem modify {f g : Machine → Machine}
    (mirrors : ∀ ρ, i.Naming ρ → ∀ m, f (m.rename ρ) = (g m).rename ρ)
    (silent : ∀ m log, g (m.withLog log) = (g m).withLog log) :
    Sim i Same (Numbered.Run.modify f) (ObjectRuntime.Run.modify g) :=
  step (fun ρ naming m => congrArg (Prod.mk _) (mirrors ρ naming m))
    (fun m log => congrArg (Prod.mk _) (silent m log))

theorem see {f : Machine → α} {g : Machine → β} {act : (String → String) → β → α}
    (mirrors : ∀ ρ, i.Naming ρ → ∀ m, f (m.rename ρ) = act ρ (g m))
    (silent : ∀ m log, g (Machine.withLog m log) = g m) :
    Sim i (Named act) (Numbered.Run.see f) (ObjectRuntime.Run.read g) :=
  named (fun ρ naming m => congrArg (fun a => (Except.ok a, m.rename ρ)) (mirrors ρ naming m))
    (fun m log => congrArg (fun a => (Except.ok a, m.withLog log)) (silent m log))

theorem seen {f g : Machine → α} (mirrors : ∀ ρ, i.Naming ρ → ∀ m, f (m.rename ρ) = g m)
    (silent : ∀ m log, g (Machine.withLog m log) = g m) :
    Sim i Same (Numbered.Run.see f) (ObjectRuntime.Run.read g) :=
  step (fun ρ naming m => congrArg (fun a => (Except.ok a, m.rename ρ)) (mirrors ρ naming m))
    (fun m log => congrArg (fun a => (Except.ok a, m.withLog log)) (silent m log))

theorem log {a b : Answer} (alike : a.Alike b) :
    Sim i Same (lift (.log a)) (ObjectRuntime.Run.log b) := by
  intro s m later represents
  refine ⟨.refl _, ⟨represents.sound, fun ρ naming => ?_, .cons alike represents.log⟩, .ok rfl⟩
  exact congrArg (·.withLog (a :: s.machine.desk.log)) (represents.machine ρ naming)

theorem ofOption (found : Option α) :
    Sim i Same (Numbered.Run.ofOption found) (ObjectRuntime.Run.ofOption found) := by
  cases found with
  | none => exact exit .malformed
  | some a => exact value a

theorem option {x : Numbered.Run (Option α)} {y : ObjectRuntime.Run (Option β)}
    {f : Option α → Numbered.Run γ} {g : Option β → ObjectRuntime.Run δ}
    {act : (String → String) → β → α} (first : Sim i (Named fun ρ => Option.map (act ρ)) x y)
    (absent : Sim i Q (f none) (g none))
    (present : ∀ j a b, i.Extends j → j.Sound → Named act j a b →
      Sim j Q (f (some a)) (g (some b))) :
    Sim i Q (x >>= f) (y >>= g) := by
  refine first.bind fun j found found' passed sound both => ?_
  obtain ⟨rfl, rfl⟩ | ⟨a, b, rfl, rfl, named⟩ := both.option sound
  · exact absent.later passed
  · exact present j a b passed sound named

/-- Without the thing that is looked for what runs is no program. -/
theorem required {x : Numbered.Run (Option α)} {y : ObjectRuntime.Run (Option β)}
    {f : α → Numbered.Run γ} {g : β → ObjectRuntime.Run δ} {act : (String → String) → β → α}
    (first : Sim i (Named fun ρ => Option.map (act ρ)) x y)
    (present : ∀ j a b, i.Extends j → j.Sound → Named act j a b → Sim j Q (f a) (g b)) :
    Sim i Q (x >>= fun found => Numbered.Run.ofOption found >>= f)
      (y >>= fun found => ObjectRuntime.Run.ofOption found >>= g) :=
  first.option (exit .malformed) present

/-! ### Forms of control -/

theorem ite {x x' : Numbered.Run α} {y y' : ObjectRuntime.Run β} (c : Prop) [Decidable c]
    (yes : Sim i R x y) (no : Sim i R x' y') :
    Sim i R (if c then x else x') (if c then y else y') := by
  split
  · exact yes
  · exact no

theorem attempt {x : Numbered.Run α} {y : ObjectRuntime.Run α} (sim : Sim i Same x y) :
    Sim i Same (Numbered.Run.attempt x) (ObjectRuntime.Run.attempt y) := by
  intro s m later represents
  have after := sim s m later represents
  exact ⟨after.later, after.represents, .ok after.ends.eq⟩

theorem afterward {x : Numbered.Run α} {y : ObjectRuntime.Run α} {f : Machine → Machine}
    (sim : Sim i Same x y) (mirrors : ∀ ρ m, f (m.rename ρ) = (f m).rename ρ)
    (silent : ∀ m log, f (Machine.withLog m log) = (f m).withLog log) :
    Sim i Same (Numbered.Run.afterward x f) (ObjectRuntime.Run.afterward y f) := by
  have last : Sim i Same (Numbered.Run.modify f) (ObjectRuntime.Run.modify f) :=
    modify (fun ρ _ m => mirrors ρ m) silent
  intro s m later represents
  have after := sim s m later represents
  have closed := last (x s).2 (y m).2 (later.trans after.later) after.represents
  exact ⟨after.later, closed.represents, after.ends⟩

theorem times (count : Nat) {x : Numbered.Run α} {y : ObjectRuntime.Run α} (sim : Sim i Same x y) :
    Sim i Same (Numbered.Run.times count x) (ObjectRuntime.Run.times count y) := by
  induction count with
  | zero => exact value ()
  | succ count ih => exact sim.andThen fun _ => ih

theorem forEach {f : α → Numbered.Run Unit} {g : α → ObjectRuntime.Run Unit} (list : List α)
    (sim : ∀ a, Sim i Same (f a) (g a)) :
    Sim i Same (Numbered.Run.forEach f list) (ObjectRuntime.Run.forEach g list) := by
  induction list with
  | nil => exact value ()
  | cons a rest ih => exact (sim a).andThen fun _ => ih

end Sim

end ObjectRuntime
