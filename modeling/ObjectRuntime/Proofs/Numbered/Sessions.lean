import ObjectRuntime.Numbered.Session
import ObjectRuntime.Proofs.Numbered.Evaluation

/-!
# Numbers are not seen

Whatever was interned before a machine is made, it starts as the same machine under other names.
Programs then end in the same way, with the same values and signals, the same number of objects, and
the same outcome and answers, except that diagnostics may show other numbers for symbols.
-/

set_option autoImplicit false

namespace ObjectRuntime

/-! ### The interner at the start -/

namespace Interner

variable {i : Interner}

theorem giveAll_extends (texts : List String) (i : Interner) : i.Extends (i.giveAll texts) := by
  induction texts generalizing i with
  | nil => exact .refl i
  | cons text rest ih => exact (i.give_extends text).trans (ih _)

theorem giveAll_known (texts : List String) (i : Interner) :
    ∀ text ∈ texts, ∃ number, (i.giveAll texts).get? text = some number := by
  induction texts generalizing i with
  | nil => exact fun _ none => absurd none List.not_mem_nil
  | cons first rest ih =>
    intro text member
    cases member with
    | head =>
      obtain ⟨number, known, -⟩ := i.give_known first
      exact ⟨number, giveAll_extends rest _ first number known⟩
    | tail _ member => exact ih _ text member

theorem Sound.giveAll (sound : i.Sound) (texts : List String) : (i.giveAll texts).Sound := by
  induction texts generalizing i with
  | nil => exact sound
  | cons text rest ih => exact ih (sound.give text)

theorem Sound.withCore : withCore.Sound where
  inverse := by
    have interned (texts : List String) :
        ∀ i : Interner, i.Paired → (i.internAll texts).Paired := by
      induction texts with
      | nil => exact fun _ paired => paired
      | cons text rest ih =>
        intro i paired
        have first : (i.tryIntern text).2.Paired := by
          rw [tryIntern_eq_insert]
          exact paired.insert text
        exact ih _ first
    exact (interned coreNames bare .bare).inverse
  core := by
    intro text isCore
    refine Option.isSome_iff_exists.1 ?_
    revert text
    decide

end Interner

/-! ### The machine at the start -/

namespace Numbered

variable {name ρ : String → String} (injective : Function.Injective ρ)
include injective

theorem startFrame_eq (known : ∀ c ∈ Core.all, name c.name = ρ c.name) :
    startFrame name = Machine.startFrame.rename ρ := by
  have defined (list : List Core) (known : ∀ c ∈ list, name c.name = ρ c.name) : ∀ f : Frame,
      list.foldl (fun f c => f.define (name c.name) (.object c.objectId)) (f.rename ρ) =
        (list.foldl (fun f c => f.define c.name (.object c.objectId)) f).rename ρ := by
    induction list with
    | nil => exact fun _ => rfl
    | cons c rest ih =>
      intro f
      rw [List.foldl_cons, List.foldl_cons, ← ih fun c later => known c (.tail _ later),
        known c (.head _), f.define_rename injective]
  exact defined Core.all known (.fresh .top none)

theorem install_eq (list : List Installation) (known : ∀ i ∈ list, name i.name = ρ i.name) :
    ∀ h serial, install name (Hierarchy.rename ρ h) serial list =
      (Installation.install h serial list).rename ρ := by
  induction list with
  | nil => exact fun _ _ => rfl
  | cons i rest ih =>
    intro h serial
    rw [install, Installation.install, ← ih fun i later => known i (.tail _ later),
      known i (.head _)]
    exact congrArg (install name · (serial + 1) rest)
      (h.defineMethod_rename injective i.owner.id (i.method serial))

theorem startHierarchy_eq (known : ∀ c ∈ Core.all, name c.name = ρ c.name)
    (installed : ∀ i ∈ Installation.all, name i.name = ρ i.name) :
    startHierarchy name = Machine.startHierarchy.rename ρ := by
  have entries : (Core.all.map (startEntry name)).toArray =
      (Core.all.map Core.entry).toArray.map (·.rename ρ) := by
    rw [List.map_toArray, List.map_map]
    refine congrArg List.toArray (List.map_congr_left fun c member => ?_)
    rw [startEntry, known c member]
    rfl
  rw [startHierarchy, entries]
  exact install_eq injective Installation.all installed ⟨_⟩ 1

omit injective

variable {i : Interner}

theorem sound_internStart (sound : i.Sound) : (internStart i).Sound :=
  (sound.giveAll _).giveAll _

theorem core_known (i : Interner) :
    ∀ c ∈ Core.all, ∃ number, (internStart i).get? c.name = some number := by
  intro c member
  obtain ⟨number, known⟩ := (i.giveAll_known (Core.all.map Core.name)) c.name
    (List.mem_map_of_mem member)
  exact ⟨number, Interner.giveAll_extends _ _ c.name number known⟩

theorem installation_known (i : Interner) :
    ∀ x ∈ Installation.all, ∃ number, (internStart i).get? x.name = some number := fun _ member =>
  Interner.giveAll_known _ _ _ (List.mem_map_of_mem member)

theorem bootWith_represents (settings : Settings) (sound : i.Sound)
    (core : ∀ c ∈ Core.all, ∃ number, i.get? c.name = some number)
    (installation : ∀ x ∈ Installation.all, ∃ number, i.get? x.name = some number) :
    (bootWith settings i).Represents (Machine.boot settings) where
  sound := sound
  machine ρ naming := by
    have injective := naming.injective
    have cores : ∀ c ∈ Core.all, i.nameOf c.name = ρ c.name := fun c member =>
      let ⟨_, known⟩ := core c member
      naming.nameOf known
    have installed : ∀ x ∈ Installation.all, i.nameOf x.name = ρ x.name := fun x member =>
      let ⟨_, known⟩ := installation x member
      naming.nameOf known
    have objects : Machine.startObjects.map (Object.rename ρ) = Machine.startObjects := by
      rw [Machine.startObjects, List.map_append, List.map_map]
      rfl
    have bodies :
        (Core.all.map Core.bodyFrame).map (Frame.rename ρ) = Core.all.map Core.bodyFrame := by
      rw [List.map_map]
      rfl
    have heap : (Machine.boot settings).heap.rename ρ = (Machine.boot settings).heap := by
      simp only [Machine.boot, Heap.rename, List.map_toArray, objects]
    have frames : (Machine.boot settings).frames.rename ρ =
        ⟨(startFrame i.nameOf :: Core.all.map Core.bodyFrame).toArray⟩ := by
      simp only [Machine.boot, Frames.rename, List.map_toArray, List.map_cons, bodies,
        startFrame_eq injective cores]
    have hierarchy : (Machine.boot settings).hierarchy.rename ρ = startHierarchy i.nameOf :=
      (startHierarchy_eq injective cores installed).symm
    change _ = { Machine.boot settings with
      heap := (Machine.boot settings).heap.rename ρ
      frames := (Machine.boot settings).frames.rename ρ
      hierarchy := (Machine.boot settings).hierarchy.rename ρ }
    rw [heap, frames, hierarchy]
    rfl
  log := .nil

theorem boot_represents (settings : Settings) (before : List String) :
    (boot settings before).Represents (Machine.boot settings) :=
  bootWith_represents settings (sound_internStart (.giveAll .withCore before)) (core_known _)
    (installation_known _)

end Numbered

/-! ### Comparing answers -/

/-- The number of an object can be read off what diagnostics show of it. -/
theorem Answer.ofSymbol_id {shown shown' : String} {id id' : ObjectId}
    (same : ofSymbol shown id = ofSymbol shown' id') : id = id' := by
  have digits (n : Nat) : ∀ c ∈ (Nat.toDigits 10 n).reverse, (c != '=') = true := by
    intro c member
    have digit := Nat.isDigit_of_mem_toDigits (by decide) (by decide) (List.mem_reverse.1 member)
    rw [bne_iff_ne]
    rintro rfl
    exact absurd digit (by decide)
  have last (rest : List Char) (n : Nat) :
      (rest ++ " id=".toList ++ Nat.toDigits 10 n).reverse.takeWhile (· != '=') =
        (Nat.toDigits 10 n).reverse := by
    have marked : " id=".toList.reverse = ['=', 'd', 'i', ' '] := by decide
    rw [List.reverse_append, List.takeWhile_append_of_pos (digits n), List.reverse_append, marked]
    exact List.append_nil _
  have text := congrArg String.toList (Answer.text.inj same)
  simp only [Value.debugText, Nat.toString_eq_repr, String.toList_append, Nat.toList_repr] at text
  have numbers := congrArg (fun l => l.reverse.takeWhile (· != '=')) (List.append_cancel_right text)
  simp only [last, List.reverse_inj] at numbers
  refine ObjectId.number_injective ?_
  rw [← Nat.ofDigitChars_ten_toDigits (n := id.number), numbers, Nat.ofDigitChars_ten_toDigits]

theorem Answer.Alike.compare {a b c : Answer} (first : a.Alike c) (second : b.Alike c) :
    a.Alike b := by
  generalize same : c = c' at second
  cases first with
  | same =>
    subst same
    cases second with
    | same => exact .same _
    | symbol shown shown' id => exact .symbol shown' shown id
  | symbol shown middle id =>
    cases second with
    | same =>
      subst same
      exact .symbol shown middle id
    | symbol shown' middle' id' =>
      rw [Answer.ofSymbol_id same]
      exact .symbol shown shown' id'

structure StepResult.Alike (a b : StepResult) : Prop where
  outcome : a.outcome = b.outcome
  log : List.Forall₂ Answer.Alike a.log b.log

/-- The same value or exit with the same objects in it, as many objects, and results that are
alike. -/
structure Ending.Alike (a b : Ending) : Prop where
  ending : a.ending = b.ending
  objects : a.objects = b.objects
  result : a.result.Alike b.result

theorem List.Forall₂.compare {α β : Type} {R : α → β → Prop} {Q : α → α → Prop}
    (compares : ∀ a b c, R a c → R b c → Q a b) {as bs : List α} {cs : List β}
    (first : List.Forall₂ R as cs) (second : List.Forall₂ R bs cs) : List.Forall₂ Q as bs := by
  induction first generalizing bs with
  | nil =>
    cases second
    exact .nil
  | cons head _ ih =>
    cases second with
    | cons head' tail' => exact .cons (compares _ _ _ head head') (ih tail')

theorem Ending.Alike.compare {a b c : Ending} (first : a.Alike c) (second : b.Alike c) :
    a.Alike b where
  ending := first.ending.trans second.ending.symm
  objects := first.objects.trans second.objects.symm
  result :=
    { outcome := first.result.outcome.trans second.result.outcome.symm
      log := List.Forall₂.compare (fun _ _ _ ac bc => ac.compare bc) first.result.log
        second.result.log }

/-! ### Sessions -/

theorem Machine.endings_result (m : Machine) (programs : List Expr) :
    (m.endings programs).map Ending.result = m.runPrograms programs := by
  induction programs generalizing m with
  | nil => rfl
  | cons program rest ih => exact congrArg _ (ih _)

namespace Numbered

variable {s : Numbered} {m : Machine}

theorem Represents.clearLog (represents : s.Represents m) : s.clearLog.Represents m.clearLog where
  sound := represents.sound
  machine ρ naming := congrArg Machine.clearLog (represents.machine ρ naming)
  log := .nil

theorem Represents.endingOf (represents : s.Represents m) (ending : Except Exit Value) :
    (s.shown.endingOf ending).Alike (m.endingOf ending) := by
  rw [represents.shown]
  exact ⟨rfl, rfl, rfl, List.forall₂_reverse_iff.2 represents.log⟩

theorem endings_alike (represents : s.Represents m) (programs : List Expr) :
    List.Forall₂ Ending.Alike (s.endings programs).1 (m.endings programs) := by
  induction programs generalizing s m with
  | nil => exact .nil
  | cons program rest ih =>
    have after := Sim.evalMain program s.clearLog m.clearLog (.refl _) represents.clearLog
    simp only [Numbered.endings, Machine.endings, after.ends.eq]
    exact .cons (after.represents.endingOf _) (ih after.represents)

theorem session_alike {settings : Settings} {before : List String} {programs : List Expr}
    {endings : List Ending} (counted : session settings before programs = some endings) :
    List.Forall₂ Ending.Alike endings ((Machine.boot settings).endings programs) := by
  have alike := endings_alike (boot_represents settings before) programs
  simp only [session, Option.ite_none_right_eq_some, Option.some.injEq] at counted
  exact counted.2 ▸ alike

/-- It is not seen which numbers names have. Texts that were interned before a machine is made take
numbers from the names of the machine and of its programs; as long as there are numbers enough,
every program ends as it does with a fresh interner, and shows what it shows where names are
texts. -/
theorem session_ignores_before {settings : Settings} {before : List String} {programs : List Expr}
    {endings fresh : List Ending} (counted : session settings before programs = some endings)
    (counted_fresh : session settings [] programs = some fresh) :
    List.Forall₂ Ending.Alike endings fresh ∧
      List.Forall₂ StepResult.Alike (endings.map Ending.result)
        (ObjectRuntime.session settings programs) := by
  have alike := session_alike counted
  refine ⟨List.Forall₂.compare (fun _ _ _ ac bc => ac.compare bc) alike
    (session_alike counted_fresh), ?_⟩
  rw [ObjectRuntime.session, ← Machine.endings_result, List.forall₂_map_left_iff,
    List.forall₂_map_right_iff]
  exact alike.imp fun _ _ same => same.result

/-- Diagnostics show a symbol, whose number depends on what was interned before. -/
def showSymbol : Expr := .prim (.ask .debug) (.cons (.literal (.symbol "zebra")) .nil)

theorem session_ignores_before_symbol :
    ∃ endings fresh,
      session .standard ["horse", "zebra"] [showSymbol] = some endings ∧
      session .standard [] [showSymbol] = some fresh ∧
      List.Forall₂ Ending.Alike endings fresh ∧
      List.Forall₂ StepResult.Alike (endings.map Ending.result)
        (ObjectRuntime.session .standard [showSymbol]) := by
  have ⟨isSome, isSome_fresh⟩ : (session .standard ["horse", "zebra"] [showSymbol]).isSome ∧
      (session .standard [] [showSymbol]).isSome := by decide +kernel
  obtain ⟨endings, counted⟩ := Option.isSome_iff_exists.1 isSome
  obtain ⟨fresh, counted_fresh⟩ := Option.isSome_iff_exists.1 isSome_fresh
  exact ⟨endings, fresh, counted, counted_fresh, session_ignores_before counted counted_fresh⟩

end Numbered

end ObjectRuntime
