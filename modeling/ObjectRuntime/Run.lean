import ObjectRuntime.Machine.Basic

/-!
# Running

A computation reads and changes the machine and ends with a value or with an exit: a signal, or the
note that the fuel for nested calls ran out, or that what ran was no program. The machine is there
after every exit, as the computation left it.
-/

set_option autoImplicit false

namespace ObjectRuntime

inductive Exit where
  | signal (signal : Signal)
  | exhausted
  | malformed

def Run (α : Type) : Type := Machine → Except Exit α × Machine

namespace Run

variable {α β : Type}

@[always_inline, inline] def pure (a : α) : Run α := fun m => (.ok a, m)

@[always_inline, inline] def bind (x : Run α) (f : α → Run β) : Run β := fun m =>
  match x m with
  | (.ok a, m) => f a m
  | (.error e, m) => (.error e, m)

instance : Monad Run where
  pure := pure
  bind := bind

@[always_inline, inline] def exit (e : Exit) : Run α := fun m => (.error e, m)

def malformed : Run α := exit .malformed

@[always_inline, inline] def signal (s : Signal) : Run α := exit (.signal s)

@[always_inline, inline] def read (f : Machine → α) : Run α := fun m => (.ok (f m), m)

@[always_inline, inline] def modify (f : Machine → Machine) : Run Unit := fun m => (.ok (), f m)

@[always_inline, inline] def update (f : Machine → α × Machine) : Run α := fun m =>
  let (a, m) := f m
  (.ok a, m)

/-- Runs to the end and hands out how it ended. -/
@[always_inline, inline] def attempt (x : Run α) : Run (Except Exit α) := fun m =>
  let (outcome, m) := x m
  (.ok outcome, m)

@[always_inline, inline] def resume (outcome : Except Exit α) : Run α := fun m => (outcome, m)

/-- Changes the machine however the computation ended. -/
@[always_inline, inline] def afterward (x : Run α) (f : Machine → Machine) : Run α := fun m =>
  let (outcome, m) := x m
  (outcome, f m)

def ofOption (x : Option α) : Run α :=
  match x with
  | some a => pure a
  | none => malformed

def times (count : Nat) (x : Run α) : Run Unit :=
  match count with
  | 0 => pure ()
  | count + 1 => bind x fun _ => times count x

def forEach (f : α → Run Unit) : List α → Run Unit
  | [] => pure ()
  | a :: rest => bind (f a) fun _ => forEach f rest

@[simp] theorem run_pure (a : α) (m : Machine) : (Pure.pure a : Run α) m = (.ok a, m) := rfl

@[simp] theorem run_bind (x : Run α) (f : α → Run β) (m : Machine) :
    (x >>= f) m =
      match x m with
      | (.ok a, m) => f a m
      | (.error e, m) => (.error e, m) := rfl

theorem run_bind_eq_ok {x : Run α} {f : α → Run β} {m m' : Machine} {b : β}
    (ending : (x >>= f) m = (.ok b, m')) :
    ∃ a between, x m = (.ok a, between) ∧ f a between = (.ok b, m') := by
  rw [run_bind] at ending
  split at ending
  next a between first => exact ⟨a, between, first, ending⟩
  next => cases ending

@[simp] theorem run_exit (e : Exit) (m : Machine) : (exit e : Run α) m = (.error e, m) := rfl

@[simp] theorem run_read (f : Machine → α) (m : Machine) : read f m = (.ok (f m), m) := rfl

@[simp] theorem run_modify (f : Machine → Machine) (m : Machine) : modify f m = (.ok (), f m) := rfl

theorem bind_assoc {γ : Type} (x : Run α) (f : α → Run β) (g : β → Run γ) :
    bind (bind x f) g = bind x fun a => bind (f a) g := by
  funext m
  unfold bind
  cases h : x m with | mk outcome m => cases outcome <;> rfl

theorem bind_pure (x : Run α) : bind x pure = x := by
  funext m
  unfold bind
  cases h : x m with | mk outcome m => cases outcome <;> rfl

instance : LawfulMonad Run :=
  LawfulMonad.mk' Run bind_pure (fun _ _ => rfl) bind_assoc

end Run

end ObjectRuntime
