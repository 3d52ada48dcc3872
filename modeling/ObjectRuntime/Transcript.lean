/-!
# Transcripts

A part of the library is driven on its own by a list of steps. Each step answers and leaves a new
state to the next one; a step that makes no sense in its state ends the transcript without an
answer.
-/

set_option autoImplicit false

namespace ObjectRuntime

def transcript {σ α β : Type} (perform : σ → α → Option (β × σ)) (s : σ) : List α → Option (List β)
  | [] => some []
  | step :: rest => do
    let (answer, s) ← perform s step
    let answers ← transcript perform s rest
    return answer :: answers

theorem keeps_of_steps {σ α β : Type} {perform : σ → α → Option (β × σ)} {I : σ → Prop}
    (keeps : ∀ s step answer s', I s → perform s step = some (answer, s') → I s')
    {steps : List α} {s s' : σ} (holds : I s)
    (done : steps.foldlM (fun s step => (perform s step).map (·.2)) s = some s') : I s' := by
  induction steps generalizing s with
  | nil => cases done; exact holds
  | cons step rest ih =>
    obtain ⟨_, first, rest_done⟩ := Option.bind_eq_some_iff.mp done
    obtain ⟨⟨answer, between⟩, performed, rfl⟩ := Option.map_eq_some_iff.mp first
    exact ih (keeps s step answer between holds performed) rest_done

end ObjectRuntime
