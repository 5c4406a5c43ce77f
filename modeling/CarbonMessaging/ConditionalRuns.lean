import Mathlib.Tactic

/-! Runs of a system whose actions may be impossible in a state, and the runs among them that take
an action only where a condition allows it. -/

namespace CarbonMessaging.ConditionalRuns

variable {σ ι : Type}

/-- The states of the runs from `start` all of whose steps are `allowed`. -/
inductive Reached (step : σ → ι → Option σ) (allowed : σ → ι → Prop) (start : σ) : σ → Prop
  | refl : Reached step allowed start start
  | next {s t : σ} {i : ι} :
    Reached step allowed start s → allowed s i → step s i = some t → Reached step allowed start t

variable {step : σ → ι → Option σ} {allowed : σ → ι → Prop} {start s : σ}

/-- What every allowed step keeps holds in every state reached. -/
theorem Reached.invariant {I : σ → Prop} (hstart : I start)
    (hstep : ∀ s i t, I s → allowed s i → step s i = some t → I t)
    (h : Reached step allowed start s) : I s := by
  induction h with
  | refl => exact hstart
  | next _ hallowed hnext ih => exact hstep _ _ _ ih hallowed hnext

def run (step : σ → ι → Option σ) : List ι → σ → Option σ
  | [], s => some s
  | i :: actions, s => (step s i).bind (run step actions)

def AllAllowed (step : σ → ι → Option σ) (allowed : σ → ι → Prop) : List ι → σ → Prop
  | [], _ => True
  | i :: actions, s => allowed s i ∧ ∀ t ∈ step s i, AllAllowed step allowed actions t

instance decidableAllAllowed [∀ s i, Decidable (allowed s i)] :
    ∀ (actions : List ι) (s : σ), Decidable (AllAllowed step allowed actions s)
  | [], _ => isTrue trivial
  | i :: actions, s =>
    have : ∀ t, Decidable (AllAllowed step allowed actions t) := decidableAllAllowed actions
    inferInstanceAs (Decidable (allowed s i ∧ ∀ t ∈ step s i, AllAllowed step allowed actions t))

theorem Reached.trans {u : σ} (h : Reached step allowed start s)
    (h' : Reached step allowed s u) : Reached step allowed start u := by
  induction h' with
  | refl => exact h
  | next _ hallowed hnext ih => exact ih.next hallowed hnext

theorem reached_of_run {actions : List ι} (h : run step actions start = some s)
    (hall : AllAllowed step allowed actions start) : Reached step allowed start s := by
  induction actions generalizing start with
  | nil =>
    cases h
    exact .refl
  | cons i actions ih =>
    obtain ⟨t, hstep, hrest⟩ := Option.bind_eq_some_iff.1 h
    exact (Reached.refl.next hall.1 hstep).trans (ih hrest (hall.2 t hstep))

end CarbonMessaging.ConditionalRuns
