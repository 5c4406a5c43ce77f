import CarbonMessaging.FaultyCalls

/-! When a program returns, read off the program backwards, and what it can raise. -/

namespace CarbonMessaging.FaultyCalls

variable {ε σ α β : Type}

def GoesThrough (n : Nat) (outcomes : List (Option ε)) : Prop :=
  ∀ outcome ∈ outcomes.take n, outcome = none

@[simp] theorem goesThrough_zero (outcomes : List (Option ε)) : GoesThrough 0 outcomes := by
  simp [GoesThrough]

@[simp] theorem goesThrough_nil (n : Nat) : GoesThrough n ([] : List (Option ε)) := by
  simp [GoesThrough]

theorem goesThrough_add (m n : Nat) (outcomes : List (Option ε)) :
    GoesThrough (m + n) outcomes ↔ GoesThrough m outcomes ∧ GoesThrough n (outcomes.drop m) := by
  simp only [GoesThrough, List.take_add, List.mem_append, or_imp, forall_and]

section
variable {x : Prog ε σ α} {site : Site ε σ} {a : α} {t : Site ε σ}

theorem bind_eq_ok {f : α → Prog ε σ β} {b : β} {u : Site ε σ} :
    (x >>= f) site = .ok b u ↔ ∃ a t, x site = .ok a t ∧ f a t = .ok b u := by
  rw [bind_apply]
  cases x site with
  | ok a t => simp
  | error e t => simp

theorem bind_eq_error {f : α → Prog ε σ β} {e : ε} {u : Site ε σ} :
    (x >>= f) site = .error e u ↔
      x site = .error e u ∨ ∃ a t, x site = .ok a t ∧ f a t = .error e u := by
  rw [bind_apply]
  cases x site with
  | ok a t => simp
  | error e t => simp

/-- A loop that fails has failed at one of its elements, behind those that went through. -/
theorem forEach_eq_error {f : α → Prog ε σ Unit} {l : List α} {e : ε}
    (h : forEach f l site = .error e t) : ∃ done a rest u, l = done ++ a :: rest ∧
      forEach f done site = .ok () u ∧ f a u = .error e t := by
  induction l generalizing site with
  | nil => cases h
  | cons a l ih =>
    obtain hfails | ⟨_, s, hfirst, hrest⟩ := bind_eq_error.1 h
    · exact ⟨[], a, l, site, rfl, rfl, hfails⟩
    · obtain ⟨done, b, rest, u, rfl, hdone, hfails⟩ := ih hrest
      refine ⟨a :: done, b, rest, u, rfl, ?_, hfails⟩
      exact bind_eq_ok.2 ⟨(), s, hfirst, hdone⟩

theorem handling_eq_ok {f : ε → Prog ε σ α} : handling x f site = .ok a t ↔
    x site = .ok a t ∨ ∃ e u, x site = .error e u ∧ f e u = .ok a t := by
  rw [handling_apply]
  cases x site with
  | ok a t => simp
  | error e t => simp

theorem query_eq_ok {f : σ → α} {s : σ} {outcomes : List (Option ε)} :
    (query f : Prog ε σ α) ⟨s, outcomes⟩ = .ok a t ↔
      GoesThrough 1 outcomes ∧ f s = a ∧ ⟨s, outcomes.drop 1⟩ = t := by
  match outcomes with
  | [] => simp [query, call]
  | none :: rest => simp [query, call, GoesThrough]
  | some e :: rest => simp [query, call, GoesThrough]

theorem poke_eq_ok {f : σ → σ} {a : Unit} : (poke f : Prog ε σ Unit) site = .ok a t ↔
    ⟨f site.state, site.outcomes⟩ = t := by
  simp

end

section
variable {S K : ε → Prop} {x : Prog ε σ α}

def OutcomesWithin (S : ε → Prop) (outcomes : List (Option ε)) : Prop :=
  ∀ e, some e ∈ outcomes → S e

def RaisesWithin (S K : ε → Prop) (x : Prog ε σ α) : Prop :=
  ∀ site, OutcomesWithin S site.outcomes →
    match x site with
    | .ok _ t => OutcomesWithin S t.outcomes
    | .error e t => K e ∧ OutcomesWithin S t.outcomes

theorem raisesWithin_pure (a : α) : RaisesWithin S K (pure a : Prog ε σ α) := fun _ h => h

theorem raisesWithin_raise {e : ε} (he : K e) : RaisesWithin S K (raise e : Prog ε σ α) :=
  fun _ h => ⟨he, h⟩

theorem raisesWithin_poke (f : σ → σ) : RaisesWithin S K (poke f : Prog ε σ Unit) :=
  fun _ h => h

theorem raisesWithin_query (hS : ∀ e, S e → K e) (f : σ → α) :
    RaisesWithin S K (query f : Prog ε σ α) := by
  rintro ⟨s, outcomes⟩ h
  match outcomes with
  | [] => exact h
  | none :: rest => exact fun e he => h e (List.mem_cons_of_mem _ he)
  | some e :: rest =>
    exact ⟨hS e (h e List.mem_cons_self), fun e' he' => h e' (List.mem_cons_of_mem _ he')⟩

theorem raisesWithin_bind {f : α → Prog ε σ β} (hx : RaisesWithin S K x)
    (hf : ∀ a, RaisesWithin S K (f a)) : RaisesWithin S K (x >>= f) := by
  intro site h
  have hx := hx site h
  rw [bind_apply]
  cases hr : x site with
  | ok a t => rw [hr] at hx; exact hf a t hx
  | error e t => rw [hr] at hx; exact hx

theorem raisesWithin_handling {K' : ε → Prop} {f : ε → Prog ε σ α} (hx : RaisesWithin S K x)
    (hf : ∀ e, K e → RaisesWithin S K' (f e)) : RaisesWithin S K' (handling x f) := by
  intro site h
  have hx := hx site h
  rw [handling_apply]
  cases hr : x site with
  | ok a t => rw [hr] at hx; exact hx
  | error e t => rw [hr] at hx; exact hf e hx.1 t hx.2

end

end CarbonMessaging.FaultyCalls
