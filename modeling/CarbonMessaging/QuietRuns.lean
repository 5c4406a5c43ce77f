import CarbonMessaging.FaultyCalls

/-! Programs without handlers: a run that returns is the run in which every call goes through. -/

namespace CarbonMessaging.FaultyCalls

variable {ε σ α β : Type}

def ReturnsQuietly (x : Prog ε σ α) : Prop :=
  ∀ (site : Site ε σ) (a : α) (t : Site ε σ), x site = .ok a t →
    x ⟨site.state, []⟩ = .ok a ⟨t.state, []⟩

theorem returnsQuietly_pure (a : α) : ReturnsQuietly (pure a : Prog ε σ α) := by
  intro site b t h
  cases h
  rfl

theorem returnsQuietly_raise (e : ε) : ReturnsQuietly (raise e : Prog ε σ α) := by
  intro site b t h
  cases h

theorem returnsQuietly_orRaise (r : Except ε α) : ReturnsQuietly (orRaise r : Prog ε σ α) := by
  cases r with
  | ok a => exact returnsQuietly_pure a
  | error e => exact returnsQuietly_raise e

theorem returnsQuietly_peek (f : σ → α) : ReturnsQuietly (peek f : Prog ε σ α) := by
  intro site b t h
  cases h
  rfl

theorem returnsQuietly_call (op : σ → Except ε α × σ) : ReturnsQuietly (call op) := by
  rintro ⟨s, outcomes⟩ a t h
  have hop : op s = (.ok a, t.state) := by
    rcases outcomes with _ | ⟨_ | e, rest⟩
    · rw [call_quiet] at h
      split at h <;> cases h
      assumption
    · rw [call_through] at h
      split at h <;> cases h
      assumption
    · cases h
  rw [call_quiet, hop]

theorem returnsQuietly_query (f : σ → α) : ReturnsQuietly (query f : Prog ε σ α) :=
  returnsQuietly_call _

theorem returnsQuietly_bind {x : Prog ε σ α} {f : α → Prog ε σ β} (hx : ReturnsQuietly x)
    (hf : ∀ a, ReturnsQuietly (f a)) : ReturnsQuietly (x >>= f) := by
  intro site b t h
  rw [bind_apply] at h ⊢
  cases hr : x site with
  | ok a u =>
    rw [hr] at h
    rw [hx site a u hr]
    exact hf a u b t h
  | error e u =>
    rw [hr] at h
    cases h

theorem returnsQuietly_translate {f : ε → ε} {x : Prog ε σ α} (hx : ReturnsQuietly x) :
    ReturnsQuietly (translate f x) := by
  intro site a t h
  rw [translate_apply] at h ⊢
  cases hr : x site with
  | ok b u =>
    rw [hr] at h
    cases h
    rw [hx site a t hr]
  | error e u =>
    rw [hr] at h
    cases h

theorem returnsQuietly_mapM {f : α → Prog ε σ β} (hf : ∀ a, ReturnsQuietly (f a)) (l : List α) :
    ReturnsQuietly (l.mapM f) := by
  induction l with
  | nil => exact returnsQuietly_pure []
  | cons a l ih =>
    rw [List.mapM_cons]
    exact returnsQuietly_bind (hf a) fun b =>
      returnsQuietly_bind ih fun bs => returnsQuietly_pure (b :: bs)

end CarbonMessaging.FaultyCalls
