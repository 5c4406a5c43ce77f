import CarbonMessaging.CellWrites

/-! Runs of a system in which every step sets a cell or leaves it. What a cell holds after a run
is decided by the last step that set it. -/

namespace CarbonMessaging.CellHistory

open CellWrites

variable {ι σ κ ν : Type}

def run (step : ι → σ → σ) (items : List ι) (s : σ) : σ := items.foldl (fun s i => step i s) s

def trace (step : ι → σ → σ) : List ι → σ → List (σ × ι)
  | [], _ => []
  | i :: items, s => (s, i) :: trace step items (step i s)

/-- `effect` tells what each step sets a cell to, if it sets it. -/
def Sets (step : ι → σ → σ) (value : σ → κ → ν) (effect : σ → ι → κ → Option ν) (k : κ) : Prop :=
  ∀ i s, value (step i s) k = (effect s i k).getD (value s k)

@[simp] theorem run_cons (step : ι → σ → σ) (i : ι) (items : List ι) (s : σ) :
    run step (i :: items) s = run step items (step i s) := rfl

theorem run_induction {step : ι → σ → σ} {I : σ → Prop} (h : ∀ i s, I s → I (step i s))
    (items : List ι) {s : σ} (hs : I s) : I (run step items s) := by
  induction items generalizing s with
  | nil => exact hs
  | cons i items ih => exact ih (h i s hs)

variable {step : ι → σ → σ} {value : σ → κ → ν} {effect : σ → ι → κ → Option ν} {k : κ}

theorem value_run (h : Sets step value effect k) (items : List ι) (s : σ) :
    value (run step items s) k =
      (lastSome (fun p => effect p.1 p.2 k) (trace step items s)).getD (value s k) := by
  induction items generalizing s with
  | nil => rfl
  | cons i items ih =>
    rw [run_cons, ih, trace, lastSome, h]
    cases lastSome (fun p => effect p.1 p.2 k) (trace step items (step i s)) <;> rfl

theorem lastSome_ne {α : Type} {g : α → Option ν} {l : List α} {v : ν}
    (h : ∀ a ∈ l, g a ≠ some v) : lastSome g l ≠ some v := by
  intro hlast
  obtain ⟨before, a, later, hsplit, ha, -⟩ := lastSome_eq_some_iff.1 hlast
  exact h a (by simp [hsplit]) ha

theorem getD_eq_true {o : Option Bool} {b : Bool} (ho : o ≠ some false) (hb : b = true) :
    o.getD b = true := by
  cases o with
  | none => exact hb
  | some c =>
    cases c with
    | true => rfl
    | false => exact absurd rfl ho

/-- A Boolean cell is set after a run exactly when some step set it, or it was set to begin with,
and no later step cleared it. -/
theorem set_after_run_iff {value : σ → κ → Bool} {effect : σ → ι → κ → Option Bool}
    (h : Sets step value effect k) (items : List ι) (s : σ) :
    value (run step items s) k = true ↔
      (∃ before p later, trace step items s = before ++ p :: later ∧
        effect p.1 p.2 k = some true ∧ ∀ q ∈ later, effect q.1 q.2 k ≠ some false) ∨
      (value s k = true ∧ ∀ q ∈ trace step items s, effect q.1 q.2 k ≠ some false) := by
  rw [value_run h]
  constructor
  · intro hset
    cases hlast : lastSome (fun p => effect p.1 p.2 k) (trace step items s) with
    | none =>
      rw [hlast] at hset
      refine .inr ⟨hset, fun q hq => ?_⟩
      rw [lastSome_eq_none_iff.1 hlast q hq]
      simp
    | some b =>
      rw [hlast, Option.getD_some] at hset
      rw [hset] at hlast
      obtain ⟨before, p, later, hsplit, hp, hlater⟩ := lastSome_eq_some_iff.1 hlast
      refine .inl ⟨before, p, later, hsplit, hp, fun q hq => ?_⟩
      rw [hlater q hq]
      simp
  · rintro (⟨before, p, later, hsplit, hp, hlater⟩ | ⟨hinit, hnone⟩)
    · have hlast := getD_eq_true (lastSome_ne hlater) rfl
      rw [hsplit, lastSome_append, lastSome, hp]
      cases hl : lastSome (fun p => effect p.1 p.2 k) later with
      | none => rfl
      | some b =>
        rw [hl] at hlast
        exact hlast
    · exact getD_eq_true (lastSome_ne hnone) hinit

end CarbonMessaging.CellHistory
