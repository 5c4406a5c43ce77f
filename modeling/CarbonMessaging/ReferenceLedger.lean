import Mathlib.Data.List.Infix
import Mathlib.Logic.Function.Basic
import Mathlib.Tactic

/-! Shared resources under a reference count. A holding exists only with a positive count, and
remembers what was said by the acquisition that founded it. -/

namespace CarbonMessaging.ReferenceLedger

variable {κ ν : Type}

structure Holding (ν : Type) where
  count : Nat
  founder : ν
  positive : 0 < count

def Holding.found (v : ν) : Holding ν := ⟨1, v, Nat.one_pos⟩

def Holding.share (h : Holding ν) : Holding ν := ⟨h.count + 1, h.founder, Nat.succ_pos _⟩

def Holding.leave (h : Holding ν) : Option (Holding ν) :=
  if many : 1 < h.count then some ⟨h.count - 1, h.founder, by omega⟩ else none

abbrev Ledger (κ ν : Type) := κ → Option (Holding ν)

inductive Op (κ ν : Type) where
  | acquire (k : κ) (v : ν)
  | release (k : κ)

def count (ledger : Ledger κ ν) (k : κ) : Nat := ((ledger k).map Holding.count).getD 0

theorem count_pos_iff (ledger : Ledger κ ν) (k : κ) :
    0 < count ledger k ↔ ∃ h, ledger k = some h := by
  cases hk : ledger k with
  | none => simp [count, hk]
  | some h => simpa [count, hk] using h.positive

variable [DecidableEq κ]

def apply (ledger : Ledger κ ν) : Op κ ν → Ledger κ ν
  | .acquire k v => Function.update ledger k
      (some (((ledger k).map Holding.share).getD (.found v)))
  | .release k => Function.update ledger k ((ledger k).bind Holding.leave)

def run (ops : List (Op κ ν)) : Ledger κ ν := ops.foldl apply fun _ => none

/-- The counter that acquisitions of `k` raise and releases lower, never below zero. -/
def uses (k : κ) (ops : List (Op κ ν)) : Nat :=
  ops.foldl (fun n op => match op with
    | .acquire k' _ => if k' = k then n + 1 else n
    | .release k' => if k' = k then n - 1 else n) 0

theorem run_append (ops : List (Op κ ν)) (op : Op κ ν) :
    run (ops ++ [op]) = apply (run ops) op := by
  rw [run, List.foldl_append]
  rfl

theorem uses_acquire (k k' : κ) (v : ν) (ops : List (Op κ ν)) :
    uses k (ops ++ [.acquire k' v]) = if k' = k then uses k ops + 1 else uses k ops := by
  rw [uses, List.foldl_append]
  rfl

theorem uses_release (k k' : κ) (ops : List (Op κ ν)) :
    uses k (ops ++ [.release k']) = if k' = k then uses k ops - 1 else uses k ops := by
  rw [uses, List.foldl_append]
  rfl

theorem count_run (k : κ) (ops : List (Op κ ν)) : count (run ops) k = uses k ops := by
  induction ops using List.reverseRecOn with
  | nil => rfl
  | append_singleton ops op ih =>
    rw [run_append]
    cases op with
    | acquire k' v =>
      rw [uses_acquire, ← ih]
      by_cases hk : k' = k
      · subst hk
        cases hold : run ops k' <;>
          simp [count, apply, hold, Holding.found, Holding.share]
      · simp [count, apply, Function.update_of_ne (Ne.symm hk), hk]
    | release k' =>
      rw [uses_release, ← ih]
      by_cases hk : k' = k
      · subst hk
        cases hold : run ops k' with
        | none => simp [count, apply, hold]
        | some h =>
          have hpos := h.positive
          by_cases many : 1 < h.count
          · simp [count, apply, hold, Holding.leave, many]
          · simp [count, apply, hold, Holding.leave, many]
            omega
      · simp [count, apply, Function.update_of_ne (Ne.symm hk), hk]

theorem founder_apply {k : κ} {ledger : Ledger κ ν} {op : Op κ ν} {h : Holding ν}
    (hold : apply ledger op k = some h) :
    (∃ h', ledger k = some h' ∧ h'.founder = h.founder) ∨
      (ledger k = none ∧ op = .acquire k h.founder) := by
  cases op with
  | acquire k' v =>
    by_cases hk : k' = k
    · subst hk
      rw [apply, Function.update_self] at hold
      cases hbefore : ledger k' with
      | none =>
        rw [hbefore] at hold
        cases hold
        exact .inr ⟨rfl, rfl⟩
      | some h' =>
        rw [hbefore] at hold
        cases hold
        exact .inl ⟨h', rfl, rfl⟩
    · rw [apply, Function.update_of_ne (Ne.symm hk)] at hold
      exact .inl ⟨h, hold, rfl⟩
  | release k' =>
    by_cases hk : k' = k
    · subst hk
      rw [apply, Function.update_self] at hold
      obtain ⟨h', hbefore, hleave⟩ := Option.bind_eq_some_iff.1 hold
      unfold Holding.leave at hleave
      split at hleave
      · cases hleave
        exact .inl ⟨h', hbefore, rfl⟩
      · cases hleave
    · rw [apply, Function.update_of_ne (Ne.symm hk)] at hold
      exact .inl ⟨h, hold, rfl⟩

/-- The founder is the value of the acquisition that last took the counter from zero to one. -/
theorem run_founder {k : κ} {ops : List (Op κ ν)} {h : Holding ν} (hold : run ops k = some h) :
    ∃ before later, ops = before ++ .acquire k h.founder :: later ∧ uses k before = 0 ∧
      ∀ mid, mid <+: later → 0 < uses k (before ++ .acquire k h.founder :: mid) := by
  induction ops using List.reverseRecOn generalizing h with
  | nil => cases hold
  | append_singleton ops op ih =>
    have hnow : 0 < uses k (ops ++ [op]) := by
      rw [← count_run]
      exact (count_pos_iff _ _).2 ⟨h, hold⟩
    rw [run_append] at hold
    rcases founder_apply hold with ⟨h', hbefore, hfounder⟩ | ⟨hbefore, rfl⟩
    · obtain ⟨before, later, rfl, hzero, hkept⟩ := ih hbefore
      rw [hfounder] at hkept hnow ⊢
      refine ⟨before, later ++ [op], by simp, hzero, fun mid hmid => ?_⟩
      rcases List.prefix_concat_iff.1 hmid with rfl | hmid
      · simpa using hnow
      · exact hkept mid hmid
    · have hzero : uses k ops = 0 := by
        rw [← count_run]
        simp [count, hbefore]
      refine ⟨ops, [], rfl, hzero, fun mid hmid => ?_⟩
      rw [List.prefix_nil.1 hmid]
      exact hnow

end CarbonMessaging.ReferenceLedger
