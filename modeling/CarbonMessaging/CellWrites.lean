import Mathlib.Data.List.Basic
import Mathlib.Logic.Function.Basic
import Mathlib.Tactic

/-! A total map whose cells are overwritten one at a time: after a list of writes a cell holds
the value written to it last, and its old value when nothing was written to it. -/

namespace CarbonMessaging.CellWrites

variable {α κ ν μ : Type}

/-- The answer of `g` at the last element of the list that has one. -/
def lastSome (g : α → Option ν) : List α → Option ν
  | [] => none
  | a :: l => (lastSome g l).or (g a)

def lastWrite [DecidableEq κ] (k : κ) (writes : List (κ × ν)) : Option ν :=
  lastSome (fun write => if write.1 = k then some write.2 else none) writes

def applyWrites [DecidableEq κ] (f : κ → ν) (writes : List (κ × ν)) : κ → ν :=
  writes.foldl (fun f write => Function.update f write.1 write.2) f

@[simp] theorem lastSome_append (g : α → Option ν) (l l' : List α) :
    lastSome g (l ++ l') = (lastSome g l').or (lastSome g l) := by
  induction l with
  | nil => simp [lastSome]
  | cons a l ih => simp [lastSome, ih, Option.or_assoc]

theorem lastSome_eq_none_iff {g : α → Option ν} {l : List α} :
    lastSome g l = none ↔ ∀ a ∈ l, g a = none := by
  induction l with
  | nil => simp [lastSome]
  | cons a l ih => simp [lastSome, ih, and_comm]

theorem lastSome_eq_some_iff {g : α → Option ν} {l : List α} {v : ν} :
    lastSome g l = some v ↔
      ∃ before a later, l = before ++ a :: later ∧ g a = some v ∧ ∀ b ∈ later, g b = none := by
  constructor
  · induction l with
    | nil => simp [lastSome]
    | cons a l ih =>
      intro h
      rcases hl : lastSome g l with _ | u
      · rw [lastSome, hl, Option.none_or] at h
        exact ⟨[], a, l, rfl, h, lastSome_eq_none_iff.1 hl⟩
      · rw [lastSome, hl, Option.some_or] at h
        obtain ⟨before, b, later, rfl, hb, hlater⟩ := ih (hl.trans h)
        exact ⟨a :: before, b, later, rfl, hb, hlater⟩
  · rintro ⟨before, a, later, rfl, ha, hlater⟩
    simp [lastSome, lastSome_eq_none_iff.2 hlater, ha]

theorem lastSome_map (h : ν → μ) (g : α → Option ν) (l : List α) :
    (lastSome g l).map h = lastSome (fun a => (g a).map h) l := by
  induction l with
  | nil => rfl
  | cons a l ih =>
    rw [lastSome, lastSome, ← ih]
    cases lastSome g l <;> simp

theorem lastSome_congr {g g' : α → Option ν} {l : List α} (h : ∀ a ∈ l, g a = g' a) :
    lastSome g l = lastSome g' l := by
  induction l with
  | nil => rfl
  | cons a l ih =>
    rw [lastSome, lastSome, h a (by simp), ih fun b hb => h b (by simp [hb])]

theorem lastSome_const {p : α → Prop} [DecidablePred p] (v : ν) (l : List α) :
    lastSome (fun a => if p a then some v else none) l =
      if ∃ a ∈ l, p a then some v else none := by
  induction l with
  | nil => simp [lastSome]
  | cons a l ih =>
    rw [lastSome, ih]
    by_cases hl : ∃ b ∈ l, p b
    · obtain ⟨b, hb, hp⟩ := hl
      rw [if_pos ⟨b, hb, hp⟩, Option.some_or]
      exact (if_pos ⟨b, List.mem_cons_of_mem a hb, hp⟩).symm
    · rw [if_neg hl, Option.none_or]
      refine if_congr ?_ rfl rfl
      rw [List.exists_mem_cons_iff, or_iff_left hl]

theorem lastSome_of_const {p : α → Prop} [DecidablePred p] {g : α → ν} (v : ν) {l : List α}
    (h : ∀ a ∈ l, g a = v) : lastSome (fun a => if p a then some (g a) else none) l =
      if ∃ a ∈ l, p a then some v else none := by
  rw [← lastSome_const]
  refine lastSome_congr fun a ha => ?_
  rw [h a ha]

theorem lastSome_perm {g : α → Option ν} {l l' : List α} (hperm : l.Perm l') :
    l.Pairwise (fun a b => g a = none ∨ g b = none) → lastSome g l = lastSome g l' := by
  induction hperm with
  | nil => exact fun _ => rfl
  | cons a _ ih =>
    intro hone
    rw [lastSome, lastSome, ih (List.pairwise_cons.1 hone).2]
  | swap a b l =>
    intro hone
    have hab := (List.pairwise_cons.1 hone).1 a (by simp)
    rw [lastSome, lastSome, lastSome, lastSome, Option.or_assoc, Option.or_assoc]
    rcases hab with h | h <;> simp [h]
  | trans hperm _ ih ih' =>
    intro hone
    refine (ih hone).trans (ih' ?_)
    exact (hperm.pairwise_iff fun h => h.symm).1 hone

theorem lastWrite_flatMap [DecidableEq κ] (k : κ) (f : α → List (κ × ν)) (l : List α) :
    lastWrite k (l.flatMap f) = lastSome (fun a => lastWrite k (f a)) l := by
  induction l with
  | nil => rfl
  | cons a l ih =>
    rw [List.flatMap_cons, lastWrite, lastSome_append, lastSome, ← ih]
    rfl

theorem applyWrites_apply [DecidableEq κ] (f : κ → ν) (writes : List (κ × ν)) (k : κ) :
    applyWrites f writes k = (lastWrite k writes).getD (f k) := by
  induction writes generalizing f with
  | nil => rfl
  | cons write writes ih =>
    rw [applyWrites, List.foldl_cons]
    change applyWrites (Function.update f write.1 write.2) writes k = _
    rw [ih, lastWrite, lastWrite, lastSome]
    rcases lastSome _ writes with _ | v
    · by_cases hk : write.1 = k
      · simp [hk]
      · simp [hk, Function.update_of_ne (Ne.symm hk)]
    · rfl

theorem applyWrites_idem [DecidableEq κ] (f : κ → ν) (writes : List (κ × ν)) :
    applyWrites (applyWrites f writes) writes = applyWrites f writes := by
  funext k
  rw [applyWrites_apply, applyWrites_apply]
  cases lastWrite k writes <;> rfl

end CarbonMessaging.CellWrites
