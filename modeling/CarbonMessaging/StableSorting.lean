import Mathlib.Data.List.Sort
import Mathlib.Tactic

/-! Stable sorting by a comparator, when the comparator orders the elements of one list: what a
sort has to deliver, that it can be delivered, and the comparators that read a key. -/

namespace CarbonMessaging.StableSorting

variable {α ε : Type} {compare : α → α → Int} {l : List α}

structure TotalPreorderOn (compare : α → α → Int) (l : List α) : Prop where
  opposite : ∀ a ∈ l, ∀ b ∈ l, 0 < compare a b ↔ compare b a < 0
  trans : ∀ a ∈ l, ∀ b ∈ l, ∀ c ∈ l, compare a b ≤ 0 → compare b c ≤ 0 → compare a c ≤ 0

structure IsStableSort (compare : α → α → Int) (l sorted : List α) : Prop where
  perm : sorted.Perm l
  pairwise : sorted.Pairwise fun a b => compare a b ≤ 0
  stable : ∀ a ∈ l, (sorted.filter fun x => compare x a = 0) = l.filter fun x => compare x a = 0

/-- A sort that can be relied on where the comparator orders the elements; elsewhere it may give
anything or fail. -/
def SortsStably (sort : (α → α → Int) → List α → Except ε (List α)) : Prop :=
  ∀ compare l, TotalPreorderOn compare l →
    ∃ sorted, sort compare l = .ok sorted ∧ IsStableSort compare l sorted

theorem TotalPreorderOn.symm (h : TotalPreorderOn compare l) {a b : α} (ha : a ∈ l) (hb : b ∈ l)
    (hab : compare a b = 0) : compare b a ≤ 0 :=
  not_lt.1 fun hpos => ((h.opposite b hb a ha).1 hpos).ne hab

theorem TotalPreorderOn.tied (h : TotalPreorderOn compare l) {a b c : α} (ha : a ∈ l)
    (hb : b ∈ l) (hc : c ∈ l) (hac : compare a c = 0) (hbc : compare b c = 0) :
    compare a b ≤ 0 :=
  h.trans a ha c hc b hb hac.le (h.symm hb hc hbc)

theorem exists_isStableSort (h : TotalPreorderOn compare l) :
    ∃ sorted, IsStableSort compare l sorted := by
  let le (a b : { a // a ∈ l }) : Bool := decide (compare a.1 b.1 ≤ 0)
  have htrans : ∀ a b c, le a b → le b c → le a c := by
    intro a b c hab hbc
    exact decide_eq_true (h.trans a a.2 b b.2 c c.2 (of_decide_eq_true hab)
      (of_decide_eq_true hbc))
  have htotal : ∀ a b, le a b || le b a := by
    intro a b
    rcases le_or_gt (compare a.1 b.1) 0 with hab | hab
    · simp [le, hab]
    · simp [le, ((h.opposite a a.2 b b.2).1 hab).le]
  have hperm := List.mergeSort_perm l.attach le
  refine ⟨(l.attach.mergeSort le).map Subtype.val, ?_, ?_, fun c hc => ?_⟩
  · have hmap := hperm.map Subtype.val
    rwa [List.attach_map_subtype_val] at hmap
  · refine List.pairwise_map.2 ((List.pairwise_mergeSort htrans htotal l.attach).imp ?_)
    exact fun hab => of_decide_eq_true hab
  · -- the elements tied with `c` are a sublist in order already, so sorting keeps them
    let tied (x : { a // a ∈ l }) : Bool := decide (compare x.1 c = 0)
    have hordered : (l.attach.filter tied).Pairwise fun a b => le a b = true := by
      refine List.Pairwise.imp_of_mem ?_ (List.pairwise_of_forall fun _ _ => trivial)
      intro a b ha hb _
      exact decide_eq_true (h.tied a.2 b.2 hc (of_decide_eq_true (List.mem_filter.1 ha).2)
        (of_decide_eq_true (List.mem_filter.1 hb).2))
    have hsub := (List.sublist_mergeSort htrans htotal hordered List.filter_sublist).filter tied
    simp only [List.filter_filter, Bool.and_self] at hsub
    have hsame := hsub.eq_of_length (hperm.filter tied).length_eq.symm
    have hmap := congrArg (List.map Subtype.val) hsame
    conv_rhs => rw [← List.attach_map_subtype_val l]
    rw [List.filter_map, List.filter_map]
    exact hmap.symm

open Classical in
/-- The least that may be relied on: it fails wherever the comparator gives no order. -/
noncomputable def strictSort (e : ε) (compare : α → α → Int) (l : List α) : Except ε (List α) :=
  if h : TotalPreorderOn compare l then .ok (exists_isStableSort h).choose else .error e

theorem strictSort_ok {e : ε} {sorted : List α} (h : strictSort e compare l = .ok sorted) :
    TotalPreorderOn compare l ∧ IsStableSort compare l sorted := by
  unfold strictSort at h
  split at h
  · rename_i horder
    cases h
    exact ⟨horder, (exists_isStableSort horder).choose_spec⟩
  · cases h

theorem sortsStably_strictSort (e : ε) : SortsStably (strictSort e : _ → List α → _) := by
  intro compare l horder
  exact ⟨_, dif_pos horder, (exists_isStableSort horder).choose_spec⟩

theorem pairwise_or {R : α → α → Prop} (h : l.Pairwise R) {a b : α} (ha : a ∈ l) (hb : b ∈ l)
    (hne : a ≠ b) : R a b ∨ R b a := by
  have hsymm : Std.Symm fun x y => R x y ∨ R y x := ⟨fun _ _ => Or.symm⟩
  exact (h.imp fun {x y} hxy => (Or.inl hxy : R x y ∨ R y x)).forall ha hb hne

def DescendsBy (compare : α → α → Int) (key : α → Int) (l : List α) : Prop :=
  ∀ a ∈ l, ∀ b ∈ l, (compare a b < 0 ↔ key b < key a) ∧ (0 < compare a b ↔ key a < key b)

section
variable {key : α → Int} {sorted : List α}

theorem DescendsBy.totalPreorderOn (h : DescendsBy compare key l) : TotalPreorderOn compare l where
  opposite a ha b hb := (h a ha b hb).2.trans (h b hb a ha).1.symm
  trans a ha b hb c hc hab hbc := by
    have hkeys := not_lt.2 hab
    have hkeys' := not_lt.2 hbc
    rw [(h a ha b hb).2] at hkeys
    rw [(h b hb c hc).2] at hkeys'
    rw [← not_lt, (h a ha c hc).2]
    omega

theorem DescendsBy.eq_zero_iff (h : DescendsBy compare key l) {a b : α} (ha : a ∈ l)
    (hb : b ∈ l) : compare a b = 0 ↔ key a = key b := by
  have hkeys := h a ha b hb
  omega

theorem IsStableSort.pairwise_key (hsorted : IsStableSort compare l sorted)
    (h : DescendsBy compare key l) : sorted.Pairwise fun a b => key b ≤ key a := by
  refine hsorted.pairwise.imp_of_mem fun {a b} ha hb hab => ?_
  have hkeys := not_lt.2 hab
  rw [(h a (hsorted.perm.subset ha) b (hsorted.perm.subset hb)).2] at hkeys
  omega

theorem IsStableSort.filter_key (hsorted : IsStableSort compare l sorted)
    (h : DescendsBy compare key l) (k : Int) :
    (sorted.filter fun a => key a = k) = l.filter fun a => key a = k := by
  by_cases hk : ∃ a ∈ l, key a = k
  · obtain ⟨a, ha, rfl⟩ := hk
    have htied : ∀ x ∈ l, decide (key x = key a) = decide (compare x a = 0) := fun x hx =>
      decide_eq_decide.2 (h.eq_zero_iff hx ha).symm
    rw [List.filter_congr htied, ← hsorted.stable a ha]
    exact List.filter_congr fun x hx => htied x (hsorted.perm.subset hx)
  · have hnone : ∀ a ∈ l, ¬key a = k := fun a ha hka => hk ⟨a, ha, hka⟩
    rw [List.filter_eq_nil_iff.2 fun a ha => by simpa using hnone a (hsorted.perm.subset ha),
      List.filter_eq_nil_iff.2 fun a ha => by simpa using hnone a ha]

end

end CarbonMessaging.StableSorting
