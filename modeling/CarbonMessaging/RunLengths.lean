import Mathlib.Data.List.Chain
import Mathlib.Data.List.Sort
import Mathlib.Tactic

/-! The runs of a list, found by a loop that carries a key and a counter, and lists that have
filling put between their consecutive elements. -/

namespace CarbonMessaging.RunLengths

section Runs

variable {α : Type*} [DecidableEq α]

/-- The runs of a list that goes on from `count` copies of `key`. -/
def runLengths (key : α) (count : Nat) : List α → List (α × Nat)
  | [] => [(key, count)]
  | a :: l =>
    if a = key then runLengths key (count + 1) l else (key, count) :: runLengths a 1 l

theorem sum_runLengths (key : α) (count : Nat) (l : List α) :
    ((runLengths key count l).map Prod.snd).sum = count + l.length := by
  induction l generalizing key count with
  | nil => simp [runLengths]
  | cons a l ih =>
    rw [runLengths]
    split
    · rw [ih, List.length_cons]
      omega
    · rw [List.map_cons, List.sum_cons, ih, List.length_cons]
      omega

theorem runLengths_cons (key : α) (count : Nat) (l : List α) :
    ∃ n rest, runLengths key count l = (key, n) :: rest := by
  induction l generalizing count with
  | nil => exact ⟨count, [], rfl⟩
  | cons a l ih =>
    rw [runLengths]
    split
    · exact ih (count + 1)
    · exact ⟨count, _, rfl⟩

end Runs

section Sorted

variable {α : Type*} [LinearOrder α] {key : α} {l : List α}

theorem not_mem_of_sorted {a : α} (h : (key :: a :: l).Pairwise (· ≤ ·)) (hne : a ≠ key) :
    ∀ b ∈ a :: l, key < b := by
  intro b hb
  have hkey : key < a := ((List.pairwise_cons.1 h).1 a List.mem_cons_self).lt_of_ne' hne
  rcases List.mem_cons.1 hb with rfl | hb
  · exact hkey
  · exact hkey.trans_le ((List.pairwise_cons.1 (List.pairwise_cons.1 h).2).1 b hb)

theorem mem_runLengths (h : (key :: l).Pairwise (· ≤ ·)) {count n : Nat} {a : α} :
    (a, n) ∈ runLengths key count l ↔
      a ∈ key :: l ∧ n = l.count a + if a = key then count else 0 := by
  induction l generalizing key count with
  | nil =>
    rw [runLengths, List.mem_singleton, List.mem_singleton, Prod.mk.injEq, List.count_nil]
    refine and_congr_right fun hkey => ?_
    rw [if_pos hkey, Nat.zero_add]
  | cons b l ih =>
    rw [runLengths]
    split
    · rename_i hb
      subst hb
      rw [ih (List.pairwise_cons.1 h).2, List.count_cons]
      have hcount : (if a = b then count + 1 else 0) =
          (if (b == a) = true then 1 else 0) + if a = b then count else 0 := by
        by_cases hab : a = b
        · simp [hab, Nat.add_comm]
        · simp [hab, Ne.symm hab]
      rw [hcount, Nat.add_assoc]
      simp only [List.mem_cons, or_self_left]
    · rename_i hb
      have habove := not_mem_of_sorted h hb
      rw [List.mem_cons, Prod.mk.injEq, ih (List.pairwise_cons.1 h).2, List.mem_cons (b := key)]
      by_cases hkey : a = key
      · -- the key does not come again
        have hnot : key ∉ b :: l := fun hmem => lt_irrefl _ (habove key hmem)
        rw [hkey, if_pos rfl, List.count_eq_zero_of_not_mem hnot, Nat.zero_add]
        simp only [hnot, false_and, or_false, true_and]
      · rw [if_neg hkey, List.count_cons, Nat.add_zero]
        have hcount : (if a = b then 1 else 0) = if (b == a) = true then 1 else 0 := by
          by_cases hab : a = b
          · simp [hab]
          · simp [hab, Ne.symm hab]
        simp only [hkey, false_and, false_or, hcount]

theorem pairwise_runLengths (h : (key :: l).Pairwise (· ≤ ·)) (count : Nat) :
    (runLengths key count l).Pairwise fun r s => r.1 < s.1 := by
  induction l generalizing key count with
  | nil => exact List.pairwise_singleton _ _
  | cons b l ih =>
    have htail := (List.pairwise_cons.1 h).2
    rw [runLengths]
    split
    · rename_i hb
      subst hb
      exact ih htail _
    · rename_i hb
      refine List.pairwise_cons.2 ⟨fun r hr => ?_, ih htail 1⟩
      exact not_mem_of_sorted h hb r.1 ((mem_runLengths htail).1 hr).1

end Sorted

section Interposed

variable {α β : Type*} (point : α → β) (fill : α → α → List β)

def interpose : List α → List β
  | [] => []
  | [a] => [point a]
  | a :: b :: l => point a :: (fill a b ++ interpose (b :: l))

variable {point fill}

theorem interpose_cons (a : α) (l : List α) :
    ∃ rest, interpose point fill (a :: l) = point a :: rest := by
  cases l with
  | nil => exact ⟨[], rfl⟩
  | cons b l => exact ⟨_, rfl⟩

theorem mem_interpose {l : List α} {x : β} :
    x ∈ interpose point fill l ↔
      (∃ a ∈ l, x = point a) ∨ ∃ a b, [a, b] <:+: l ∧ x ∈ fill a b := by
  induction l using interpose.induct with
  | case1 => simp [interpose]
  | case2 a =>
    rw [interpose, List.mem_singleton]
    refine ⟨fun hx => .inl ⟨a, List.mem_singleton_self a, hx⟩, ?_⟩
    rintro (⟨b, hb, hx⟩ | ⟨b, c, hpair, -⟩)
    · rwa [List.mem_singleton.1 hb] at hx
    · exact absurd hpair.length_le (by simp)
  | case3 a b l ih =>
    rw [interpose, List.mem_cons, List.mem_append, ih]
    constructor
    · rintro (hx | hx | ⟨c, hc, hx⟩ | ⟨c, d, hpair, hx⟩)
      · exact .inl ⟨a, List.mem_cons_self, hx⟩
      · exact .inr ⟨a, b, ⟨[], l, rfl⟩, hx⟩
      · exact .inl ⟨c, List.mem_cons_of_mem _ hc, hx⟩
      · exact .inr ⟨c, d, List.infix_cons hpair, hx⟩
    · rintro (⟨c, hc, hx⟩ | ⟨c, d, hpair, hx⟩)
      · rcases List.mem_cons.1 hc with rfl | hc
        · exact .inl hx
        · exact .inr (.inr (.inl ⟨c, hc, hx⟩))
      · rcases List.infix_cons_iff.1 hpair with hfirst | hlater
        · obtain ⟨rfl, hsecond⟩ := List.cons_prefix_cons.1 hfirst
          obtain ⟨rfl, -⟩ := List.cons_prefix_cons.1 hsecond
          exact .inr (.inl hx)
        · exact .inr (.inr (.inr ⟨c, d, hlater, hx⟩))

theorem infix_interpose {l : List α} {a b : α} (h : [a, b] <:+: l) :
    point a :: (fill a b ++ [point b]) <:+: interpose point fill l := by
  induction l using interpose.induct with
  | case1 => exact absurd h.length_le (by simp)
  | case2 c => exact absurd h.length_le (by simp)
  | case3 c d l ih =>
    rw [interpose]
    rcases List.infix_cons_iff.1 h with hfirst | hlater
    · obtain ⟨rfl, hsecond⟩ := List.cons_prefix_cons.1 hfirst
      obtain ⟨rfl, -⟩ := List.cons_prefix_cons.1 hsecond
      obtain ⟨rest, hrest⟩ := @interpose_cons α β point fill b l
      rw [hrest]
      exact ⟨[], rest, by simp⟩
    · exact (ih hlater).trans ⟨point c :: fill c d, [], by simp⟩

theorem pairwise_interpose {R : β → β → Prop} [IsTrans β R] {l : List α}
    (h : ∀ a b, [a, b] <:+: l → (point a :: (fill a b ++ [point b])).Pairwise R) :
    (interpose point fill l).Pairwise R := by
  rw [← List.isChain_iff_pairwise]
  induction l using interpose.induct with
  | case1 => exact .nil
  | case2 a => exact .singleton _
  | case3 a b l ih =>
    have hfirst := (h a b ⟨[], l, rfl⟩).isChain
    have hrest := ih fun c d hpair => h c d (List.infix_cons hpair)
    obtain ⟨rest, hhead⟩ := @interpose_cons α β point fill b l
    rw [interpose]
    rw [hhead] at hrest ⊢
    rw [← List.cons_append] at hfirst ⊢
    exact List.isChain_split.2 ⟨hfirst, hrest⟩

theorem sum_interpose {value : β → Nat} {l : List α} (h : ∀ a b, ∀ x ∈ fill a b, value x = 0) :
    ((interpose point fill l).map value).sum = (l.map fun a => value (point a)).sum := by
  induction l using interpose.induct with
  | case1 => rfl
  | case2 a => rfl
  | case3 a b l ih =>
    have hfill : ((fill a b).map value).sum = 0 := by
      refine List.sum_eq_zero fun n hn => ?_
      obtain ⟨x, hx, rfl⟩ := List.mem_map.1 hn
      exact h a b x hx
    rw [interpose, List.map_cons, List.map_append, List.sum_cons, List.sum_append, hfill, ih,
      Nat.zero_add]
    rfl

end Interposed

section Keys

variable {α : Type*} {R : α → α → Prop} {l : List α}

theorem infix_of_pairwise (hR : ∀ a b, R a b → ¬R b a) (h : l.Pairwise R) {a b : α} (ha : a ∈ l)
    (hb : b ∈ l) (hab : R a b) (hnone : ∀ c ∈ l, ¬(R a c ∧ R c b)) : [a, b] <:+: l := by
  induction l with
  | nil => cases ha
  | cons c l ih =>
    obtain ⟨hfirst, hrest⟩ := List.pairwise_cons.1 h
    have hself : ¬R a a := fun haa => hR a a haa haa
    rcases List.mem_cons.1 hb with rfl | hlater
    · rcases List.mem_cons.1 ha with rfl | ha
      · exact absurd hab hself
      · exact absurd (hfirst a ha) (hR a b hab)
    · rcases List.mem_cons.1 ha with rfl | ha
      · cases l with
        | nil => cases hlater
        | cons d l =>
          rcases List.mem_cons.1 hlater with rfl | hlater
          · exact ⟨[], l, rfl⟩
          · refine absurd ⟨hfirst d List.mem_cons_self, ?_⟩ (hnone d (by simp))
            exact (List.pairwise_cons.1 hrest).1 b hlater
      · exact List.infix_cons (ih hrest ha hlater fun d hd => hnone d (List.mem_cons_of_mem _ hd))

theorem filter_eq_singleton {p : α → Bool} {a : α} (h : l.Pairwise R) (ha : a ∈ l)
    (hp : p a = true) (hbefore : ∀ b, p b = true → ¬R b a) (hafter : ∀ b, p b = true → ¬R a b) :
    l.filter p = [a] := by
  induction l with
  | nil => cases ha
  | cons c l ih =>
    obtain ⟨hfirst, hrest⟩ := List.pairwise_cons.1 h
    rcases List.mem_cons.1 ha with rfl | ha
    · rw [List.filter_cons_of_pos hp, List.filter_eq_nil_iff.2]
      exact fun b hb hpb => hafter b hpb (hfirst b hb)
    · rw [List.filter_cons_of_neg fun hpc => hbefore c hpc (hfirst a ha)]
      exact ih hrest ha

end Keys

end CarbonMessaging.RunLengths
