import CarbonMessaging.JavaScriptNumbers

/-! `Array.prototype.sort` without a comparator, which orders numbers by their strings. Numbers
with equally many digits come in their own order. -/

namespace CarbonMessaging.JavaScriptNumbers

def numberString (x : Nat) : List Char := Nat.toDigits 10 (concatenated x)

def defaultSort (l : List Nat) : List Nat :=
  l.mergeSort fun x y => !decide (numberString y < numberString x)

theorem ofDigitChars_lt {s : List Char} (h : ∀ c ∈ s, c.isDigit = true) :
    Nat.ofDigitChars 10 s 0 < 10 ^ s.length := by
  induction s with
  | nil => simp
  | cons c s ih =>
    rw [List.forall_mem_cons] at h
    have hhigh : c.toNat ≤ 57 := (Char.isDigit_iff_toNat.1 h.1).2
    have hdigit : c.toNat - '0'.toNat ≤ 9 := by
      change c.toNat - 48 ≤ 9
      omega
    rw [Nat.ofDigitChars_cons, Nat.ofDigitChars_eq_ofDigitChars_zero, List.length_cons, pow_succ]
    have hrest := ih h.2
    nlinarith

theorem lt_of_ofDigitChars_lt {s t : List Char} (hs : ∀ c ∈ s, c.isDigit = true)
    (ht : ∀ c ∈ t, c.isDigit = true) (hlength : s.length = t.length)
    (h : Nat.ofDigitChars 10 s 0 < Nat.ofDigitChars 10 t 0) : s < t := by
  induction s generalizing t with
  | nil =>
    rw [List.length_nil, eq_comm, List.length_eq_zero_iff] at hlength
    rw [hlength] at h
    exact absurd h (lt_irrefl _)
  | cons a s ih =>
    cases t with
    | nil => cases hlength
    | cons b t =>
      rw [List.forall_mem_cons] at hs ht
      have hlength : s.length = t.length := Nat.succ.inj hlength
      have hvalue := ofDigitChars_lt ht.2
      have hlow : 48 ≤ b.toNat := (Char.isDigit_iff_toNat.1 ht.1).1
      rw [Nat.ofDigitChars_cons, Nat.ofDigitChars_cons, Nat.ofDigitChars_eq_ofDigitChars_zero,
        @Nat.ofDigitChars_eq_ofDigitChars_zero t, hlength] at h
      change 10 ^ t.length * (10 * 0 + (a.toNat - 48)) + _ <
        10 ^ t.length * (10 * 0 + (b.toNat - 48)) + _ at h
      rw [List.cons_lt_cons_iff]
      rcases lt_trichotomy a.toNat b.toNat with hab | hab | hab
      · exact .inl hab
      · have hsame : a = b := Char.toNat_inj.1 hab
        rw [hsame] at h
        exact .inr ⟨hsame, ih hs.2 ht.2 hlength (by omega)⟩
      · -- a larger digit in front outweighs what follows
        have hstep : 10 ^ t.length * (10 * 0 + (b.toNat - 48)) + 10 ^ t.length ≤
            10 ^ t.length * (10 * 0 + (a.toNat - 48)) := by
          rw [← Nat.mul_succ]
          exact Nat.mul_le_mul_left _ (by omega)
        omega

theorem toDigits_lt {m n : Nat} (hlength : (Nat.toDigits 10 m).length = (Nat.toDigits 10 n).length)
    (h : m < n) : Nat.toDigits 10 m < Nat.toDigits 10 n := by
  have hdigits : ∀ k, ∀ c ∈ Nat.toDigits 10 k, c.isDigit = true := fun k c hc =>
    Nat.isDigit_of_mem_toDigits (by decide) (by decide) hc
  refine lt_of_ofDigitChars_lt (hdigits m) (hdigits n) hlength ?_
  rwa [Nat.ofDigitChars_ten_toDigits, Nat.ofDigitChars_ten_toDigits]

theorem perm_defaultSort (l : List Nat) : (defaultSort l).Perm l := List.mergeSort_perm l _

theorem pairwise_numberString (l : List Nat) :
    (defaultSort l).Pairwise fun x y => ¬numberString y < numberString x := by
  have htrans : ∀ x y z : Nat, (!decide (numberString y < numberString x)) = true →
      (!decide (numberString z < numberString y)) = true →
      (!decide (numberString z < numberString x)) = true := by
    intro x y z hxy hyz
    simp only [Bool.not_eq_true', decide_eq_false_iff_not, List.not_lt] at hxy hyz ⊢
    exact List.le_trans hxy hyz
  have htotal : ∀ x y : Nat, (!decide (numberString y < numberString x) ||
      !decide (numberString x < numberString y)) = true := by
    intro x y
    simp only [Bool.or_eq_true, Bool.not_eq_true', decide_eq_false_iff_not, List.not_lt]
    exact List.le_total _ _
  exact (List.pairwise_mergeSort htrans htotal l).imp fun h => by simpa using h

theorem length_numberString {x : Nat} (hx : round x = x) (hlt : x < 10 ^ 19) :
    (numberString x).length = (Nat.toDigits 10 x).length := by
  have hiff : ∀ n k : Nat, 0 < k → ((Nat.toDigits 10 n).length ≤ k ↔ n < 10 ^ k) := fun n k hk =>
    Nat.length_toDigits_le_iff (by decide) hk
  have hfew : (Nat.toDigits 10 x).length ≤ 19 := (hiff x 19 (by decide)).2 hlt
  have hprinted : (numberString x).length ≤ 19 :=
    (hiff _ 19 (by decide)).2 ((concatenated_lt_pow_iff hx (by decide)).2 hlt)
  have hpos := @Nat.length_toDigits_pos 10 x
  have hpos' := @Nat.length_toDigits_pos 10 (concatenated x)
  refine le_antisymm ?_ ?_
  · exact (hiff _ _ hpos).2 ((concatenated_lt_pow_iff hx (by omega)).2 ((hiff _ _ hpos).1 le_rfl))
  · rw [numberString] at hprinted ⊢
    exact (hiff _ _ hpos').2 ((concatenated_lt_pow_iff hx (by omega)).1 ((hiff _ _ hpos').1 le_rfl))

theorem pairwise_defaultSort {l : List Nat} (hround : ∀ x ∈ l, round x = x)
    (hlt : ∀ x ∈ l, x < 10 ^ 19)
    (hdigits : ∀ x ∈ l, ∀ y ∈ l, (Nat.toDigits 10 x).length = (Nat.toDigits 10 y).length) :
    (defaultSort l).Pairwise (· ≤ ·) := by
  refine (pairwise_numberString l).imp_of_mem fun {x y} hx hy hstrings => ?_
  have hx := (perm_defaultSort l).subset hx
  have hy := (perm_defaultSort l).subset hy
  by_contra hlarger
  refine hstrings (toDigits_lt ?_ (concatenated_lt (hround y hy) (hround x hx) (by omega)))
  change (numberString y).length = (numberString x).length
  rw [length_numberString (hround y hy) (hlt y hy), length_numberString (hround x hx) (hlt x hx)]
  exact hdigits y hy x hx

end CarbonMessaging.JavaScriptNumbers
