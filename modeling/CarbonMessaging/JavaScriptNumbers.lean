import Mathlib.Data.Nat.Log
import Mathlib.Tactic

/-! Integers as JavaScript numbers: the double nearest to an integer that a JSON text spells out,
and the integer that a number turns into when it is concatenated to a string. Up to
`Number.MAX_SAFE_INTEGER` neither step changes anything. The integers stand below `10 ^ 21`, where
numbers are written without an exponent. -/

namespace CarbonMessaging.JavaScriptNumbers

def MAX_SAFE_INTEGER : Nat := 2 ^ 53 - 1

/-- The nearest double, the even one of two that are equally near. -/
def round (n : Nat) : Nat :=
  if n < 2 ^ 53 then n
  else
    let unit := 2 ^ (n.log2 - 52)
    let below := n / unit
    let rest := n % unit
    if 2 * rest < unit ∨ (2 * rest = unit ∧ below % 2 = 0) then below * unit
    else (below + 1) * unit

def roundInt (n : Int) : Int := if n < 0 then -(round n.natAbs : Int) else round n.natAbs

def nearestMultiple (x e : Nat) : Option Nat :=
  let low := x / 10 ^ e * 10 ^ e
  let high := low + 10 ^ e
  if round low = x ∧ (round high ≠ x ∨ x - low ≤ high - x) then some low
  else if round high = x then some high
  else none

/-- `String(x)`: as few digits as are read back as this number, then zeros. -/
def shortest (x : Nat) : (e : Nat) → Nat
  | 0 => x
  | e + 1 => (nearestMultiple x (e + 1)).getD (shortest x e)

def concatenated (x : Nat) : Nat := shortest x 20

theorem round_of_lt {n : Nat} (h : n < 2 ^ 53) : round n = n := if_pos h

theorem round_of_safe {n : Nat} (h : n ≤ MAX_SAFE_INTEGER) : round n = n :=
  round_of_lt (by rw [MAX_SAFE_INTEGER] at h; omega)

theorem log2_bounds {n : Nat} (h : 2 ^ 53 ≤ n) :
    2 ^ 52 * 2 ^ (n.log2 - 52) ≤ n ∧ n < 2 ^ 53 * 2 ^ (n.log2 - 52) ∧ 1 ≤ n.log2 - 52 := by
  have hne : n ≠ 0 := by
    rintro rfl
    simp at h
  have hlog : 53 ≤ n.log2 := (Nat.le_log2 hne).2 h
  refine ⟨?_, ?_, by omega⟩
  · rw [← Nat.pow_add, Nat.add_sub_cancel' (by omega)]
    exact Nat.log2_self_le hne
  · rw [← Nat.pow_add, ← Nat.add_sub_assoc (by omega)]
    have hupper := Nat.lt_log2_self (n := n)
    rwa [show 53 + n.log2 - 52 = n.log2 + 1 by omega]

theorem round_of_dvd {n : Nat} (h : 2 ^ (n.log2 - 52) ∣ n) : round n = n := by
  rw [round]
  split
  · rfl
  · have hpos : 0 < 2 ^ (n.log2 - 52) := by positivity
    simp only [Nat.mod_eq_zero_of_dvd h, Nat.mul_zero, if_pos (Or.inl hpos)]
    exact Nat.div_mul_cancel h

theorem round_scaled {m e : Nat} (hlower : 2 ^ 52 ≤ m) (hupper : m ≤ 2 ^ 53) :
    round (m * 2 ^ e) = m * 2 ^ e := by
  have hpos : m * 2 ^ e ≠ 0 := by positivity
  refine round_of_dvd ?_
  rcases hupper.eq_or_lt with rfl | hlt
  · rw [← Nat.pow_add, Nat.log2_two_pow]
    exact pow_dvd_pow 2 (by omega)
  · have hlog : (m * 2 ^ e).log2 < 53 + e := by
      rw [Nat.log2_lt hpos, Nat.pow_add]
      exact Nat.mul_lt_mul_of_pos_right hlt (by positivity)
    exact Dvd.dvd.mul_left (pow_dvd_pow 2 (by omega)) m

theorem round_eq_scaled {n : Nat} (h : 2 ^ 53 ≤ n) : ∃ m, 2 ^ 52 ≤ m ∧ m ≤ 2 ^ 53 ∧
    round n = m * 2 ^ (n.log2 - 52) := by
  obtain ⟨hlower, hupper, -⟩ := log2_bounds h
  have hpos : 0 < 2 ^ (n.log2 - 52) := by positivity
  have hbelow : 2 ^ 52 ≤ n / 2 ^ (n.log2 - 52) := (Nat.le_div_iff_mul_le hpos).2 hlower
  have habove : n / 2 ^ (n.log2 - 52) < 2 ^ 53 := (Nat.div_lt_iff_lt_mul hpos).2 hupper
  rw [round, if_neg (by omega)]
  dsimp only
  split
  · exact ⟨_, hbelow, habove.le, rfl⟩
  · exact ⟨_, hbelow.trans (Nat.le_succ _), habove, rfl⟩

theorem round_round (n : Nat) : round (round n) = round n := by
  by_cases h : n < 2 ^ 53
  · rw [round_of_lt h, round_of_lt h]
  · obtain ⟨m, hlower, hupper, hm⟩ := round_eq_scaled (Nat.le_of_not_lt h)
    rw [hm, round_scaled hlower hupper]

theorem roundInt_natCast (n : Nat) : roundInt n = round n := if_neg (by omega)

theorem roundInt_neg_natCast (n : Nat) : roundInt (-n) = -(round n : Int) := by
  rw [roundInt, Int.natAbs_neg, Int.natAbs_natCast]
  split
  · rfl
  · have hzero : n = 0 := by omega
    rw [hzero, round_of_lt (by decide)]
    rfl

theorem roundInt_roundInt (n : Int) : roundInt (roundInt n) = roundInt n := by
  obtain ⟨m, rfl | rfl⟩ := n.eq_nat_or_neg
  · rw [roundInt_natCast, roundInt_natCast, round_round]
  · rw [roundInt_neg_natCast, roundInt_neg_natCast, round_round]

theorem le_round {n : Nat} (h : 2 ^ 53 ≤ n) : 2 ^ 53 ≤ round n := by
  obtain ⟨m, hlower, -, hm⟩ := round_eq_scaled h
  obtain ⟨-, -, hscale⟩ := log2_bounds h
  rw [hm]
  calc 2 ^ 53 = 2 ^ 52 * 2 ^ 1 := rfl
    _ ≤ m * 2 ^ (n.log2 - 52) := Nat.mul_le_mul hlower (Nat.pow_le_pow_right (by omega) hscale)

theorem eq_of_round_safe {n x : Nat} (hx : x ≤ MAX_SAFE_INTEGER) (h : round n = x) : n = x := by
  rw [MAX_SAFE_INTEGER] at hx
  by_cases hn : n < 2 ^ 53
  · rw [← h, round_of_lt hn]
  · have := le_round (Nat.le_of_not_lt hn)
    omega

theorem round_nearestMultiple {x e n : Nat} (h : nearestMultiple x e = some n) : round n = x := by
  simp only [nearestMultiple] at h
  split at h
  · rename_i hlow
    rw [← Option.some.inj h]
    exact hlow.1
  · split at h
    · rename_i hhigh
      rwa [← Option.some.inj h]
    · cases h

theorem shortest_of_safe {x : Nat} (h : x ≤ MAX_SAFE_INTEGER) (e : Nat) : shortest x e = x := by
  induction e with
  | zero => rfl
  | succ e ih =>
    rw [shortest]
    cases hmultiple : nearestMultiple x (e + 1) with
    | none => exact ih
    | some n => exact eq_of_round_safe h (round_nearestMultiple hmultiple)

theorem concatenated_of_safe {x : Nat} (h : x ≤ MAX_SAFE_INTEGER) : concatenated x = x :=
  shortest_of_safe h 20

theorem nearest_mono {unit n m : Nat} (h : n ≤ m) :
    (if 2 * (n % unit) < unit ∨ (2 * (n % unit) = unit ∧ n / unit % 2 = 0) then n / unit * unit
      else (n / unit + 1) * unit) ≤
    if 2 * (m % unit) < unit ∨ (2 * (m % unit) = unit ∧ m / unit % 2 = 0) then m / unit * unit
      else (m / unit + 1) * unit := by
  rcases (Nat.div_le_div_right (c := unit) h).lt_or_eq with hlt | heq
  · -- the next multiple above `n` is not above the one below `m`
    have hstep : (n / unit + 1) * unit ≤ m / unit * unit := Nat.mul_le_mul_right _ hlt
    have hn : n / unit * unit ≤ (n / unit + 1) * unit := Nat.mul_le_mul_right _ (Nat.le_succ _)
    have hm : m / unit * unit ≤ (m / unit + 1) * unit := Nat.mul_le_mul_right _ (Nat.le_succ _)
    split <;> split <;> omega
  · have hrest : n % unit ≤ m % unit := by
      have hn := Nat.div_add_mod n unit
      have hm := Nat.div_add_mod m unit
      rw [heq] at hn
      omega
    rw [heq]
    have hm : m / unit * unit ≤ (m / unit + 1) * unit := Nat.mul_le_mul_right _ (Nat.le_succ _)
    split <;> split <;> omega

theorem round_eq_nearest {n : Nat} (h : ¬n < 2 ^ 53) :
    round n = if 2 * (n % 2 ^ (n.log2 - 52)) < 2 ^ (n.log2 - 52) ∨
        (2 * (n % 2 ^ (n.log2 - 52)) = 2 ^ (n.log2 - 52) ∧ n / 2 ^ (n.log2 - 52) % 2 = 0) then
      n / 2 ^ (n.log2 - 52) * 2 ^ (n.log2 - 52)
    else (n / 2 ^ (n.log2 - 52) + 1) * 2 ^ (n.log2 - 52) := by
  rw [round, if_neg h]

theorem round_mono {n m : Nat} (h : n ≤ m) : round n ≤ round m := by
  by_cases hm : m < 2 ^ 53
  · rw [round_of_lt hm, round_of_lt (h.trans_lt hm)]
    exact h
  by_cases hn : n < 2 ^ 53
  · rw [round_of_lt hn]
    exact hn.le.trans (le_round (Nat.le_of_not_lt hm))
  have hlog : n.log2 ≤ m.log2 := by
    rw [Nat.log2_eq_log_two, Nat.log2_eq_log_two]
    exact Nat.log_mono_right h
  rcases hlog.lt_or_eq with hlt | heq
  · -- a power of two stands between the two roundings
    obtain ⟨a, -, ha, hround⟩ := round_eq_scaled (Nat.le_of_not_lt hn)
    obtain ⟨b, hb, -, hround'⟩ := round_eq_scaled (Nat.le_of_not_lt hm)
    have hscale := (log2_bounds (Nat.le_of_not_lt hn)).2.2
    rw [hround, hround']
    calc a * 2 ^ (n.log2 - 52) ≤ 2 ^ 53 * 2 ^ (n.log2 - 52) := Nat.mul_le_mul_right _ ha
      _ = 2 ^ 52 * 2 ^ (n.log2 - 52 + 1) := by rw [pow_succ 2 (n.log2 - 52)]; ring
      _ ≤ b * 2 ^ (m.log2 - 52) :=
        Nat.mul_le_mul hb (Nat.pow_le_pow_right (by omega) (by omega))
  · rw [round_eq_nearest hn, round_eq_nearest hm, heq]
    exact nearest_mono h

theorem lt_round_iff {m n : Nat} (h : m + 1 < 2 ^ 53) : m < round n ↔ m < n := by
  constructor
  · intro hround
    by_contra hle
    have hmono := round_mono (Nat.le_of_not_lt hle)
    rw [round_of_lt (by omega : m < 2 ^ 53)] at hmono
    omega
  · intro hlt
    have hmono := round_mono (Nat.succ_le_of_lt hlt)
    rw [Nat.succ_eq_add_one, round_of_lt h] at hmono
    omega

/-- The error of rounding is half a unit at most. -/
theorem round_error {n k : Nat} (h : n < 2 ^ (53 + k)) :
    2 * round n ≤ 2 * n + 2 ^ k ∧ 2 * n ≤ 2 * round n + 2 ^ k := by
  by_cases hn : n < 2 ^ 53
  · rw [round_of_lt hn]
    exact ⟨Nat.le_add_right _ _, Nat.le_add_right _ _⟩
  have hne : n ≠ 0 := by
    rintro rfl
    exact hn (by decide)
  have hlog : n.log2 < 53 + k := (Nat.log2_lt hne).2 h
  have hunit : 2 ^ (n.log2 - 52) ≤ 2 ^ k := Nat.pow_le_pow_right (by omega) (by omega)
  have hdiv := Nat.div_add_mod n (2 ^ (n.log2 - 52))
  have hmod := Nat.mod_lt n (show 0 < 2 ^ (n.log2 - 52) by positivity)
  rw [round_eq_nearest hn]
  rw [Nat.mul_comm] at hdiv
  split
  · omega
  · rw [Nat.add_mul, Nat.one_mul]
    omega

theorem dvd_of_round {n k : Nat} (h : round n = n) (hn : 2 ^ (52 + k) ≤ n) : 2 ^ k ∣ n := by
  rcases Nat.eq_zero_or_pos k with rfl | hk
  · exact one_dvd n
  have hlarge : 2 ^ 53 ≤ n :=
    (Nat.pow_le_pow_right (by omega) (by omega : 53 ≤ 52 + k)).trans hn
  have hne : n ≠ 0 := by
    rintro rfl
    simp at hlarge
  have hlog : 52 + k ≤ n.log2 := (Nat.le_log2 hne).2 hn
  obtain ⟨m, -, -, hm⟩ := round_eq_scaled hlarge
  rw [h] at hm
  rw [hm]
  exact Dvd.dvd.mul_left (pow_dvd_pow 2 (by omega)) m

theorem round_of_pow_dvd {n k : Nat} (hdvd : 2 ^ k ∣ n) (hn : n < 2 ^ (53 + k)) : round n = n := by
  by_cases hzero : n = 0
  · rw [hzero]
    rfl
  have hlog : n.log2 < 53 + k := (Nat.log2_lt hzero).2 hn
  exact round_of_dvd ((pow_dvd_pow 2 (by omega)).trans hdvd)

/-- What is printed is read back. -/
theorem round_shortest {x : Nat} (h : round x = x) (e : Nat) : round (shortest x e) = x := by
  induction e with
  | zero => exact h
  | succ e ih =>
    rw [shortest]
    cases hmultiple : nearestMultiple x (e + 1) with
    | none => exact ih
    | some n => exact round_nearestMultiple hmultiple

theorem round_concatenated {x : Nat} (h : round x = x) : round (concatenated x) = x :=
  round_shortest h 20

theorem concatenated_lt {x y : Nat} (hx : round x = x) (hy : round y = y) (h : x < y) :
    concatenated x < concatenated y := by
  by_contra hle
  have hmono := round_mono (Nat.le_of_not_lt hle)
  rw [round_concatenated hx, round_concatenated hy] at hmono
  omega

theorem powers_of_ten : ∀ k < 20, round (10 ^ k) = 10 ^ k ∧ concatenated (10 ^ k) = 10 ^ k := by
  decide

theorem concatenated_lt_pow_iff {x k : Nat} (hx : round x = x) (hk : k < 20) :
    concatenated x < 10 ^ k ↔ x < 10 ^ k := by
  obtain ⟨hround, hprint⟩ := powers_of_ten k hk
  constructor
  · intro h
    have hmono := round_mono h.le
    rw [round_concatenated hx, hround] at hmono
    refine hmono.lt_of_ne ?_
    rintro rfl
    rw [hprint] at h
    exact lt_irrefl _ h
  · intro h
    have hlt := concatenated_lt hx hround h
    rwa [hprint] at hlt

example : round 9007199254740993 = 9007199254740992 := by decide
example : concatenated (2 ^ 60) = 1152921504606847000 := by decide

end CarbonMessaging.JavaScriptNumbers
