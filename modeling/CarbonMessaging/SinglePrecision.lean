import Mathlib.Algebra.Order.Floor.Div
import Mathlib.Data.Int.Log
import Mathlib.Tactic

/-! Quotients of whole numbers in Java's `float` arithmetic. A nonnegative number is rounded to 24
significant bits, to the even neighbour of two that are equally near; the numbers here are zero
or far from both ends of the exponent's range. -/

namespace CarbonMessaging.SinglePrecision

def nearestEven (x : ℚ) : ℤ :=
  if x - ⌊x⌋ < 1 / 2 ∨ (x - ⌊x⌋ = 1 / 2 ∧ ⌊x⌋ % 2 = 0) then ⌊x⌋ else ⌊x⌋ + 1

def unit (x : ℚ) : ℚ := 2 ^ (Int.log 2 x - 23)

/-- `(float) x`, and what `float` arithmetic makes of an exact result `x`. -/
def toFloat (x : ℚ) : ℚ := nearestEven (x / unit x) * unit x

/-- `(int) Math.ceil(((float) total) / perPage)` -/
def pageCount (total perPage : ℕ) : ℕ := ⌈toFloat (toFloat total / toFloat perPage)⌉₊

theorem unit_pos (x : ℚ) : 0 < unit x := by
  rw [unit]
  positivity

theorem nearestEven_near (x : ℚ) : |(nearestEven x : ℚ) - x| ≤ 1 / 2 := by
  have hfloor := Int.floor_le x
  have hnext := Int.lt_floor_add_one x
  rw [nearestEven, abs_le]
  split
  · rename_i hbelow
    have hhalf : x - ⌊x⌋ ≤ 1 / 2 := hbelow.elim le_of_lt fun h => h.1.le
    constructor <;> linarith
  · rename_i habove
    have hhalf : 1 / 2 ≤ x - ⌊x⌋ := le_of_not_gt fun h => habove (.inl h)
    push_cast
    constructor <;> linarith

theorem nearestEven_intCast (m : ℤ) : nearestEven m = m := by
  simp [nearestEven]

theorem toFloat_near (x : ℚ) : |toFloat x - x| ≤ unit x / 2 := by
  have hpos := unit_pos x
  have hscaled : toFloat x - x = ((nearestEven (x / unit x) : ℚ) - x / unit x) * unit x := by
    rw [sub_mul, div_mul_cancel₀ _ hpos.ne', toFloat]
  rw [hscaled, abs_mul, abs_of_pos hpos]
  calc |(nearestEven (x / unit x) : ℚ) - x / unit x| * unit x
      ≤ 1 / 2 * unit x := mul_le_mul_of_nonneg_right (nearestEven_near _) hpos.le
    _ = unit x / 2 := by ring

theorem toFloat_of_multiple {x : ℚ} {m : ℤ} (h : x = m * unit x) : toFloat x = x := by
  have hquotient : x / unit x = m := (div_eq_iff (unit_pos x).ne').2 h
  rw [toFloat, hquotient, nearestEven_intCast, ← h]

theorem toFloat_natCast {n : ℕ} (h : n < 2 ^ 24) : toFloat n = n := by
  have hlog : Nat.log 2 n ≤ 23 := by
    rcases Nat.eq_zero_or_pos n with rfl | hpos
    · simp
    · exact Nat.lt_succ_iff.1 (Nat.log_lt_of_lt_pow hpos.ne' h)
  refine toFloat_of_multiple (m := n * 2 ^ (23 - Nat.log 2 n)) ?_
  have hexponent : ((23 - Nat.log 2 n : ℕ) : ℤ) + (Nat.log 2 n - 23 : ℤ) = 0 := by omega
  have hunit : (2 : ℚ) ^ (23 - Nat.log 2 n) * unit n = 1 := by
    rw [unit, Int.log_natCast, ← zpow_natCast, ← zpow_add₀ two_ne_zero, hexponent, zpow_zero]
  push_cast
  rw [mul_assoc, hunit, mul_one]

theorem toFloat_zero : toFloat 0 = 0 := by
  rw [toFloat, zero_div]
  simp [nearestEven]

section
variable {total perPage : ℕ}

theorem half_unit_lt (htotal : 0 < total) (h : total < 2 ^ 24) (hpage : 0 < perPage) :
    unit ((total : ℚ) / perPage) / 2 < 1 / perPage := by
  have hpos : (0 : ℚ) < perPage := by exact_mod_cast hpage
  have hx : (0 : ℚ) < total / perPage := div_pos (by exact_mod_cast htotal) hpos
  have hlog := Int.zpow_log_le_self one_lt_two hx
  rw [Nat.cast_ofNat, le_div_iff₀ hpos] at hlog
  have hbound : (total : ℚ) < 2 ^ 24 := by exact_mod_cast h
  rw [lt_div_iff₀ hpos, unit, zpow_sub₀ two_ne_zero]
  calc (2 : ℚ) ^ Int.log 2 ((total : ℚ) / perPage) / 2 ^ (23 : ℤ) / 2 * perPage
      = (2 ^ Int.log 2 ((total : ℚ) / perPage) * perPage) / 2 ^ 24 := by
        norm_num
        ring
    _ ≤ total / 2 ^ 24 := by gcongr
    _ < 1 := by rwa [div_lt_one (by positivity)]

theorem toFloat_le_natCast_iff (h : total < 2 ^ 24) (hpage : 0 < perPage) (m : ℕ) :
    toFloat ((total : ℚ) / perPage) ≤ m ↔ (total : ℚ) / perPage ≤ m := by
  rcases Nat.eq_zero_or_pos total with rfl | htotal
  · rw [Nat.cast_zero, zero_div, toFloat_zero]
  · have hpos : (0 : ℚ) < perPage := by exact_mod_cast hpage
    have hhalf := half_unit_lt htotal h hpage
    have hnear := abs_le.1 (toFloat_near ((total : ℚ) / perPage))
    rcases lt_trichotomy total (m * perPage) with hbelow | rfl | habove
    · have hgap : (total : ℚ) / perPage + 1 / perPage ≤ m := by
        rw [← add_div, div_le_iff₀ hpos]
        exact_mod_cast hbelow
      exact iff_of_true (by linarith [hnear.2]) (by linarith [one_div_pos.2 hpos])
    · have hwhole : ((m * perPage : ℕ) : ℚ) / perPage = m := by
        rw [Nat.cast_mul, mul_div_cancel_right₀ _ hpos.ne']
      have hsmall : m < 2 ^ 24 := (Nat.le_mul_of_pos_right m hpage).trans_lt h
      rw [hwhole, toFloat_natCast hsmall]
    · have hgap : (m : ℚ) + 1 / perPage ≤ total / perPage := by
        rw [le_div_iff₀ hpos, add_mul, one_div, inv_mul_cancel₀ hpos.ne']
        exact_mod_cast habove
      exact iff_of_false (by linarith [hnear.1]) (by linarith [one_div_pos.2 hpos])

/-- Below `2 ^ 24` entries the page count is exact. -/
theorem pageCount_eq (h : total < 2 ^ 24) (hpage : 0 < perPage) (hsize : perPage < 2 ^ 24) :
    pageCount total perPage = total ⌈/⌉ perPage := by
  have hpos : (0 : ℚ) < perPage := by exact_mod_cast hpage
  refine eq_of_forall_ge_iff fun m => ?_
  rw [pageCount, toFloat_natCast h, toFloat_natCast hsize, Nat.ceil_le,
    toFloat_le_natCast_iff h hpage, div_le_iff₀ hpos, ceilDiv_le_iff_le_mul hpage, mul_comm]
  exact_mod_cast Iff.rfl

end

end CarbonMessaging.SinglePrecision
