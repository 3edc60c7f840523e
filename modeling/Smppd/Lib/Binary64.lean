/-
  BINARY64: what a program computes that reckons in doubles.

  A double is read as the rational number that it stands for, and an operation on doubles is the operation on
  these numbers, ROUNDED: to 53 significant bits, to the nearest, and halfway to the even one.  That is so for
  numbers that are not negative and not beyond the range of the exponents, above or below.

  Two things are known of it then: a whole number below `2^53` is a double (`rounded_natCast`), and no result is off
  by more than its part in `2^53` (`abs_rounded_sub_le`).
-/
import Mathlib.Algebra.Order.Field.Basic
import Mathlib.Data.Int.Log
import Mathlib.Data.Rat.Floor
import Mathlib.Tactic.Linarith
import Mathlib.Tactic.Ring

namespace Binary64

/-- The nearest integer, and halfway between two the even one. -/
def halfEven (x : ℚ) : ℤ :=
  if x - ⌊x⌋ < 1 / 2 then ⌊x⌋
  else if 1 / 2 < x - ⌊x⌋ then ⌊x⌋ + 1
  else if ⌊x⌋ % 2 = 0 then ⌊x⌋ else ⌊x⌋ + 1

/-- The unit in the last place: 53 bits from the first one of the number. -/
def ulp (x : ℚ) : ℚ := 2 ^ (Int.log 2 x - 52)

/-- The double that stands for the number. -/
def rounded (x : ℚ) : ℚ := halfEven (x / ulp x) * ulp x

theorem abs_halfEven_sub_le (x : ℚ) : |(halfEven x : ℚ) - x| ≤ 1 / 2 := by
  have hfloor := Int.floor_le x
  have hnext := Int.lt_floor_add_one x
  rw [abs_le, halfEven]
  split
  · constructor <;> linarith
  · split
    · push_cast
      constructor <;> linarith
    · split
      · constructor <;> linarith
      · push_cast
        constructor <;> linarith

theorem halfEven_intCast (n : ℤ) : halfEven n = n := by
  have hhalf : (n : ℚ) - n < 1 / 2 := by
    rw [sub_self]
    norm_num
  rw [halfEven, Int.floor_intCast, if_pos hhalf]

theorem ulp_pos (x : ℚ) : 0 < ulp x := zpow_pos (by norm_num) _

theorem ulp_le {x : ℚ} (hx : 0 < x) : ulp x ≤ x / 2 ^ 52 := by
  have hlog := Int.zpow_log_le_self (b := 2) (by norm_num) hx
  rw [ulp, zpow_sub₀ (by norm_num)]
  exact div_le_div_of_nonneg_right hlog (by positivity)

theorem rounded_zero : rounded 0 = 0 := by
  rw [rounded, zero_div]
  have hzero := halfEven_intCast 0
  rw [Int.cast_zero] at hzero
  rw [hzero, Int.cast_zero, zero_mul]

/-- **No result is off by more than its part in `2^53`.** -/
theorem abs_rounded_sub_le {x : ℚ} (hx : 0 ≤ x) : |rounded x - x| ≤ x / 2 ^ 53 := by
  rcases hx.eq_or_lt with rfl | hpos
  · rw [rounded_zero, sub_self, abs_zero, zero_div]
  · have hunit := ulp_pos x
    have hsplit : rounded x - x = ((halfEven (x / ulp x) : ℚ) - x / ulp x) * ulp x := by
      rw [rounded, sub_mul, div_mul_cancel₀ _ hunit.ne']
    rw [hsplit, abs_mul, abs_of_pos hunit]
    calc |(halfEven (x / ulp x) : ℚ) - x / ulp x| * ulp x
        ≤ 1 / 2 * ulp x := mul_le_mul_of_nonneg_right (abs_halfEven_sub_le _) hunit.le
      _ ≤ 1 / 2 * (x / 2 ^ 52) := mul_le_mul_of_nonneg_left (ulp_le hpos) (by norm_num)
      _ = x / 2 ^ 53 := by ring

/-- **A whole number below `2^53` is a double.** -/
theorem rounded_natCast {n : ℕ} (h : n < 2 ^ 53) : rounded n = n := by
  rcases Nat.eq_zero_or_pos n with rfl | hpos
  · exact_mod_cast rounded_zero
  · have hlog : Int.log 2 (n : ℚ) = (Nat.log 2 n : ℤ) := Int.log_natCast 2 n
    have hle : Nat.log 2 n ≤ 52 := Nat.lt_succ_iff.mp (Nat.log_lt_of_lt_pow hpos.ne' h)
    have hulp : (ulp n)⁻¹ = ((2 ^ (52 - Nat.log 2 n) : ℕ) : ℚ) := by
      rw [ulp, hlog, ← zpow_neg, neg_sub]
      have hexp : (52 : ℤ) - Nat.log 2 n = ((52 - Nat.log 2 n : ℕ) : ℤ) := by omega
      rw [hexp, zpow_natCast]
      push_cast
      rfl
    -- in units in the last place it is whole
    have hwhole : (n : ℚ) / ulp n = ((n * 2 ^ (52 - Nat.log 2 n) : ℕ) : ℤ) := by
      rw [div_eq_mul_inv, hulp]
      push_cast
      rfl
    rw [rounded, hwhole, halfEven_intCast, ← hwhole, div_mul_cancel₀ _ (ulp_pos _).ne']

theorem rounded_nonneg {x : ℚ} (hx : 0 ≤ x) : 0 ≤ rounded x := by
  have hoff := (abs_le.mp (abs_rounded_sub_le hx)).1
  have hpart : x / 2 ^ 53 ≤ x := div_le_self hx (by norm_num)
  linarith

end Binary64
