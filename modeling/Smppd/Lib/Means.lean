/-
  AVERAGES THAT A PROGRAM KEEPS: one number that is brought up to date with every new value, in integers.

  * `runningMean` multiplies the old mean by the number of values, adds the new one and divides by the new
    number.  What a division drops is missing from then on, and `dropped` adds it up, as a function of the
    values alone: the mean that is kept, times the number of values, and what was dropped are the sum
    (`runningMean_mul_add_dropped`).  So the kept mean never exceeds the true one, and it is less than one below
    if and only if less was dropped than there are values (`runningMean_near_iff`).
  * `smooth` weighs the old average and the new value, and takes an average of zero for one that has not been
    set.  It stays among the values (`Among.smooth`): a weighted average lies between the two, rounding down
    does not take it below a whole number, and where it is zero some value was.
-/
import Mathlib.Algebra.Order.Field.Rat
import Mathlib.Algebra.Order.Ring.Rat
import Mathlib.Algebra.Order.Field.Basic
import Mathlib.Algebra.Order.AbsoluteValue.Basic
import Mathlib.Algebra.BigOperators.Group.List.Basic
import Mathlib.Tactic.FieldSimp
import Mathlib.Tactic.Linarith
import Mathlib.Tactic.Positivity
import Mathlib.Tactic.Ring

namespace Means

/-! ## Running means -/

/-- One more value: how many there are, and their mean as it is kept. -/
def countIn (kept : Nat × Nat) (x : Nat) : Nat × Nat := (kept.1 + 1, (kept.2 * kept.1 + x) / (kept.1 + 1))

/-- The mean that is kept of some values. -/
def runningMean (xs : List Nat) : Nat := (xs.foldl countIn (0, 0)).2

/-- One more value: how many there are, their sum, and what was dropped. -/
def dropIn (seen : Nat × Nat × Nat) (x : Nat) : Nat × Nat × Nat :=
  (seen.1 + 1, seen.2.1 + x, seen.2.2 + (seen.2.1 + x - seen.2.2) % (seen.1 + 1))

/-- **What the divisions drop** of some values: each the remainder of what is left of the sum. -/
def dropped (xs : List Nat) : Nat := (xs.foldl dropIn (0, 0, 0)).2.2

theorem foldl_countIn (xs : List Nat) : xs.foldl countIn (0, 0) = (xs.length, runningMean xs) := by
  have hcount : (xs.foldl countIn (0, 0)).1 = xs.length := by
    induction xs using List.reverseRecOn with
    | nil => rfl
    | append_singleton xs x ih => rw [List.foldl_concat, countIn, ih, List.length_append, List.length_singleton]
  rw [runningMean, ← hcount]

theorem foldl_dropIn (xs : List Nat) : xs.foldl dropIn (0, 0, 0) = (xs.length, xs.sum, dropped xs) := by
  have hcount : (xs.foldl dropIn (0, 0, 0)).1 = xs.length ∧ (xs.foldl dropIn (0, 0, 0)).2.1 = xs.sum := by
    induction xs using List.reverseRecOn with
    | nil => exact ⟨rfl, rfl⟩
    | append_singleton xs x ih =>
      rw [List.foldl_concat, dropIn, ih.1, ih.2, List.length_append, List.length_singleton, List.sum_append,
        List.sum_singleton]
      exact ⟨rfl, rfl⟩
  rw [dropped, ← hcount.1, ← hcount.2]

theorem runningMean_append (xs : List Nat) (x : Nat) :
    runningMean (xs ++ [x]) = (runningMean xs * xs.length + x) / (xs.length + 1) := by
  rw [runningMean, List.foldl_concat, foldl_countIn, countIn]

theorem dropped_append (xs : List Nat) (x : Nat) :
    dropped (xs ++ [x]) = dropped xs + (xs.sum + x - dropped xs) % (xs.length + 1) := by
  rw [dropped, List.foldl_concat, foldl_dropIn, dropIn]

/-- **Nothing is lost but what was dropped.** -/
theorem runningMean_mul_add_dropped (xs : List Nat) : runningMean xs * xs.length + dropped xs = xs.sum := by
  induction xs using List.reverseRecOn with
  | nil => rfl
  | append_singleton xs x ih =>
    have hleft : xs.sum + x - dropped xs = runningMean xs * xs.length + x := by omega
    rw [runningMean_append, dropped_append, hleft, List.length_append, List.length_singleton, List.sum_append,
      List.sum_singleton]
    have hdiv := Nat.div_add_mod' (runningMean xs * xs.length + x) (xs.length + 1)
    omega

/-- The mean that is kept differs from the true one by less than one. -/
def Near (mean : Nat) (xs : List Nat) : Prop := |(mean : ℚ) - xs.sum / xs.length| < 1

/-- **How good a running mean is.** -/
theorem runningMean_near_iff {xs : List Nat} (h : xs ≠ []) : Near (runningMean xs) xs ↔ dropped xs < xs.length := by
  have hpos : (0 : ℚ) < xs.length := by exact_mod_cast List.length_pos_iff.mpr h
  have haccounts : (xs.sum : ℚ) = runningMean xs * xs.length + dropped xs := by
    exact_mod_cast (runningMean_mul_add_dropped xs).symm
  have hbelow : (runningMean xs : ℚ) - xs.sum / xs.length = -(dropped xs / xs.length) := by
    rw [haccounts]
    field_simp
    ring
  rw [Near, hbelow, abs_neg, abs_of_nonneg (by positivity), div_lt_one hpos, Nat.cast_lt]

/-! ## Moving averages -/

/-- One more value, with the weights of the new one and of the old average; zero means "not yet set". -/
def smooth (new old average x : Nat) : Nat :=
  if average = 0 then x else (x * new + average * old) / (new + old)

/-- Between the smallest and the largest of some values. -/
def Among (xs : List Nat) (average : Nat) : Prop := (∃ lo ∈ xs, lo ≤ average) ∧ ∃ hi ∈ xs, average ≤ hi

variable {new old average x bound : Nat} {xs : List Nat}

theorem le_weighted (hpos : 0 < new + old) (hx : bound ≤ x) (haverage : bound ≤ average) :
    bound ≤ (x * new + average * old) / (new + old) := by
  rw [Nat.le_div_iff_mul_le hpos, Nat.mul_add]
  exact Nat.add_le_add (Nat.mul_le_mul_right new hx) (Nat.mul_le_mul_right old haverage)

theorem weighted_le (hx : x ≤ bound) (haverage : average ≤ bound) :
    (x * new + average * old) / (new + old) ≤ bound := by
  apply Nat.div_le_of_le_mul
  rw [Nat.add_mul, Nat.mul_comm x, Nat.mul_comm average]
  exact Nat.add_le_add (Nat.mul_le_mul_left new hx) (Nat.mul_le_mul_left old haverage)

theorem Among.of_mem (h : x ∈ xs) : Among xs x := ⟨⟨x, h, le_rfl⟩, ⟨x, h, le_rfl⟩⟩

/-- **A moving average stays among the values.** -/
theorem Among.smooth (hpos : 0 < new + old) (h : Among xs average) (x : Nat) :
    Among (xs ++ [x]) (smooth new old average x) := by
  obtain ⟨⟨lo, hlo, hle⟩, hi, hhi, hge⟩ := h
  rw [Means.smooth]
  split
  · exact .of_mem (by simp)
  · constructor
    · rcases Nat.le_total x average with hx | hx
      · exact ⟨x, by simp, le_weighted hpos le_rfl hx⟩
      · exact ⟨lo, by simp [hlo], hle.trans (le_weighted hpos hx le_rfl)⟩
    · rcases Nat.le_total x average with hx | hx
      · exact ⟨hi, by simp [hhi], (weighted_le hx le_rfl).trans hge⟩
      · exact ⟨x, by simp, weighted_le le_rfl hx⟩

/-- What an average that was never set or is among the values keeps to. -/
def Tracks (xs : List Nat) (average : Nat) : Prop := (xs = [] ∧ average = 0) ∨ Among xs average

theorem Tracks.smooth (hpos : 0 < new + old) (h : Tracks xs average) (x : Nat) :
    Tracks (xs ++ [x]) (smooth new old average x) := by
  apply Or.inr
  rcases h with ⟨rfl, rfl⟩ | hamong
  · rw [Means.smooth, if_pos rfl]
    exact .of_mem (by simp)
  · exact hamong.smooth hpos x

theorem Tracks.lt (h : Tracks xs average) (hpos : 0 < bound) (hxs : ∀ x ∈ xs, x < bound) : average < bound := by
  rcases h with ⟨-, rfl⟩ | ⟨-, hi, hhi, hle⟩
  · exact hpos
  · exact hle.trans_lt (hxs hi hhi)

theorem Tracks.among (h : Tracks xs average) (hxs : xs ≠ []) : Among xs average :=
  h.resolve_left fun hempty => hxs hempty.1

end Means
